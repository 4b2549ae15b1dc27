import CoroEpoll.ThreadPool.Execution

/-! `co_await pool.submit(loop, f)`: coroutines, the workers of a pool and any number of
event loops.

An await is numbered, and its number stands for the task that it enqueues. What `f` does is
opaque: it returns or throws anything. Coroutines run on any thread, other callbacks are
posted to the loops at any time, and posted callbacks do not throw.
-/

set_option autoImplicit false

namespace CoroEpoll.Submit

/-- How a function ends; one of type `void` returns no value. -/
inductive Outcome (V : Type) where
  | returned (value : Option V)
  | threw (error : Exception)
  deriving DecidableEq, Repr

structure Awaiter where
  coroutine : Nat
  continuationLoop : Nat
  /-- whether `Result` is `void` -/
  isVoid : Bool

structure ThreadPoolState (V : Type) where
  value : Option V := none
  exception : Option Exception := none
  continuation : Nat

inductive Caller where
  /-- `await_suspend` of an await -/
  | submit (id : Nat)
  | other (id : Nat)
  deriving DecidableEq

inductive Callback where
  /-- `state->continuation.resume()` for an await -/
  | resume (id : Nat)
  | other (id : Nat)
  deriving DecidableEq, Repr

structure Loop where
  pendingTasks : List Callback
  /-- the queue of the drain in progress -/
  localTasks : List Callback

inductive Stage where
  | calling | posting | returning
  deriving DecidableEq, Repr

structure Resumption (V : Type) where
  id : Nat
  loop : Nat
  outcome : Outcome V

structure World (n : Nat) (V : Type) where
  pool : ThreadPool.World n Caller Nat
  stage : Fin n → Stage
  awaiters : List Awaiter
  states : Nat → ThreadPoolState V
  loops : Nat → Loop
  /-- the await at which a coroutine is suspended -/
  suspended : Nat → Option Nat
  /-- every call of a function so far, and how it ended -/
  called : List (Nat × Outcome V)
  /-- every post so far, and its loop -/
  posted : List (Nat × Nat)
  resumed : List (Resumption V)
  /-- the awaits whose `await_suspend` has thrown -/
  refused : List (Nat × StdException)

inductive Act (n : Nat) (V : Type) where
  | await (coroutine loop : Nat) (isVoid : Bool)
  | stop (caller : Nat)
  /-- a worker enters the lock again -/
  | loop (w : Fin n)
  | lock (thread : ThreadPool.Thread n Caller)
  | run (thread : ThreadPool.Thread n Caller)
  | leave (thread : ThreadPool.Thread n Caller) (woken : Option (ThreadPool.Thread n Caller))
  | spurious (thread : ThreadPool.Thread n Caller)
  | call (w : Fin n) (outcome : Outcome V)
  | post (w : Fin n)
  | finish (w : Fin n)
  | postOther (loop id : Nat)
  | swap (loop : Nat)
  | drain (loop : Nat)

variable {n : Nat} {V : Type}

def Outcome.fits (isVoid : Bool) : Outcome V → Bool
  | .returned value => value.isSome == !isVoid
  | .threw _ => true

def ThreadPoolState.record (state : ThreadPoolState V) : Outcome V → ThreadPoolState V
  | .returned (some value) => { state with value := some value }
  | .returned none => state
  | .threw error => { state with exception := some error }

/-- `await_resume`; `none` where `*state_->value` is undefined. -/
def ThreadPoolState.awaitResume (isVoid : Bool) (state : ThreadPoolState V) : Option (Outcome V) :=
  match state.exception with
  | some error => some (.threw error)
  | none =>
    if isVoid then some (.returned none)
    else state.value.map fun value => .returned (some value)

namespace World

def inPool (s : World n V) (a : ThreadPool.Act n Caller Nat) : Option (World n V) :=
  (ThreadPool.step s.pool a).map fun pool => { s with pool }

/-- `co_await pool.submit(loop, f)` up to `enqueue`. -/
def await (coroutine loop : Nat) (isVoid : Bool) (s : World n V) : Option (World n V) :=
  let id := s.awaiters.length
  let awaiter : Awaiter := ⟨coroutine, loop, isVoid⟩
  let suspends : World n V := { s with
    awaiters := s.awaiters ++ [awaiter]
    states := Function.update s.states id { continuation := coroutine }
    suspended := Function.update s.suspended coroutine (some id) }
  suspends.inPool (.enqueue (.submit id) id)

/-- A thread leaves the lock of the pool. An exception that leaves `await_suspend` is thrown
into the coroutine, which goes on. -/
def leave (thread : ThreadPool.Thread n Caller) (s : World n V) : World n V :=
  match thread, s.pool.monitor.phase thread with
  | .caller (.submit id), .leaving (.refused _ error) =>
    { s with
      suspended := Function.update s.suspended (s.states id).continuation none
      refused := s.refused ++ [(id, error)] }
  | _, _ => s

def push (loop : Nat) (callback : Callback) (s : World n V) : World n V :=
  let after : Loop :=
    { s.loops loop with pendingTasks := (s.loops loop).pendingTasks ++ [callback] }
  { s with loops := Function.update s.loops loop after }

/-- `drain_pending_tasks` calls the next callback. Resuming a coroutine that is not suspended
there is undefined. -/
def drain (loop : Nat) (s : World n V) : Option (World n V) :=
  match (s.loops loop).localTasks with
  | [] => none
  | callback :: rest =>
    let after : Loop := { s.loops loop with localTasks := rest }
    let s : World n V := { s with loops := Function.update s.loops loop after }
    match callback with
    | .other _ => some s
    | .resume id =>
      let state := s.states id
      if s.suspended state.continuation = some id then
        match s.awaiters[id]? with
        | some awaiter =>
          (state.awaitResume awaiter.isVoid).map fun outcome => { s with
            suspended := Function.update s.suspended state.continuation none
            resumed := s.resumed ++ [⟨id, loop, outcome⟩] }
        | none => none
      else none

end World

def step (s : World n V) : Act n V → Option (World n V)
  | .await coroutine loop isVoid =>
    if s.suspended coroutine = none then s.await coroutine loop isVoid else none
  | .stop id => s.inPool (.stop (.other id))
  | .loop w => s.inPool (.loop w)
  | .lock thread => s.inPool (.lock thread)
  | .run thread => s.inPool (.run thread)
  | .leave thread woken => (s.leave thread).inPool (.leave thread woken)
  | .spurious thread => s.inPool (.spurious thread)
  | .call w outcome =>
    match s.pool.workers w, s.stage w with
    | .running id, .calling =>
      match s.awaiters[id]? with
      | some awaiter =>
        if outcome.fits awaiter.isVoid then
          some { s with
            stage := Function.update s.stage w .posting
            states := Function.update s.states id ((s.states id).record outcome)
            called := s.called ++ [(id, outcome)] }
        else none
      | none => none
    | _, _ => none
  | .post w =>
    match s.pool.workers w, s.stage w with
    | .running id, .posting =>
      match s.awaiters[id]? with
      | some awaiter =>
        some { s.push awaiter.continuationLoop (.resume id) with
          stage := Function.update s.stage w .returning
          posted := s.posted ++ [(id, awaiter.continuationLoop)] }
      | none => none
    | _, _ => none
  | .finish w =>
    if s.stage w = .returning then
      ({ s with stage := Function.update s.stage w .calling }).inPool (.finish w)
    else none
  | .postOther loop id => some (s.push loop (.other id))
  | .swap loop =>
    if (s.loops loop).localTasks = [] ∧ (s.loops loop).pendingTasks ≠ [] then
      some { s with loops := Function.update s.loops loop ⟨[], (s.loops loop).pendingTasks⟩ }
    else none
  | .drain loop => s.drain loop

def World.boot (n : Nat) (V : Type) : World n V where
  pool := .boot n Caller Nat
  stage _ := .calling
  awaiters := []
  states _ := { continuation := 0 }
  loops _ := ⟨[], []⟩
  suspended _ := none
  called := []
  posted := []
  resumed := []
  refused := []

def machine (n : Nat) (V : Type) : Transition.Machine (World n V) (Act n V) where
  start s := s = .boot n V ∧ ThreadPool.World.construct n Caller Nat = .ok s.pool
  step := step

end CoroEpoll.Submit
