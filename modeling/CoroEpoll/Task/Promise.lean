import CoroEpoll.Library.CallStack

/-! Coroutines as `Task` runs them: frames with a promise, resumed through handles on the
native stack.

A co_await creates its child, so that every frame but that of a spawned task is a temporary
of the coroutine that awaits it. The bodies are programs of `Routines`, whose calls are
co_await expressions.
-/

set_option autoImplicit false

namespace CoroEpoll.Task

open Routines

abbrev Handle := Nat

/-- `promise_type`. A promise of `Task<void>` has no value. -/
structure Promise (L : Lang) where
  value : Option L.Value
  exception : Option L.Error
  continuation : Option Handle

inductive Point (L : Lang) where
  | initial
  /-- at a co_await, once `await_ready` has been asked -/
  | await (child : Handle)
  | wait (event : L.Event)
  | final

structure Frame (L : Lang) where
  fn : L.Fn
  /-- the spawned task it works for -/
  task : Handle
  promise : Promise L
  /-- `none` while it runs -/
  point : Option (Point L)
  /-- `none` when it has ended -/
  body : Option (Body L)

/-- What an active call of `resume()` is in: the coroutine's body, or an `await_suspend`
that has resumed another coroutine. -/
inductive Site where
  | body | awaitSuspend | finalSuspend
  deriving DecidableEq, Repr

structure Resume where
  handle : Handle
  site : Site
  deriving DecidableEq, Repr

structure Spawned (L : Lang) where
  handle : Handle
  fn : L.Fn
  env : L.Env

structure Resumed (L : Lang) where
  parent : Handle
  child : Handle
  outcome : Outcome L

structure World (L : Lang) where
  frames : Handle → Option (Frame L)
  /-- the handle of the next frame -/
  next : Handle
  /-- the active calls of `resume()`, the innermost first -/
  native : List Resume
  tasks : List (Spawned L)
  /-- the replies that the outside has given to each task -/
  delivered : Handle → List L.Reply
  /-- every co_await so far, as its parent and its child -/
  awaited : List (Handle × Handle)
  /-- every coroutine that has reached its final suspend, and how its body ended -/
  finished : List (Handle × Outcome L)
  /-- every `await_resume` so far, and what it gave its parent -/
  resumed : List (Resumed L)

variable {L : Lang}

def Promise.empty : Promise L :=
  ⟨none, none, none⟩

def Promise.returnValue (value : L.Value) (promise : Promise L) : Promise L :=
  { promise with value := some value }

def Promise.returnVoid (promise : Promise L) : Promise L :=
  promise

def Promise.unhandledException (error : L.Error) (promise : Promise L) : Promise L :=
  { promise with exception := some error }

def Promise.leave (promise : Promise L) : Routine L → Flow L → Promise L
  | .value _ last, .normal env => promise.returnValue (last env)
  | .value _ _, .returned result => promise.returnValue result
  | .void _, .normal _ | .void _, .returned _ => promise.returnVoid
  | _, .threw error _ => promise.unhandledException error

/-- `await_resume`; `none` where `*promise.value` is undefined. -/
def Promise.awaitResume (promise : Promise L) (routine : Routine L) : Option (Outcome L) :=
  match promise.exception with
  | some error => some (.threw error)
  | none =>
    match routine with
    | .value _ _ => promise.value.map fun value => .returned (some value)
    | .void _ => some (.returned none)

def Frame.done (frame : Frame L) : Bool :=
  match frame.point with
  | some .final => true
  | _ => false

namespace World

def setFrame (handle : Handle) (frame : Frame L) (s : World L) : World L :=
  { s with frames := Function.update s.frames handle (some frame) }

def destroy (handle : Handle) (s : World L) : World L :=
  { s with frames := Function.update s.frames handle none }

/-- A call of a coroutine: `get_return_object` and `initial_suspend`. -/
def create (program : L.Fn → Routine L) (task : Handle) (fn : L.Fn) (env : L.Env)
    (s : World L) : World L :=
  { s.setFrame s.next
      { fn, task, promise := .empty, point := some .initial, body := some ((program fn).enter env) }
    with next := s.next + 1 }

/-- `resume()` of a suspended coroutine; it is undefined for any other. -/
def resume (handle : Handle) (s : World L) : Option (World L) :=
  match s.frames handle with
  | some frame =>
    match frame.point with
    | some .initial =>
      some { s.setFrame handle { frame with point := none } with
        native := ⟨handle, .body⟩ :: s.native }
    -- its first step is `await_resume`
    | some (.await _) => some { s with native := ⟨handle, .body⟩ :: s.native }
    | _ => none
  | none => none

/-- `!handle || handle.done()` -/
def awaitReady (handle : Handle) (s : World L) : Bool :=
  match s.frames handle with
  | some frame => frame.done
  | none => true

def awaitSuspend (child parent : Handle) (s : World L) : Option (World L) :=
  match s.frames child with
  | some frame =>
    (s.setFrame child
      { frame with promise := { frame.promise with continuation := some parent } }).resume child
  | none => none

def coAwait (program : L.Fn → Routine L) (handle : Handle) (frame : Frame L) (rest : List Resume)
    (fn : L.Fn) (env : L.Env) (s : World L) : Option (World L) :=
  let child := s.next
  let s := (s.create program frame.task fn env).setFrame handle
    { frame with point := some (.await child) }
  let s := { s with awaited := s.awaited ++ [(handle, child)] }
  if s.awaitReady child then some s
  else { s with native := ⟨handle, .awaitSuspend⟩ :: rest }.awaitSuspend child handle

def finalSuspend (handle : Handle) (promise : Promise L) (rest : List Resume) (s : World L) :
    Option (World L) :=
  match promise.continuation with
  | some continuation =>
    { s with native := ⟨handle, .finalSuspend⟩ :: rest }.resume continuation
  | none => some { s with native := rest }

/-- The end of a body: it leaves its promise and reaches its final suspend. -/
def finish (program : L.Fn → Routine L) (handle : Handle) (frame : Frame L) (rest : List Resume)
    (flow : Flow L) (s : World L) : Option (World L) :=
  let promise := frame.promise.leave (program frame.fn) flow
  let s := s.setFrame handle { frame with promise, point := some .final, body := none }
  { s with finished := s.finished ++ [(handle, (program frame.fn).outcome flow)] }.finalSuspend
    handle promise rest

/-- The coroutine goes on after a co_await: `await_resume`, and the end of the child's
temporary. -/
def awaitResume (program : L.Fn → Routine L) (handle : Handle) (frame : Frame L)
    (child : Handle) (body : Body L) (s : World L) : Option (World L) :=
  match s.frames child, body.turn with
  | some awaited, .calls _ _ resume =>
    match awaited.promise.awaitResume (program awaited.fn) with
    | some outcome =>
      some { (s.destroy child).setFrame handle
          { frame with point := none, body := some (resume outcome) } with
        resumed := s.resumed ++ [⟨handle, child, outcome⟩] }
    | none => none
  | _, _ => none

def tick (program : L.Fn → Routine L) (s : World L) : Option (World L) :=
  match s.native with
  | [] => none
  | ⟨_, .awaitSuspend⟩ :: rest => some { s with native := rest }
  | ⟨_, .finalSuspend⟩ :: rest => some { s with native := rest }
  | ⟨handle, .body⟩ :: rest =>
    match s.frames handle with
    | none => none
    | some frame =>
      match frame.point, frame.body with
      | some (.await child), some body => s.awaitResume program handle frame child body
      | none, some body =>
        match body.turn with
        | .goes next => some (s.setFrame handle { frame with body := some next })
        | .waits event _ =>
          some { s.setFrame handle { frame with point := some (.wait event) } with native := rest }
        | .calls fn env _ => s.coAwait program handle frame rest fn env
        | .ends flow => s.finish program handle frame rest flow
      | _, _ => none

def spawn (program : L.Fn → Routine L) (fn : L.Fn) (env : L.Env) (s : World L) :
    Option (World L) :=
  let spawned : World L :=
    { s.create program s.next fn env with tasks := s.tasks ++ [⟨s.next, fn, env⟩] }
  spawned.resume s.next

def deliver (handle : Handle) (reply : L.Reply) (s : World L) : Option (World L) :=
  match s.frames handle with
  | some frame =>
    match frame.point, frame.body with
    | some (.wait _), some body =>
      match body.turn with
      | .waits _ resume =>
        some { s.setFrame handle { frame with point := none, body := some (resume reply) } with
          native := [⟨handle, .body⟩]
          delivered := Function.update s.delivered frame.task (s.delivered frame.task ++ [reply]) }
      | _ => none
    | _, _ => none
  | none => none

end World

inductive Act (L : Lang) where
  | spawn (fn : L.Fn) (env : L.Env)
  | deliver (handle : Handle) (reply : L.Reply)
  | tick

/-- The loop spawns and delivers events only when no call of `resume()` is active. -/
def step (program : L.Fn → Routine L) (s : World L) : Act L → Option (World L)
  | .spawn fn env => if s.native = [] then s.spawn program fn env else none
  | .deliver handle reply => if s.native = [] then s.deliver handle reply else none
  | .tick => s.tick program

def World.boot (L : Lang) : World L where
  frames _ := none
  next := 0
  native := []
  tasks := []
  delivered _ := []
  awaited := []
  finished := []
  resumed := []

def machine (program : L.Fn → Routine L) : Transition.Machine (World L) (Act L) where
  start s := s = .boot L
  step := step program

end CoroEpoll.Task
