import CoroEpoll.Library.Monitor
import CoroEpoll.System.Interface
import Mathlib.Data.List.FinRange

/-! `ThreadPool`: workers that take tasks from a queue, and the threads that call `enqueue`
and `stop`.

A task is opaque; what it calls while it runs is called by threads of its own. `join`
returns when every worker has exited.
-/

set_option autoImplicit false

namespace CoroEpoll.ThreadPool

structure Pool (T : Type) where
  stopped : Bool
  tasks : List T

variable {T : Type}

namespace Pool

def enqueue (task : T) (pool : Pool T) : Except StdException (Pool T) :=
  if pool.stopped then .error (.runtimeError "cannot enqueue task on a stopped ThreadPool")
  else .ok { pool with tasks := pool.tasks ++ [task] }

def stop (pool : Pool T) : Pool T := { pool with stopped := true }

def ready (pool : Pool T) : Bool := pool.stopped || !pool.tasks.isEmpty

/-- `worker_loop` after its wait; `none` where it returns. -/
def take (pool : Pool T) : Option T × Pool T :=
  if pool.stopped && pool.tasks.isEmpty then (none, pool)
  else (pool.tasks.head?, { pool with tasks := pool.tasks.tail })

end Pool

inductive Call (T : Type) where
  | enqueue (task : T)
  | stop
  | take

inductive Result (T : Type) where
  | accepted (task : T)
  | refused (task : T) (error : StdException)
  | stopped
  | took (task : T)
  /-- `worker_loop` returns -/
  | returned

/-- The code under `mutex_`, and the notification after it. -/
def sections (T : Type) : Monitor.Sections (Call T) (Result T) (Pool T) where
  run
    | .enqueue task, pool =>
      match pool.enqueue task with
      | .ok pool => some (.accepted task, pool)
      | .error error => some (.refused task error, pool)
    | .stop, pool => some (.stopped, pool.stop)
    | .take, pool =>
      if pool.ready then
        match pool.take.1 with
        | some task => some (.took task, pool.take.2)
        | none => some (.returned, pool.take.2)
      else none
  signal
    | .accepted _ => .one
    | .stopped => .all
    | .refused .. | .took _ | .returned => .none

inductive Thread (n : Nat) (κ : Type) where
  | worker (w : Fin n)
  | caller (id : κ)
  deriving DecidableEq

inductive Worker (T : Type) where
  /-- in `worker_loop`, without a task -/
  | looping
  | running (task : T)
  | exited

structure World (n : Nat) (κ T : Type) where
  monitor : Monitor.World (Thread n κ) (Call T) (Result T) (Pool T)
  workers : Fin n → Worker T
  /-- the tasks that have returned -/
  executed : List T
  /-- whether `stop` has been called -/
  stopCalled : Bool

inductive Act (n : Nat) (κ T : Type) where
  | enqueue (caller : κ) (task : T)
  | stop (caller : κ)
  | loop (w : Fin n)
  | lock (thread : Thread n κ)
  | run (thread : Thread n κ)
  | leave (thread : Thread n κ) (woken : Option (Thread n κ))
  | spurious (thread : Thread n κ)
  /-- the task of a worker returns -/
  | finish (w : Fin n)

variable {n : Nat} {κ : Type}

namespace World

def stopped (s : World n κ T) : Bool := s.monitor.shared.stopped

def queue (s : World n κ T) : List T := s.monitor.shared.tasks

def proceed (s : World n κ T) : Thread n κ → Fin n → Worker T
  | .worker w =>
    match s.monitor.phase (.worker w) with
    | .leaving (.took task) => Function.update s.workers w (.running task)
    | .leaving .returned => Function.update s.workers w .exited
    | _ => s.workers
  | .caller _ => s.workers

def boot (n : Nat) (κ T : Type) : World n κ T where
  monitor := .boot (Thread n κ) (Call T) (Result T) ⟨false, []⟩
  workers _ := .looping
  executed := []
  stopCalled := false

def construct (threadCount : Nat) (κ T : Type) : Except StdException (World threadCount κ T) :=
  if threadCount = 0 then .error (.invalidArgument "thread_count must be greater than zero")
  else .ok (boot threadCount κ T)

end World

variable [DecidableEq κ]

def World.through (s : World n κ T) (a : Monitor.Act (Thread n κ) (Call T)) :
    Option (World n κ T) :=
  (Monitor.step (sections T) s.monitor a).map fun monitor => { s with monitor }

def step (s : World n κ T) : Act n κ T → Option (World n κ T)
  | .enqueue id task => s.through (.enter (.caller id) (.enqueue task))
  | .stop id =>
    (s.through (.enter (.caller id) .stop)).map fun s => { s with stopCalled := true }
  | .loop w =>
    match s.workers w with
    | .looping => s.through (.enter (.worker w) .take)
    | .running _ | .exited => none
  | .lock thread => s.through (.lock thread)
  | .run thread => s.through (.run thread)
  | .leave thread woken =>
    (s.through (.leave thread woken)).map fun after => { after with workers := s.proceed thread }
  | .spurious thread => s.through (.spurious thread)
  | .finish w =>
    match s.workers w with
    | .running task =>
      some { s with
        workers := Function.update s.workers w .looping
        executed := s.executed ++ [task] }
    | .looping | .exited => none

def machine (n : Nat) (κ T : Type) [DecidableEq κ] :
    Transition.Machine (World n κ T) (Act n κ T) where
  start s := World.construct n κ T = .ok s
  step := step

end CoroEpoll.ThreadPool
