import CoroEpoll.Library.Transition
import CoroEpoll.Task.Promise

/-! `Task` objects in any code: they are made, moved, started with `resume()`, awaited and
destroyed in any order, by coroutines whose bodies are arbitrary programs and by code outside.
-/

set_option autoImplicit false

namespace CoroEpoll.Objects

open Routines
open CoroEpoll.Task (Handle Promise Resume Resumed)

variable {L : Lang}

/-- What any code may do with the `Task` objects, which it knows by their addresses. -/
inductive Use (L : Lang) where
  /-- `object = f(…)`, where the body of `f` starts with these locals -/
  | makes (object : Nat) (isVoid : Bool) (env : L.Env)
  /-- `target = std::move(source)` -/
  | moves (target source : Nat)
  /-- `~Task` -/
  | drops (object : Nat)
  /-- `object.resume()` -/
  | resumes (object : Nat)
  /-- `remove` of the descriptor that a wait is on -/
  | withdraws (serial : Nat)

inductive Turn (L : Lang) where
  | goes (env : L.Env)
  | uses (use : Use L) (env : L.Env)
  /-- `co_await object` -/
  | awaits (object : Nat) (resume : Outcome L → L.Env)
  /-- the co_await of an event; `early` is what its `await_resume` gives a coroutine that is
  resumed without it, `none` where that is undefined -/
  | waits (early : Option L.Reply) (resume : L.Reply → L.Env)
  /-- the end of the body; a `Task<void>` has no use for the value -/
  | returns (value : L.Value)
  | throws (error : L.Error)

structure Program (L : Lang) where
  /-- the next turn of a body, with what the system answers it -/
  turn : L.Reply → L.Env → Turn L
  /-- what a move leaves behind -/
  moved : L.Value → L.Value

inductive Point (L : Lang) where
  | initial (env : L.Env)
  | running (env : L.Env)
  | await (child : Handle) (resume : Outcome L → L.Env)
  | wait (serial : Nat) (early : Option L.Reply) (resume : L.Reply → L.Env)
  | final

structure Frame (L : Lang) where
  isVoid : Bool
  promise : Promise L
  point : Point L

namespace Frame

def done (frame : Frame L) : Bool :=
  match frame.point with
  | .final => true
  | _ => false

def leave (frame : Frame L) : Except L.Error L.Value → Promise L
  | .ok value => if frame.isVoid then frame.promise.returnVoid else frame.promise.returnValue value
  | .error error => frame.promise.unhandledException error

def outcome (frame : Frame L) : Except L.Error L.Value → Outcome L
  | .ok value => .returned (if frame.isVoid then none else some value)
  | .error error => .threw error

/-- What `await_resume` gives; `none` where it reads a value that is absent. -/
def result (frame : Frame L) : Option (Outcome L) :=
  match frame.promise.exception with
  | some error => some (.threw error)
  | none =>
    if frame.isVoid then some (.returned none)
    else frame.promise.value.map fun value => .returned (some value)

def taken (program : Program L) (frame : Frame L) : Frame L :=
  match frame.promise.exception with
  | some _ => frame
  | none =>
    { frame with promise := { frame.promise with value := frame.promise.value.map program.moved } }

end Frame

inductive Caller (L : Lang) where
  /-- `Task::resume` or `Awaiter::await_suspend` -/
  | start
  | event (serial : Nat) (reply : L.Reply)
  /-- `FinalAwaiter::await_suspend` of a coroutine -/
  | final (child : Handle)

def Caller.reply (serial : Nat) (early : Option L.Reply) : Caller L → Option L.Reply
  | .event n reply => if n = serial then some reply else early
  | .start | .final _ => early

structure World (L : Lang) where
  /-- the handle in each object; an object that is not there is like an empty one -/
  objects : Nat → Option Handle
  frames : Handle → Option (Frame L)
  /-- the handle of the next frame -/
  next : Handle
  /-- the active calls of `resume()`, the innermost first -/
  native : List Resume
  /-- the coroutine that each event resumes, by the serial number of its wait -/
  waiting : Nat → Option Handle
  /-- number of waits so far -/
  waits : Nat
  /-- the waits that their events have ended -/
  ended : List Nat
  /-- the waits that no event is to end any more -/
  withdrawn : List Nat
  /-- every coroutine that was resumed in a wait or a co_await by something else -/
  disturbed : List Handle
  /-- every coroutine that has reached its final suspend, and how its body ended -/
  finished : List (Handle × Outcome L)
  /-- every `await_resume` so far, and what it gave its parent -/
  resumed : List (Resumed L)
  /-- undefined behaviour: an absent promise or value was read, or a coroutine was resumed or
  destroyed that is not suspended -/
  undefined : Bool

namespace World

def fail (s : World L) : World L := { s with undefined := true }

def setFrame (handle : Handle) (frame : Frame L) (s : World L) : World L :=
  { s with frames := Function.update s.frames handle (some frame) }

def enter (handle : Handle) (frame : Frame L) (env : L.Env) (s : World L) : World L :=
  { s.setFrame handle { frame with point := .running env } with
    native := ⟨handle, .body⟩ :: s.native }

def awaitResume (program : Program L) (parent : Handle) (frame : Frame L) (child : Option Handle)
    (resume : Outcome L → L.Env) (s : World L) : World L :=
  match child with
  | none => s.fail -- `handle.promise()` of a null handle
  | some child =>
    match s.frames child with
    | none => s.fail
    | some awaited =>
      match awaited.result with
      | none => s.fail
      | some outcome =>
        { (s.setFrame child (awaited.taken program)).setFrame parent
            { frame with point := .running (resume outcome) } with
          resumed := s.resumed ++ [⟨parent, child, outcome⟩] }

def disturb (handle : Handle) (s : World L) : World L :=
  { s with disturbed := s.disturbed ++ [handle] }

/-- The record of a call of `resume()` of a coroutine that is suspended at a point. -/
def note (caller : Caller L) (handle : Handle) (point : Point L) (s : World L) : World L :=
  match point, caller with
  | .initial _, _ => s
  | .wait serial _ _, .event n _ =>
    if n = serial then { s with ended := s.ended ++ [n] } else s.disturb handle
  | .await child _, .final c => if c = child then s else s.disturb handle
  | _, _ => s.disturb handle

/-- `handle.resume()`; it is undefined for a coroutine that runs or has finished. -/
def resume (program : Program L) (caller : Caller L) (handle : Handle) (s : World L) : World L :=
  match s.frames handle with
  | none => s.fail
  | some frame =>
    let s := s.note caller handle frame.point
    match frame.point with
    | .initial env => s.enter handle frame env
    | .wait serial early resume =>
      match caller.reply serial early with
      | some reply => s.enter handle frame (resume reply)
      | none => s.fail
    | .await child resume =>
      { s with native := ⟨handle, .body⟩ :: s.native }.awaitResume program handle frame
        (some child) resume
    | .running _ | .final => s.fail

/-- `handle.destroy()` in `Task::destroy` -/
def destroy (handle : Option Handle) (s : World L) : World L :=
  match handle with
  | none => s
  | some handle =>
    match s.frames handle with
    | none => s.fail
    | some frame =>
      match frame.point with
      | .running _ => s.fail
      | _ => { s with frames := Function.update s.frames handle none }

/-- `Task::operator=` or `~Task`: the object's coroutine goes. -/
def put (object : Nat) (handle : Option Handle) (s : World L) : World L :=
  let s := s.destroy (s.objects object)
  { s with objects := Function.update s.objects object handle }

/-- A call of a coroutine: `get_return_object` and `initial_suspend`. -/
def create (isVoid : Bool) (env : L.Env) (s : World L) : World L :=
  { s.setFrame s.next ⟨isVoid, .empty, .initial env⟩ with next := s.next + 1 }

/-- `!handle || handle.done()`, which `Task::done` and `await_ready` ask. -/
def awaitReady (handle : Option Handle) (s : World L) : Bool :=
  match handle.bind s.frames with
  | some frame => frame.done
  | none => true

/-- `EventLoop::remove` drops the handle that it finds. -/
def withdraw (serial : Nat) (s : World L) : World L :=
  match s.waiting serial with
  | some _ =>
    { s with
      waiting := Function.update s.waiting serial none
      withdrawn := s.withdrawn ++ [serial] }
  | none => s

def use (program : Program L) (s : World L) : Use L → World L
  | .makes object isVoid env => (s.create isVoid env).put object (some s.next)
  | .moves target source =>
    if target = source then s
    else
      let s := s.put target (s.objects source)
      { s with objects := Function.update s.objects source none }
  | .drops object => s.put object none
  | .resumes object =>
    match s.objects object with
    | some handle => if s.awaitReady (some handle) then s else s.resume program .start handle
    | none => s
  | .withdraws serial => s.withdraw serial

def awaitSuspend (program : Program L) (child parent : Handle) (s : World L) : World L :=
  match s.frames child with
  | none => s.fail
  | some frame =>
    (s.setFrame child
      { frame with promise := { frame.promise with continuation := some parent } }).resume
      program .start child

def coAwait (program : Program L) (parent : Handle) (frame : Frame L) (rest : List Resume)
    (object : Nat) (resume : Outcome L → L.Env) (s : World L) : World L :=
  let child := s.objects object
  if s.awaitReady child then s.awaitResume program parent frame child resume
  else
    match child with
    | some child =>
      { s.setFrame parent { frame with point := .await child resume } with
        native := ⟨parent, .awaitSuspend⟩ :: rest }.awaitSuspend program child parent
    | none => s.fail

/-- The end of a body, and `FinalAwaiter::await_suspend`. -/
def finish (program : Program L) (handle : Handle) (frame : Frame L) (rest : List Resume)
    (ending : Except L.Error L.Value) (s : World L) : World L :=
  let promise := frame.leave ending
  let s := s.setFrame handle { frame with promise, point := .final }
  let s := { s with finished := s.finished ++ [(handle, frame.outcome ending)] }
  match promise.continuation with
  | some continuation =>
    { s with native := ⟨handle, .finalSuspend⟩ :: rest }.resume program (.final handle) continuation
  | none => { s with native := rest }

def run (program : Program L) (handle : Handle) (frame : Frame L) (rest : List Resume)
    (s : World L) : Turn L → World L
  | .goes env => s.setFrame handle { frame with point := .running env }
  | .uses use env => (s.setFrame handle { frame with point := .running env }).use program use
  | .awaits object resume => s.coAwait program handle frame rest object resume
  | .waits early resume =>
    { s.setFrame handle { frame with point := .wait s.waits early resume } with
      native := rest
      waiting := Function.update s.waiting s.waits (some handle)
      waits := s.waits + 1 }
  | .returns value => s.finish program handle frame rest (.ok value)
  | .throws error => s.finish program handle frame rest (.error error)

def top (s : World L) : Option (Handle × Frame L × L.Env × List Resume) :=
  match s.native with
  | ⟨handle, .body⟩ :: rest =>
    match s.frames handle with
    | some frame =>
      match frame.point with
      | .running env => some (handle, frame, env, rest)
      | _ => none
    | none => none
  | _ => none

def tick (program : Program L) (answer : L.Reply) (s : World L) : Option (World L) :=
  match s.native with
  | [] => none
  | ⟨_, .awaitSuspend⟩ :: rest | ⟨_, .finalSuspend⟩ :: rest => some { s with native := rest }
  | ⟨_, .body⟩ :: _ =>
    s.top.map fun (handle, frame, env, rest) =>
      s.run program handle frame rest (program.turn answer env)

end World

inductive Act (L : Lang) where
  | tick (answer : L.Reply)
  /-- code outside the coroutines -/
  | uses (use : Use L)
  /-- the event of a wait comes -/
  | event (serial : Nat) (reply : L.Reply)

/-- The loop and code outside act when no call of `resume()` is active. -/
def step (program : Program L) (s : World L) (act : Act L) : Option (World L) :=
  if s.undefined then none
  else
    match act with
    | .tick answer => s.tick program answer
    | .uses use => if s.native = [] then some (s.use program use) else none
    | .event serial reply =>
      match s.native, s.waiting serial with
      | [], some handle =>
        some ({ s with waiting := Function.update s.waiting serial none }.resume program
          (.event serial reply) handle)
      | _, _ => none

def World.boot (L : Lang) : World L where
  objects _ := none
  frames _ := none
  next := 0
  native := []
  waiting _ := none
  waits := 0
  ended := []
  withdrawn := []
  disturbed := []
  finished := []
  resumed := []
  undefined := false

def machine (program : Program L) : Transition.Machine (World L) (Act L) where
  start s := s = .boot L
  step := step program

end CoroEpoll.Objects
