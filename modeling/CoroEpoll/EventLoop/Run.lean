import CoroEpoll.Library.Transition
import CoroEpoll.System.Interface
import Mathlib.Data.List.Basic

/-! `run()` with its callbacks, its tasks and the threads that call `post` and `stop`.

Every step is one of the atomic steps of the source. A callback, a coroutine and the code
before `run()` are opaque: they post, stop, spawn tasks and bring tasks to their end in
any order, and a callback may throw anything.
-/

set_option autoImplicit false

namespace CoroEpoll.Run

inductive Agent where
  | loop
  | thread (id : Nat)
  deriving DecidableEq, Repr

/-- What an agent has done that still has to call `wakeup`: it has pushed a callback and
holds the lock, or has set `stopped_`. -/
inductive Op where
  | pushed | flagged
  deriving DecidableEq, Repr

/-- The two places that drain the callbacks: the top of the loop of `run()`, and the
wakeup branch of `dispatch`. -/
inductive Site where
  | top | wakeup
  deriving DecidableEq, Repr

inductive Phase where
  /-- the program before it calls `run()` -/
  | setup
  /-- at `while (!stopped_)` -/
  | test
  /-- before the swap of `drain_pending_tasks` -/
  | swap (site : Site)
  /-- between two callbacks -/
  | drain (site : Site)
  | callback (site : Site)
  /-- before `compact_finished_tasks` -/
  | compact (site : Site)
  /-- in epoll_wait or kevent -/
  | wait
  /-- between two events -/
  | batch
  /-- in a coroutine resumed by `dispatch` -/
  | coroutine
  /-- in `drain_wakeup_fd` -/
  | read
  | exited
  /-- an exception has left `run()` -/
  | died (error : Exception)
  deriving DecidableEq, Repr

inductive Event where
  | wakeup | other
  deriving DecidableEq, Repr

inductive Branch where
  | linux | macOS
  deriving DecidableEq, Repr

def Branch.waitText : Branch → String
  | .linux => "epoll_wait"
  | .macOS => "kevent_wait"

inductive Outcome where
  | returned
  | failed (error : Exception)
  deriving DecidableEq, Repr

structure World (Cb : Type) where
  phase : Phase
  stopped : Bool
  op : Agent → Option Op
  mutex : Option Agent
  pending : List Cb
  /-- the queue that a drain has swapped out -/
  localTasks : List Cb
  /-- whether the wakeup descriptor is readable -/
  signaled : Bool
  events : List Event
  tasks : List Nat
  /-- `none` while a task has not ended -/
  outcome : Nat → Option Outcome
  /-- every callback pushed so far -/
  posted : List Cb
  /-- every callback called so far -/
  executed : List Cb
  spawned : List Nat
  /-- failed tasks met by a compaction -/
  seen : List Nat
  /-- failed tasks whose exception a compaction has logged -/
  handled : List Nat

inductive Act (Cb : Type) where
  | push (who : Agent) (task : Cb)
  | flag (who : Agent)
  | write (who : Agent)
  | spawn (task : Nat)
  | finish (task : Nat) (outcome : Outcome)
  | enter
  | test
  | swap
  | call
  | returned
  | threw (error : Exception)
  | drained
  | compact
  | wake (events : List Event)
  | interrupted
  | waitFailed (branch : Branch) (errno : Errno)
  | next
  | read
  | suspended
  deriving DecidableEq, Repr

/-- What a drain or compaction that throws leaves to: `run()` catches `std::exception` at
the top of its loop, and everything around `dispatch`. -/
def Site.escape (error : Exception) : Site → Phase
  | .top => if error.isStd then .wait else .died error
  | .wakeup => .batch

def Site.next : Site → Phase
  | .top => .wait
  | .wakeup => .batch

structure Scan where
  seen : List Nat
  handled : List Nat
  thrown : Option Exception
  deriving DecidableEq, Repr

/-- The first loop of `compact_finished_tasks`: it logs an `std::exception` and lets
anything else through. -/
def scan (outcome : Nat → Option Outcome) : List Nat → Scan
  | [] => ⟨[], [], none⟩
  | task :: rest =>
    match outcome task with
    | some (.failed (.foreign value)) => ⟨[task], [], some (.foreign value)⟩
    | some (.failed (.std _)) =>
      let later := scan outcome rest
      ⟨task :: later.seen, task :: later.handled, later.thrown⟩
    | some .returned | none => scan outcome rest

namespace World

variable {Cb : Type}

def code (s : World Cb) : Bool :=
  s.op .loop == none &&
    match s.phase with
    | .setup | .callback _ | .coroutine => true
    | _ => false

def mayAct (s : World Cb) : Agent → Bool
  | .loop => s.code
  | .thread id => s.op (.thread id) == none

def push (who : Agent) (task : Cb) (s : World Cb) : World Cb :=
  { s with
    pending := s.pending ++ [task]
    posted := s.posted ++ [task]
    op := Function.update s.op who (some .pushed)
    mutex := some who }

def flag (who : Agent) (s : World Cb) : World Cb :=
  { s with stopped := true, op := Function.update s.op who (some .flagged) }

/-- `wakeup`, and the end of the lock of `post`. A write that fails with EAGAIN finds the
descriptor readable. -/
def write (who : Agent) (op : Op) (s : World Cb) : World Cb :=
  { s with
    signaled := true
    op := Function.update s.op who none
    mutex := if op = .pushed then none else s.mutex }

def swap (site : Site) (s : World Cb) : World Cb :=
  { s with phase := .drain site, localTasks := s.pending, pending := [] }

def call (site : Site) (task : Cb) (rest : List Cb) (s : World Cb) : World Cb :=
  { s with phase := .callback site, localTasks := rest, executed := s.executed ++ [task] }

def throw (site : Site) (error : Exception) (s : World Cb) : World Cb :=
  { s with phase := site.escape error, localTasks := [] }

def compact (site : Site) (s : World Cb) : World Cb :=
  let found := scan s.outcome s.tasks
  let s := { s with seen := s.seen ++ found.seen, handled := s.handled ++ found.handled }
  match found.thrown with
  | some error => { s with phase := site.escape error }
  | none => { s with phase := site.next, tasks := s.tasks.filter fun task => (s.outcome task).isNone }

end World

variable {Cb : Type}

def step (s : World Cb) : Act Cb → Option (World Cb)
  | .push who task => if s.mayAct who ∧ s.mutex = none then some (s.push who task) else none
  | .flag who => if s.mayAct who then some (s.flag who) else none
  | .write who =>
    match s.op who with
    | some op => some (s.write who op)
    | none => none
  | .spawn task =>
    if s.code ∧ task ∉ s.spawned then
      some { s with tasks := s.tasks ++ [task], spawned := s.spawned ++ [task] }
    else none
  | .finish task outcome =>
    if s.code ∧ task ∈ s.tasks ∧ s.outcome task = none then
      some { s with outcome := Function.update s.outcome task (some outcome) }
    else none
  | .enter => if s.phase = .setup ∧ s.code then some { s with phase := .test } else none
  | .test =>
    if s.phase = .test then some { s with phase := if s.stopped then .exited else .swap .top }
    else none
  | .swap =>
    match s.phase with
    | .swap site => if s.mutex = none then some (s.swap site) else none
    | _ => none
  | .call =>
    match s.phase, s.localTasks with
    | .drain site, task :: rest => some (s.call site task rest)
    | _, _ => none
  | .returned =>
    match s.phase with
    | .callback site => if s.code then some { s with phase := .drain site } else none
    | _ => none
  | .threw error =>
    match s.phase with
    | .callback site => if s.code then some (s.throw site error) else none
    | _ => none
  | .drained =>
    match s.phase, s.localTasks with
    | .drain site, [] => some { s with phase := .compact site }
    | _, _ => none
  | .compact =>
    match s.phase with
    | .compact site => some (s.compact site)
    | _ => none
  | .wake events =>
    if s.phase = .wait ∧ events.length ≤ 128 ∧ (.wakeup ∈ events → s.signaled) then
      some { s with phase := .batch, events }
    else none
  | .interrupted => if s.phase = .wait then some { s with phase := .test } else none
  | .waitFailed branch errno =>
    if s.phase = .wait ∧ errno ≠ .EINTR then
      some { s with phase := .died (.std (.systemError errno branch.waitText)) }
    else none
  | .next =>
    if s.phase = .batch then
      match s.events with
      | [] => some { s with phase := .test }
      | .wakeup :: rest => some { s with phase := .read, events := rest }
      | .other :: rest => some { s with phase := .coroutine, events := rest }
    else none
  | .read =>
    if s.phase = .read then
      -- read() until it fails; eventfd and pipe are empty then
      if s.signaled then some { s with signaled := false } else some { s with phase := .swap .wakeup }
    else none
  | .suspended =>
    if s.phase = .coroutine ∧ s.code then some { s with phase := .batch } else none

structure Start (s : World Cb) : Prop where
  phase : s.phase = .setup
  stopped : s.stopped = false
  op : ∀ who, s.op who = none
  mutex : s.mutex = none
  pending : s.pending = []
  localTasks : s.localTasks = []
  events : s.events = []
  tasks : s.tasks = []
  outcome : ∀ task, s.outcome task = none
  posted : s.posted = []
  executed : s.executed = []
  spawned : s.spawned = []
  seen : s.seen = []
  handled : s.handled = []

def machine (Cb : Type) : Transition.Machine (World Cb) (Act Cb) where
  start := Start
  step := step

def boot (Cb : Type) : World Cb where
  phase := .setup
  stopped := false
  op _ := none
  mutex := none
  pending := []
  localTasks := []
  signaled := false
  events := []
  tasks := []
  outcome _ := none
  posted := []
  executed := []
  spawned := []
  seen := []
  handled := []

theorem boot_start (Cb : Type) : Start (boot Cb) := by
  constructor <;> intros <;> rfl

/-! ## What one step does -/

inductive Move (s : World Cb) : Act Cb → World Cb → Prop where
  | push (who : Agent) (task : Cb) : s.mayAct who = true → s.mutex = none →
      Move s (.push who task) (s.push who task)
  | flag (who : Agent) : s.mayAct who = true → Move s (.flag who) (s.flag who)
  | write (who : Agent) (op : Op) : s.op who = some op → Move s (.write who) (s.write who op)
  | spawn (task : Nat) : s.code = true → task ∉ s.spawned →
      Move s (.spawn task) { s with tasks := s.tasks ++ [task], spawned := s.spawned ++ [task] }
  | finish (task : Nat) (outcome : Outcome) : s.code = true → task ∈ s.tasks →
      s.outcome task = none →
      Move s (.finish task outcome)
        { s with outcome := Function.update s.outcome task (some outcome) }
  | enter : s.phase = .setup → s.code = true → Move s .enter { s with phase := .test }
  | stop : s.phase = .test → s.stopped = true → Move s .test { s with phase := .exited }
  | goOn : s.phase = .test → s.stopped = false → Move s .test { s with phase := .swap .top }
  | swap (site : Site) : s.phase = .swap site → s.mutex = none → Move s .swap (s.swap site)
  | call (site : Site) (task : Cb) (rest : List Cb) : s.phase = .drain site →
      s.localTasks = task :: rest → Move s .call (s.call site task rest)
  | returned (site : Site) : s.phase = .callback site → s.code = true →
      Move s .returned { s with phase := .drain site }
  | threw (site : Site) (error : Exception) : s.phase = .callback site → s.code = true →
      Move s (.threw error) (s.throw site error)
  | drained (site : Site) : s.phase = .drain site → s.localTasks = [] →
      Move s .drained { s with phase := .compact site }
  | compact (site : Site) : s.phase = .compact site → Move s .compact (s.compact site)
  | wake (events : List Event) : s.phase = .wait → (.wakeup ∈ events → s.signaled = true) →
      Move s (.wake events) { s with phase := .batch, events }
  | interrupted : s.phase = .wait → Move s .interrupted { s with phase := .test }
  | waitFailed (branch : Branch) (errno : Errno) : s.phase = .wait → errno ≠ .EINTR →
      Move s (.waitFailed branch errno)
        { s with phase := .died (.std (.systemError errno branch.waitText)) }
  | batchDone : s.phase = .batch → s.events = [] → Move s .next { s with phase := .test }
  | wakeup (rest : List Event) : s.phase = .batch → s.events = .wakeup :: rest →
      Move s .next { s with phase := .read, events := rest }
  | other (rest : List Event) : s.phase = .batch → s.events = .other :: rest →
      Move s .next { s with phase := .coroutine, events := rest }
  | emptied : s.phase = .read → s.signaled = true → Move s .read { s with signaled := false }
  | wasEmpty : s.phase = .read → s.signaled = false → Move s .read { s with phase := .swap .wakeup }
  | suspended : s.phase = .coroutine → s.code = true → Move s .suspended { s with phase := .batch }

theorem step_move {s t : World Cb} {a : Act Cb} (step : step s a = some t) : Move s a t := by
  cases a with
  | push who task =>
    simp only [Run.step, Option.ite_none_right_eq_some, Option.some.injEq] at step
    obtain ⟨⟨may, free⟩, rfl⟩ := step
    exact .push who task may free
  | flag who =>
    simp only [Run.step, Option.ite_none_right_eq_some, Option.some.injEq] at step
    obtain ⟨may, rfl⟩ := step
    exact .flag who may
  | write who =>
    simp only [Run.step] at step
    split at step
    · rename_i op found
      cases step
      exact .write who op found
    · cases step
  | spawn task =>
    simp only [Run.step, Option.ite_none_right_eq_some, Option.some.injEq] at step
    obtain ⟨⟨code, fresh⟩, rfl⟩ := step
    exact .spawn task code fresh
  | finish task outcome =>
    simp only [Run.step, Option.ite_none_right_eq_some, Option.some.injEq] at step
    obtain ⟨⟨code, member, running⟩, rfl⟩ := step
    exact .finish task outcome code member running
  | enter =>
    simp only [Run.step, Option.ite_none_right_eq_some, Option.some.injEq] at step
    obtain ⟨⟨phase, code⟩, rfl⟩ := step
    exact .enter phase code
  | test =>
    simp only [Run.step, Option.ite_none_right_eq_some, Option.some.injEq] at step
    obtain ⟨phase, rfl⟩ := step
    by_cases stopped : s.stopped = true
    · rw [if_pos stopped]
      exact .stop phase stopped
    · rw [if_neg stopped]
      exact .goOn phase (Bool.eq_false_iff.mpr stopped)
  | swap =>
    simp only [Run.step] at step
    split at step
    · rename_i site phase
      simp only [Option.ite_none_right_eq_some, Option.some.injEq] at step
      obtain ⟨free, rfl⟩ := step
      exact .swap site phase free
    · cases step
  | call =>
    simp only [Run.step] at step
    split at step
    · rename_i site task rest phase queue
      cases step
      exact .call site task rest phase queue
    · cases step
  | returned =>
    simp only [Run.step] at step
    split at step
    · rename_i site phase
      simp only [Option.ite_none_right_eq_some, Option.some.injEq] at step
      obtain ⟨code, rfl⟩ := step
      exact .returned site phase code
    · cases step
  | threw error =>
    simp only [Run.step] at step
    split at step
    · rename_i site phase
      simp only [Option.ite_none_right_eq_some, Option.some.injEq] at step
      obtain ⟨code, rfl⟩ := step
      exact .threw site error phase code
    · cases step
  | drained =>
    simp only [Run.step] at step
    split at step
    · rename_i site phase queue
      cases step
      exact .drained site phase queue
    · cases step
  | compact =>
    simp only [Run.step] at step
    split at step
    · rename_i site phase
      cases step
      exact .compact site phase
    · cases step
  | wake events =>
    simp only [Run.step, Option.ite_none_right_eq_some, Option.some.injEq] at step
    obtain ⟨⟨phase, _, readable⟩, rfl⟩ := step
    exact .wake events phase readable
  | interrupted =>
    simp only [Run.step, Option.ite_none_right_eq_some, Option.some.injEq] at step
    obtain ⟨phase, rfl⟩ := step
    exact .interrupted phase
  | waitFailed branch errno =>
    simp only [Run.step, Option.ite_none_right_eq_some, Option.some.injEq] at step
    obtain ⟨⟨phase, hard⟩, rfl⟩ := step
    exact .waitFailed branch errno phase hard
  | next =>
    simp only [Run.step, Option.ite_none_right_eq_some] at step
    obtain ⟨phase, step⟩ := step
    split at step
    · rename_i events
      cases step
      exact .batchDone phase events
    · rename_i rest events
      cases step
      exact .wakeup rest phase events
    · rename_i rest events
      cases step
      exact .other rest phase events
  | read =>
    simp only [Run.step, Option.ite_none_right_eq_some] at step
    obtain ⟨phase, step⟩ := step
    by_cases signaled : s.signaled = true
    · rw [if_pos signaled] at step
      cases step
      exact .emptied phase signaled
    · rw [if_neg signaled] at step
      cases step
      exact .wasEmpty phase (Bool.eq_false_iff.mpr signaled)
  | suspended =>
    simp only [Run.step, Option.ite_none_right_eq_some, Option.some.injEq] at step
    obtain ⟨⟨phase, code⟩, rfl⟩ := step
    exact .suspended phase code

end CoroEpoll.Run
