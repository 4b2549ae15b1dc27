import CoroEpoll.Library.ThreadOwner
import CoroEpoll.ThreadPool.Execution
import CoroEpoll.EventLoop.Wakeup

/-! The constructors of `ThreadPool` and `WorkerGroup`, which start threads, and their
destructors, which stop and join them.
-/

set_option autoImplicit false

namespace CoroEpoll

open ThreadOwner (Class)

namespace ThreadPool

inductive Member where
  | mutex | condition | stopped | tasks | threads
  deriving DecidableEq

variable {n : Nat} {κ T : Type}

inductive Section (n : Nat) (κ : Type) where
  | lock
  | run
  | leave (woken : Option (Thread n κ))
  | spurious

def Section.act (thread : Thread n κ) : Section n κ → Act n κ T
  | .lock => .lock thread
  | .run => .run thread
  | .leave woken => .leave thread woken
  | .spurious => .spurious thread

inductive WorkerAct (n : Nat) (κ : Type) where
  | loop
  | inSection (step : Section n κ)
  | finish

def WorkerAct.act (w : Fin n) : WorkerAct n κ → Act n κ T
  | .loop => .loop w
  | .inSection step => step.act (.worker w)
  | .finish => .finish w

inductive UserAct (n : Nat) (κ T : Type) where
  | enqueue (task : T)
  | stop
  | inSection (step : Section n (Option κ))

def UserAct.act (id : κ) : UserAct n κ T → Act n (Option κ) T
  | .enqueue task => .enqueue (some id) task
  | .stop => .stop (some id)
  | .inSection step => step.act (.caller (some id))

inductive StopAct (n : Nat) (κ : Type) where
  | call
  | inSection (step : Section n (Option κ))

/-- A pool with its users and its owner, who is the caller without a name. -/
structure Owned (n : Nat) (κ T : Type) where
  pool : World n (Option κ) T
  /-- the owner has called `stop` -/
  called : Bool

variable [DecidableEq κ]

namespace Owned

def progress (s : Owned n κ T) (i : Nat) (a : WorkerAct n (Option κ)) : Option (Owned n κ T) :=
  if below : i < n then (step s.pool (a.act ⟨i, below⟩)).map fun pool => { s with pool } else none

def returned (s : Owned n κ T) (i : Nat) : Bool :=
  if below : i < n then
    match s.pool.workers ⟨i, below⟩ with
    | .exited => true
    | .looping | .running _ => false
  else false

def stop (s : Owned n κ T) : StopAct n κ → Option (Owned n κ T)
  | .call =>
    if s.called then none else (step s.pool (.stop none)).map fun pool => ⟨pool, true⟩
  | .inSection a => (step s.pool (a.act (.caller none))).map fun pool => { s with pool }

def stopDone (s : Owned n κ T) : Bool :=
  s.called &&
    match s.pool.monitor.phase (.caller none) with
    | .outside => true
    | _ => false

def use (s : Owned n κ T) (a : κ × UserAct n κ T) : Option (Owned n κ T) :=
  (step s.pool (a.2.act a.1)).map fun pool => { s with pool }

end Owned

def owned (n : Nat) (κ T : Type) [DecidableEq κ] :
    Class Member (Owned n κ T) (WorkerAct n (Option κ)) (StopAct n κ) (κ × UserAct n κ T) where
  members := [.mutex, .condition, .stopped, .tasks, .threads]
  threads := .threads
  progress := Owned.progress
  returned := Owned.returned
  stop := Owned.stop
  stopDone := Owned.stopDone
  use := Owned.use
  told s _ := s.pool.stopped

def Initial (s : Owned n κ T) : Prop :=
  World.construct n (Option κ) T = .ok s.pool ∧ s.called = false

/-- A pool from the beginning of its constructor to the end of its destructor. -/
abbrev lifetime (n : Nat) (κ T ε : Type) [DecidableEq κ] :
    Transition.Machine (ThreadOwner.World Member (Owned n κ T) ε)
      (ThreadOwner.Act (WorkerAct n (Option κ)) (StopAct n κ) (κ × UserAct n κ T) ε) :=
  ThreadOwner.machine (owned n κ T) n Initial

/-! ## What the steps of a pool keep -/

theorem stopped_step {s t : World n κ T} {a : Act n κ T} (step : step s a = some t)
    (stopped : s.stopped = true) : t.stopped = true := by
  cases step_moves step with
  | inner a b monitor allows move => exact stopped_stays move stopped
  | stop id monitor move => exact stopped_stays move stopped
  | leave thread woken monitor move => exact stopped_stays move stopped
  | finish w task running => exact stopped

theorem exited_step {s t : World n κ T} {a : Act n κ T} (inv : Inv s) (step : step s a = some t)
    {w : Fin n} (exited : s.workers w = .exited) : t.workers w = .exited := by
  cases step_moves step with
  | inner a b monitor allows move => exact exited
  | stop id monitor move => exact exited
  | leave thread woken monitor move =>
    cases move with
    | leave _ result _ threads leaving wakes =>
      have other : thread ≠ .worker w := by
        intro same
        have outside := inv.away w (by simp [exited])
        rw [← same, leaving] at outside
        cases outside
      exact (inv.proceed_ne leaving other).trans exited
  | finish w' task running =>
    have other : w ≠ w' := by
      intro same
      rw [same, running] at exited
      cases exited
    exact (Function.update_of_ne other ..).trans exited

/-- The pool is in a state of its own runs, and the owner's call of `stop` has set the flag
unless it is still on its way. -/
structure Good (s : Owned n κ T) : Prop where
  reached : (machine n (Option κ) T).Reachable s.pool
  stopping : s.called = true → s.pool.stopped = true ∨
    s.pool.monitor.phase (.caller none) = .entering .stop ∨
      s.pool.monitor.phase (.caller none) = .inside .stop

theorem Good.next {s : Owned n κ T} (good : Good s) {a : Act n (Option κ) T}
    {pool : World n (Option κ) T} (step : step s.pool a = some pool) :
    (machine n (Option κ) T).Reachable pool :=
  good.reached.next trivial step

theorem Good.step {s : Owned n κ T} (good : Good s) {a : Act n (Option κ) T}
    {pool : World n (Option κ) T} (step : step s.pool a = some pool) :
    Good { s with pool } := by
  refine ⟨good.next step, fun called => ?_⟩
  rcases good.stopping called with stopped | phase
  · exact Or.inl (stopped_step step stopped)
  · cases step_moves step with
    | inner a b monitor allows move => exact stopping_goes move phase
    | stop id monitor move => exact stopping_goes move phase
    | leave thread woken monitor move => exact stopping_goes move phase
    | finish w task running => exact Or.inr phase

theorem Initial.good {s : Owned n κ T} (initial : Initial s) : Good s :=
  ⟨.start initial.1, fun called => absurd called (by simp [initial.2])⟩

theorem owned_lawful (n : Nat) (κ T : Type) [DecidableEq κ] : (owned n κ T).Lawful n Good where
  threads_mem := by simp [owned]
  progress_good s i a t good progress := by
    simp only [owned, Owned.progress] at progress
    split at progress
    · obtain ⟨pool, step, rfl⟩ := Option.map_eq_some_iff.mp progress
      exact good.step step
    · cases progress
  stop_good s b t good stop := by
    cases b with
    | call =>
      simp only [owned, Owned.stop] at stop
      split at stop
      · cases stop
      · obtain ⟨pool, step, rfl⟩ := Option.map_eq_some_iff.mp stop
        refine ⟨good.next step, fun _ => Or.inr (Or.inl ?_)⟩
        obtain ⟨_, through, rfl⟩ := Option.map_eq_some_iff.mp step
        obtain ⟨monitor, move, rfl⟩ := World.through_eq_some through
        cases move
        exact Monitor.World.phase_move_self ..
    | inSection a =>
      obtain ⟨pool, step, rfl⟩ := Option.map_eq_some_iff.mp stop
      exact good.step step
  use_good s c t good use := by
    obtain ⟨pool, step, rfl⟩ := Option.map_eq_some_iff.mp use
    exact good.step step
  progress_told s i a t j good progress told := by
    simp only [owned, Owned.progress] at progress
    split at progress
    · obtain ⟨pool, step, rfl⟩ := Option.map_eq_some_iff.mp progress
      exact stopped_step step told
    · cases progress
  progress_returned s i a t j good progress returned := by
    simp only [owned, Owned.progress] at progress
    split at progress
    · obtain ⟨pool, step, rfl⟩ := Option.map_eq_some_iff.mp progress
      simp only [owned, Owned.returned] at returned ⊢
      split at returned
      · rename_i bound
        have exited : s.pool.workers ⟨j, bound⟩ = .exited := by
          split at returned
          · assumption
          · cases returned
          · cases returned
        simp [bound, exited_step (reachable_inv good.reached) step exited]
      · cases returned
    · cases progress
  stop_told s j good done below := by
    simp only [owned, Owned.stopDone, Bool.and_eq_true] at done
    obtain ⟨called, outside⟩ := done
    rcases good.stopping called with stopped | entering | inside
    · exact stopped
    · simp [entering] at outside
    · simp [inside] at outside

end ThreadPool

namespace Run

variable {Cb : Type}

def Act.agent : Act Cb → Option Agent
  | .push who _ | .flag who | .write who => some who
  | _ => none

theorem stopped_step {s t : World Cb} {a : Act Cb} (step : step s a = some t)
    (stopped : s.stopped = true) : t.stopped = true := by
  cases step_move step with
  | flag => rfl
  | compact site => exact (compact_flags site s).1 ▸ stopped
  | _ => exact stopped

theorem op_step {s t : World Cb} {a : Act Cb} (step : step s a = some t) {who : Agent}
    (other : a.agent ≠ some who) : t.op who = s.op who := by
  have apart : ∀ {actor : Agent}, some actor ≠ some who → who ≠ actor :=
    fun different same => different (congrArg some same.symm)
  cases step_move step with
  | push actor task may free => exact Function.update_of_ne (apart other) ..
  | flag actor may => exact Function.update_of_ne (apart other) ..
  | write actor op going => exact Function.update_of_ne (apart other) ..
  | compact site => exact congrFun (compact_flags site s).2.2 who
  | _ => rfl

/-- `run()` has been left, normally or by an `std::exception`. -/
def World.ran (s : World Cb) : Bool :=
  match s.phase with
  | .exited | .died (.std _) => true
  | _ => false

theorem ran_step {s t : World Cb} {a : Act Cb} (step : step s a = some t) (ran : s.ran = true) :
    t.ran = true := by
  cases step_move step with
  | push | flag | write | spawn | finish | emptied => exact ran
  | _ => simp_all [World.ran]

end Run

namespace WorkerGroup

open Run (Agent)

inductive Member where
  | loops | threads | nextIndex
  deriving DecidableEq

variable {n : Nat} {Cb : Type}

structure Group (n : Nat) (Cb : Type) where
  /-- `loops_` -/
  loops : Fin n → Run.World Cb
  /-- number of loops that the owner's call of `stop` has stopped -/
  stops : Nat

def construct (workerCount : Nat) (Cb : Type) : Except StdException (Group workerCount Cb) :=
  if workerCount = 0 then
    .error (.invalidArgument "worker_count must be greater than zero")
  else .ok ⟨fun _ => Run.boot Cb, 0⟩

inductive WorkerAct (Cb : Type) where
  /-- a step of the worker's own loop -/
  | own (a : Run.Act Cb)
  /-- a step of `post` or `stop` of another loop, called by a callback or a coroutine -/
  | other (j : Nat) (a : Run.Act Cb)

inductive StopAct where
  | flag | write

def owner : Agent := .thread 0

def worker (i : Nat) : Agent := .thread (i + 1)

def user (n id : Nat) : Agent := .thread (n + 1 + id)

namespace Group

def onLoop (s : Group n Cb) (i : Nat) (a : Run.Act Cb) : Option (Group n Cb) :=
  if below : i < n then
    (Run.step (s.loops ⟨i, below⟩) a).map fun loop =>
      { s with loops := Function.update s.loops ⟨i, below⟩ loop }
  else none

def progress (s : Group n Cb) (i : Nat) : WorkerAct Cb → Option (Group n Cb)
  | .own a => if a.agent = none ∨ a.agent = some .loop then s.onLoop i a else none
  | .other j a => if a.agent = some (worker i) then s.onLoop j a else none

/-- The function of the thread catches an `std::exception` that leaves `run()`; any other one
ends the process. -/
def returned (s : Group n Cb) (i : Nat) : Bool :=
  if below : i < n then (s.loops ⟨i, below⟩).ran else false

def stop (s : Group n Cb) : StopAct → Option (Group n Cb)
  | .flag => s.onLoop s.stops (.flag owner)
  | .write => (s.onLoop s.stops (.write owner)).map fun s => { s with stops := s.stops + 1 }

def stopDone (s : Group n Cb) : Bool := s.stops == n

def use (s : Group n Cb) (c : Nat × Nat × Run.Act Cb) : Option (Group n Cb) :=
  if c.2.2.agent = some (user n c.1) then s.onLoop c.2.1 c.2.2 else none

def told (s : Group n Cb) (i : Nat) : Bool :=
  if below : i < n then (s.loops ⟨i, below⟩).stopped else false

end Group

def owned (n : Nat) (Cb : Type) :
    Class Member (Group n Cb) (WorkerAct Cb) StopAct (Nat × Nat × Run.Act Cb) where
  members := [.loops, .threads, .nextIndex]
  threads := .threads
  progress := Group.progress
  returned := Group.returned
  stop := Group.stop
  stopDone := Group.stopDone
  use := Group.use
  told := Group.told

abbrev lifetime (n : Nat) (Cb ε : Type) :
    Transition.Machine (ThreadOwner.World Member (Group n Cb) ε)
      (ThreadOwner.Act (WorkerAct Cb) StopAct (Nat × Nat × Run.Act Cb) ε) :=
  ThreadOwner.machine (owned n Cb) n fun s => construct n Cb = .ok s

/-! ## What the steps of a group keep -/

theorem onLoop_eq_some {s t : Group n Cb} {i : Nat} {a : Run.Act Cb} (moved : s.onLoop i a = some t) :
    ∃ (below : i < n) (loop : Run.World Cb), Run.step (s.loops ⟨i, below⟩) a = some loop ∧
      t = { s with loops := Function.update s.loops ⟨i, below⟩ loop } := by
  unfold Group.onLoop at moved
  split at moved
  · rename_i below
    obtain ⟨loop, step, rfl⟩ := Option.map_eq_some_iff.mp moved
    exact ⟨below, loop, step, rfl⟩
  · cases moved

/-- What every step of a loop keeps, a step on one of the loops keeps of all. -/
theorem onLoop_keeps {s t : Group n Cb} {i : Nat} {a : Run.Act Cb} (moved : s.onLoop i a = some t)
    {P : Run.World Cb → Prop}
    (keeps : ∀ loop loop', P loop → Run.step loop a = some loop' → P loop') {j : Fin n}
    (held : P (s.loops j)) : P (t.loops j) := by
  obtain ⟨below, loop, step, rfl⟩ := onLoop_eq_some moved
  by_cases same : j = ⟨i, below⟩
  · subst j
    simpa using keeps _ loop held step
  · simpa [Function.update_of_ne same] using held

theorem onLoop_stopped {s t : Group n Cb} {i : Nat} {a : Run.Act Cb}
    (moved : s.onLoop i a = some t) {j : Fin n} (stopped : (s.loops j).stopped = true) :
    (t.loops j).stopped = true :=
  onLoop_keeps moved (P := fun loop => loop.stopped = true)
    (fun _ _ stopped step => Run.stopped_step step stopped) stopped

/-- The owner's call of `stop` has set the flags of the loops that it has passed, and of the
one it is at once it has begun with it. -/
structure Good (s : Group n Cb) : Prop where
  passed : ∀ i : Fin n, i.val < s.stops → (s.loops i).stopped = true
  flagged : ∀ i, (s.loops i).op owner ≠ none → (s.loops i).stopped = true

theorem construct_good {s : Group n Cb} (constructed : construct n Cb = .ok s) : Good s := by
  unfold construct at constructed
  split at constructed
  · cases constructed
  · cases constructed
    exact ⟨fun i below => absurd below (Nat.not_lt_zero _), fun i going => absurd rfl going⟩

theorem Good.onLoop {s t : Group n Cb} (good : Good s) {i : Nat} {a : Run.Act Cb}
    (moved : s.onLoop i a = some t)
    (flags : ∀ loop loop', (loop.op owner ≠ none → loop.stopped = true) →
      Run.step loop a = some loop' → loop'.op owner ≠ none → loop'.stopped = true) : Good t := by
  have stops : t.stops = s.stops := by
    obtain ⟨_, _, _, rfl⟩ := onLoop_eq_some moved
    rfl
  constructor
  · intro j passed
    rw [stops] at passed
    exact onLoop_stopped moved (good.passed j passed)
  · intro j
    exact onLoop_keeps moved (P := fun loop => loop.op owner ≠ none → loop.stopped = true) flags
      (good.flagged j)

theorem Good.others {s t : Group n Cb} (good : Good s) {i : Nat} {a : Run.Act Cb}
    (moved : s.onLoop i a = some t) (other : a.agent ≠ some owner) : Good t := by
  apply good.onLoop moved
  intro loop loop' before step going
  rw [Run.op_step step other] at going
  exact Run.stopped_step step (before going)

theorem progress_moves {s t : Group n Cb} {i : Nat} {a : WorkerAct Cb}
    (progress : s.progress i a = some t) :
    ∃ j b, s.onLoop j b = some t ∧ b.agent ≠ some owner := by
  cases a with
  | own a =>
    obtain ⟨own, moved⟩ := Option.ite_none_right_eq_some.mp progress
    refine ⟨i, a, moved, ?_⟩
    rcases own with nobody | loop
    · simp [nobody]
    · simp [loop, owner]
  | other j a =>
    obtain ⟨agent, moved⟩ := Option.ite_none_right_eq_some.mp progress
    exact ⟨j, a, moved, by simp [agent, owner, worker]⟩

theorem owned_lawful (n : Nat) (Cb : Type) : (owned n Cb).Lawful n Good where
  threads_mem := by simp [owned]
  progress_good s i a t good progress := by
    obtain ⟨j, b, moved, other⟩ := progress_moves progress
    exact good.others moved other
  stop_good s b t good stop := by
    cases b with
    | flag =>
      apply good.onLoop stop
      intro loop loop' _ step _
      cases Run.step_move step
      rfl
    | write =>
      obtain ⟨u, moved, rfl⟩ := Option.map_eq_some_iff.mp stop
      have after : Good u := by
        apply good.onLoop moved
        intro loop loop' _ step going
        cases Run.step_move step with
        | write _ op begun =>
          have ended : (loop.write owner op).op owner = none := by simp [Run.World.write]
          exact absurd ended going
      refine ⟨fun i passed => ?_, after.flagged⟩
      by_cases last : i.val = s.stops
      · obtain ⟨below, loop, step, _⟩ := onLoop_eq_some moved
        have here : i = ⟨s.stops, below⟩ := Fin.ext last
        apply onLoop_stopped moved
        rw [here]
        apply good.flagged
        cases Run.step_move step with
        | write _ op begun => simp [begun]
      · have same : u.stops = s.stops := by
          obtain ⟨_, _, _, rfl⟩ := onLoop_eq_some moved
          rfl
        apply after.passed i
        dsimp only at passed
        omega
  use_good s c t good use := by
    obtain ⟨agent, moved⟩ := Option.ite_none_right_eq_some.mp use
    refine good.others moved ?_
    rw [agent]
    simp only [user, owner, ne_eq, Option.some.injEq, Run.Agent.thread.injEq]
    omega
  progress_told s i a t j good progress told := by
    obtain ⟨k, b, moved, _⟩ := progress_moves progress
    simp only [owned, Group.told] at told ⊢
    split at told
    · rename_i below
      rw [dif_pos below]
      exact onLoop_stopped moved told
    · cases told
  progress_returned s i a t j good progress returned := by
    obtain ⟨k, b, moved, _⟩ := progress_moves progress
    simp only [owned, Group.returned] at returned ⊢
    split at returned
    · rename_i below
      rw [dif_pos below]
      exact onLoop_keeps moved (P := fun loop => loop.ran = true)
        (fun _ _ ran step => Run.ran_step step ran) returned
    · cases returned
  stop_told s j good done below := by
    simp only [owned, Group.stopDone, beq_iff_eq] at done
    simp only [owned, Group.told, dif_pos below]
    exact good.passed ⟨j, below⟩ (by rw [done]; exact below)

end WorkerGroup

/-! ## What the constructors leave -/

theorem destroyed_clean {n : Nat} {κ T Cb ε : Type} [DecidableEq κ] :
    (∀ s, (ThreadPool.lifetime n κ T ε).Reachable s → s.phase = .gone none →
      ThreadOwner.Clean (ThreadPool.owned n κ T) none s) ∧
    (∀ s, (WorkerGroup.lifetime n Cb ε).Reachable s → s.phase = .gone none →
      ThreadOwner.Clean (WorkerGroup.owned n Cb) none s) := by
  constructor
  · intro s reached gone
    exact (ThreadOwner.reachable_inv (ThreadPool.owned_lawful n κ T)
      (fun _ => ThreadPool.Initial.good) reached).destroyed_clean gone
  · intro s reached gone
    exact (ThreadOwner.reachable_inv (WorkerGroup.owned_lawful n Cb)
      (fun _ => WorkerGroup.construct_good) reached).destroyed_clean gone

/-- When the creation of a thread throws, the constructors of `ThreadPool` and `WorkerGroup`
leave with the exception after stopping and joining the threads that run exactly if there are
none; whatever these threads have done, and whatever they do meanwhile. -/
theorem startup_cleansIf {n k : Nat} {κ T Cb ε : Type} [DecidableEq κ] (below : k < n) (error : ε) :
    (∀ s, (ThreadPool.lifetime n κ T ε).Reachable s → s.phase = .starting → s.created = k →
      ThreadOwner.CleansIf (ThreadPool.owned n κ T) n ThreadPool.Initial error (k = 0) s) ∧
    (∀ s, (WorkerGroup.lifetime n Cb ε).Reachable s → s.phase = .starting → s.created = k →
      ThreadOwner.CleansIf (WorkerGroup.owned n Cb) n (fun s => WorkerGroup.construct n Cb = .ok s)
        error (k = 0) s) := by
  constructor
  · rintro s reached starting rfl
    have lawful := ThreadPool.owned_lawful n κ T
    exact (ThreadOwner.reachable_inv lawful (fun _ => ThreadPool.Initial.good) reached).cleansIf
      lawful starting below error
  · rintro s reached starting rfl
    have lawful := WorkerGroup.owned_lawful n Cb
    exact (ThreadOwner.reachable_inv lawful (fun _ => WorkerGroup.construct_good) reached).cleansIf
      lawful starting below error

def outOfThreads : Exception := .std (.systemError .EAGAIN "Resource temporarily unavailable")

def poolStart : ThreadOwner.World ThreadPool.Member (ThreadPool.Owned 2 Unit Unit) Exception :=
  .start (ThreadPool.owned 2 Unit Unit) ⟨.boot 2 (Option Unit) Unit, false⟩

def groupStart : ThreadOwner.World WorkerGroup.Member (WorkerGroup.Group 2 Unit) Exception :=
  .start (WorkerGroup.owned 2 Unit) ⟨fun _ => Run.boot Unit, 0⟩

theorem startup_cleansIf_second :
    (∃ s, (ThreadPool.lifetime 2 Unit Unit Exception).exec poolStart [.create] = some s ∧
      ThreadOwner.CleansIf (ThreadPool.owned 2 Unit Unit) 2 ThreadPool.Initial outOfThreads
        (1 = 0) s) ∧
    ∃ s, (WorkerGroup.lifetime 2 Unit Exception).exec groupStart [.create] = some s ∧
      ThreadOwner.CleansIf (WorkerGroup.owned 2 Unit) 2
        (fun s => WorkerGroup.construct 2 Unit = .ok s) outOfThreads (1 = 0) s := by
  have cleans := @startup_cleansIf 2 1 Unit Unit Unit Exception _ (by decide) outOfThreads
  constructor
  · refine ⟨poolStart.create, rfl, cleans.1 _ ?_ rfl rfl⟩
    exact .next (a := .create) (.start ⟨_, ⟨rfl, rfl⟩, rfl⟩) trivial rfl
  · refine ⟨groupStart.create, rfl, cleans.2 _ ?_ rfl rfl⟩
    exact .next (a := .create) (.start ⟨_, rfl, rfl⟩) trivial rfl

/-- The second thread cannot be created while the first one is at work: the process is
terminated, where a clean-up was to follow. -/
theorem second_thread_terminates :
    (¬ ∀ s, (ThreadPool.lifetime 2 Unit Unit Exception).Reachable s → s.phase = .starting →
      s.created = 1 → ThreadOwner.CleansIf (ThreadPool.owned 2 Unit Unit) 2 ThreadPool.Initial
        outOfThreads True s) ∧
    ¬ ∀ s, (WorkerGroup.lifetime 2 Unit Exception).Reachable s → s.phase = .starting →
      s.created = 1 → ThreadOwner.CleansIf (WorkerGroup.owned 2 Unit) 2
        (fun s => WorkerGroup.construct 2 Unit = .ok s) outOfThreads True s := by
  constructor
  · intro cleans
    have working : ((ThreadPool.lifetime 2 Unit Unit Exception).exec poolStart
        [.create, .progress 0 .loop]).map (fun s => (s.phase, s.created)) = some (.starting, 1) := rfl
    obtain ⟨s, replay, now⟩ := Option.map_eq_some_iff.mp working
    simp only [Prod.mk.injEq] at now
    have ends : ((ThreadPool.lifetime 2 Unit Unit Exception).exec poolStart
        ([.create, .progress 0 .loop] ++ [.fail outOfThreads, .unwind])).map (·.phase) =
          some .terminated := rfl
    obtain ⟨u, whole, terminated⟩ := Option.map_eq_some_iff.mp ends
    refine ThreadOwner.not_cleansIf_of_terminated replay whole terminated (cleans s ?_ now.1 now.2)
    exact .replay (.start ⟨_, ⟨rfl, rfl⟩, rfl⟩) replay
  · intro cleans
    have working : ((WorkerGroup.lifetime 2 Unit Exception).exec groupStart
        [.create, .progress 0 (.own .enter)]).map (fun s => (s.phase, s.created)) =
          some (.starting, 1) := rfl
    obtain ⟨s, replay, now⟩ := Option.map_eq_some_iff.mp working
    simp only [Prod.mk.injEq] at now
    have ends : ((WorkerGroup.lifetime 2 Unit Exception).exec groupStart
        ([.create, .progress 0 (.own .enter)] ++ [.fail outOfThreads, .unwind, .unwind])).map
          (·.phase) = some .terminated := rfl
    obtain ⟨u, whole, terminated⟩ := Option.map_eq_some_iff.mp ends
    refine ThreadOwner.not_cleansIf_of_terminated replay whole terminated (cleans s ?_ now.1 now.2)
    exact .replay (.start ⟨_, rfl, rfl⟩) replay

end CoroEpoll
