import CoroEpoll.EventLoop.Failures

/-! Which tasks the loop holds while it sleeps. -/

set_option autoImplicit false

namespace CoroEpoll.Run

variable {Cb : Type}

/-- Whenever `run()` waits for events, `tasks_` has every task that was spawned and has not
ended, once, and no other. -/
def SleepsClean (s : World Cb) : Prop :=
  s.phase = .wait →
    s.tasks.Nodup ∧ ∀ task, task ∈ s.tasks ↔ task ∈ s.spawned ∧ s.outcome task = none

/-- A callback at the top of the loop that throws an `std::exception`, which skips the
compaction before the wait, finds no task ended. -/
def CompactsFirst (s : World Cb) : Act Cb → Prop
  | .threw error => s.phase = .callback .top → error.isStd = true →
      ∀ task ∈ s.tasks, s.outcome task = none
  | _ => True

structure Retained (s : World Cb) : Prop where
  listed : Listed s
  unfinished : ∀ task ∈ s.spawned, s.outcome task = none → task ∈ s.tasks

theorem start_retained {s : World Cb} (start : Start s) : Retained s := by
  refine ⟨start_listed start, ?_⟩
  rw [start.spawned]
  exact nofun

theorem mem_compact_tasks {s : World Cb} {site : Site} {task : Nat}
    (running : s.outcome task = none) : task ∈ (s.compact site).tasks ↔ task ∈ s.tasks := by
  rw [compact_tasks]
  split
  · simp [List.mem_filter, running]
  · exact Iff.rfl

theorem Retained.step {s t : World Cb} {a : Act Cb} (retained : Retained s)
    (step : step s a = some t) : Retained t := by
  refine ⟨step_listed retained.listed step, ?_⟩
  have kept := retained.unfinished
  cases step_move step with
  | spawn task code fresh =>
    intro other member running
    rcases List.mem_append.mp member with old | same
    · exact List.mem_append_left _ (kept other old running)
    · exact List.mem_append_right _ same
  | finish task outcome code member running =>
    -- the task that ends is the one of which nothing is asked any more
    intro other spawned unfinished
    have apart : other ≠ task := by
      rintro rfl
      simp at unfinished
    exact kept other spawned ((Function.update_of_ne apart ..).symm.trans unfinished)
  | compact site phase =>
    intro other member running
    rw [compact_spawned] at member
    rw [compact_outcome] at running
    exact (mem_compact_tasks running).mpr (kept other member running)
  | _ => exact kept

theorem Retained.exactly_iff {s : World Cb} (retained : Retained s) :
    (s.tasks.Nodup ∧ ∀ task, task ∈ s.tasks ↔ task ∈ s.spawned ∧ s.outcome task = none) ↔
      ∀ task ∈ s.tasks, s.outcome task = none := by
  constructor
  · rintro ⟨_, exactly⟩ task member
    exact ((exactly task).mp member).2
  · intro running
    refine ⟨retained.listed.nodup, fun task => ⟨fun member => ?_, fun unfinished => ?_⟩⟩
    · exact ⟨retained.listed.spawned task member, running task member⟩
    · exact retained.unfinished task unfinished.1 unfinished.2

theorem compact_running {site : Site} {s : World Cb}
    (quiet : (scan s.outcome s.tasks).thrown = none) :
    ∀ task ∈ (s.compact site).tasks, s.outcome task = none := by
  intro task member
  rw [compact_tasks, if_pos quiet, List.mem_filter] at member
  exact Option.isNone_iff_eq_none.mp member.2

theorem scan_thrown_foreign {outcome : Nat → Option Outcome} {tasks : List Nat}
    {error : Exception} (threw : (scan outcome tasks).thrown = some error) :
    error.isStd = false := by
  induction tasks with
  | nil => cases threw
  | cons task rest ih =>
    rw [scan] at threw
    split at threw
    · cases threw
      rfl
    · exact ih threw
    · exact ih threw
    · exact ih threw

theorem code_awake {s : World Cb} (code : s.code = true) : s.phase ≠ .wait := by
  intro wait
  simp [World.code, wait] at code

theorem sleepsClean_of_awake {s : World Cb} (awake : s.phase ≠ .wait) : SleepsClean s :=
  fun wait => absurd wait awake

theorem sleepsClean_throw_iff {s : World Cb} {site : Site} {error : Exception}
    (after : Retained (s.throw site error)) (phase : s.phase = .callback site) :
    SleepsClean (s.throw site error) ↔ CompactsFirst s (.threw error) := by
  rw [CompactsFirst, phase]
  -- only an exception caught at the top goes to the wait without a compaction
  cases site with
  | wakeup =>
    have awake : (s.throw .wakeup error).phase ≠ .wait := by simp [World.throw, Site.escape]
    exact iff_of_true (sleepsClean_of_awake awake) fun top => by simp at top
  | top =>
    cases std : error.isStd with
    | true =>
      have wait : (s.throw .top error).phase = .wait := by simp [World.throw, Site.escape, std]
      rw [SleepsClean, after.exactly_iff]
      simp only [wait, forall_const]
      exact Iff.rfl
    | false =>
      have awake : (s.throw .top error).phase ≠ .wait := by simp [World.throw, Site.escape, std]
      exact iff_of_true (sleepsClean_of_awake awake) fun _ caught => by simp at caught

theorem sleepsClean_compact {s : World Cb} {site : Site} (after : Retained (s.compact site)) :
    SleepsClean (s.compact site) := by
  cases thrown : (scan s.outcome s.tasks).thrown with
  | none =>
    intro _
    rw [after.exactly_iff, compact_outcome]
    exact compact_running thrown
  | some error =>
    -- the exception leaves `run()`, or the dispatch of the wakeup event
    apply sleepsClean_of_awake
    have escaped : (s.compact site).phase = site.escape error := by simp [World.compact, thrown]
    rw [escaped]
    cases site with
    | top => simp [Site.escape, scan_thrown_foreign thrown]
    | wakeup => simp [Site.escape]

theorem step_sleepsClean_iff {s t : World Cb} {a : Act Cb} (retained : Retained s)
    (clean : SleepsClean s) (step : step s a = some t) : SleepsClean t ↔ CompactsFirst s a := by
  have after := retained.step step
  cases step_move step with
  | threw site error phase => exact sleepsClean_throw_iff after phase
  | compact site phase => exact iff_of_true (sleepsClean_compact after) trivial
  | push | flag | write | emptied => exact iff_of_true clean trivial
  | spawn task code | finish task outcome code =>
    exact iff_of_true (sleepsClean_of_awake (code_awake code)) trivial
  | enter | stop | goOn | swap | call | returned | drained | wake | interrupted | waitFailed
  | batchDone | wakeup | other | wasEmpty | suspended => exact iff_of_true nofun trivial

/-- Along every run, with any tasks, callbacks and exceptions, the loop sleeps with exactly
the tasks still running exactly as long as no callback called at the top of `run()` throws an
`std::exception` while a task in `tasks_` has ended. -/
theorem sleeps_clean_iff {s t : World Cb} {actions : List (Act Cb)} (start : Start s)
    (replay : (machine Cb).exec s actions = some t) :
    (machine Cb).Throughout SleepsClean s actions ↔ (machine Cb).Each CompactsFirst s actions := by
  have preserves : ∀ s a t, Retained s → True → (machine Cb).step s a = some t → Retained t :=
    fun _ _ _ retained _ step => retained.step step
  have exact_step : ∀ s a t, Retained s → SleepsClean s → True →
      (machine Cb).step s a = some t → (SleepsClean t ↔ CompactsFirst s a) :=
    fun _ _ _ retained clean _ step => step_sleepsClean_iff retained clean step
  exact Transition.Machine.throughout_iff_each preserves exact_step (start_retained start)
    (sleepsClean_of_awake (start.phase ▸ nofun)) (Transition.Machine.each_true s actions) replay

/-- Task 0 ends at once, task 1 does not; a callback is posted. -/
def endedTask : List (Act Nat) :=
  [.spawn 0, .finish 0 .returned, .spawn 1, .push .loop 7, .write .loop, .enter, .test, .swap, .call]

theorem sleeps_clean_iff_endedTask :
    (machine Nat).Throughout SleepsClean (boot Nat) (endedTask ++ [.returned, .drained, .compact]) ↔
      (machine Nat).Each CompactsFirst (boot Nat) (endedTask ++ [.returned, .drained, .compact]) := by
  have runs : ((machine Nat).exec (boot Nat)
      (endedTask ++ [.returned, .drained, .compact])).isSome = true := by decide
  obtain ⟨s, replay⟩ := Option.isSome_iff_exists.mp runs
  exact sleeps_clean_iff (boot_start Nat) replay

/-- When the callback throws an `std::exception`, the loop sleeps with the ended task. -/
theorem throwing_callback_keeps_ended_task : ¬ ∀ actions s,
    (machine Nat).exec (boot Nat) actions = some s → SleepsClean s := by
  intro always
  have run : ((machine Nat).exec (boot Nat)
      (endedTask ++ [.threw (.std (.runtimeError "callback"))])).map
      (fun s => (s.phase, s.tasks, s.outcome 0)) = some (.wait, [0, 1], some .returned) := by decide
  obtain ⟨s, replay, final⟩ := Option.map_eq_some_iff.mp run
  simp only [Prod.mk.injEq] at final
  obtain ⟨wait, tasks, ended⟩ := final
  have running := (((always _ s replay) wait).2 0).mp (tasks ▸ List.mem_cons_self)
  cases ended.symm.trans running.2

end CoroEpoll.Run
