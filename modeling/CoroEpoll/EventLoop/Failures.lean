import CoroEpoll.EventLoop.Run
import Mathlib.Data.List.Nodup

/-! What a failed callback or task does to `run()`. -/

set_option autoImplicit false

namespace CoroEpoll.Run

variable {Cb : Type}

def Outcome.isFailed : Option Outcome → Bool
  | some (.failed _) => true
  | some .returned | none => false

def NoForeign (outcome : Nat → Option Outcome) (tasks : List Nat) : Prop :=
  ∀ task ∈ tasks, ∀ value, outcome task ≠ some (.failed (.foreign value))

theorem scan_thrown_iff (outcome : Nat → Option Outcome) (tasks : List Nat) :
    (scan outcome tasks).thrown = none ↔ NoForeign outcome tasks := by
  induction tasks with
  | nil => simp [scan, NoForeign]
  | cons task rest ih =>
    -- a foreign failure ends the scan; any other task is logged or passed over
    rw [NoForeign, List.forall_mem_cons, ← NoForeign, ← ih, scan]
    split
    · rename_i value found
      simp [found]
    · rename_i error found
      simp [found]
    · rename_i found
      simp [found]
    · rename_i found
      simp [found]

theorem scan_threw {outcome : Nat → Option Outcome} {tasks : List Nat} {error : Exception}
    (threw : (scan outcome tasks).thrown = some error) :
    ∃ task ∈ (scan outcome tasks).seen, task ∈ tasks := by
  induction tasks with
  | nil => simp [scan] at threw
  | cons task rest ih =>
    rw [scan] at threw ⊢
    split at threw
    · exact ⟨task, by simp⟩
    · obtain ⟨met, seen, member⟩ := ih threw
      exact ⟨met, by simp [seen], List.mem_cons_of_mem _ member⟩
    · obtain ⟨met, seen, member⟩ := ih threw
      exact ⟨met, by simp [seen], List.mem_cons_of_mem _ member⟩
    · obtain ⟨met, seen, member⟩ := ih threw
      exact ⟨met, by simp [seen], List.mem_cons_of_mem _ member⟩

theorem scan_quiet {outcome : Nat → Option Outcome} {tasks : List Nat}
    (quiet : (scan outcome tasks).thrown = none) :
    (scan outcome tasks).seen = tasks.filter (fun task => Outcome.isFailed (outcome task)) ∧
      (scan outcome tasks).handled =
        tasks.filter (fun task => Outcome.isFailed (outcome task)) := by
  induction tasks with
  | nil => exact ⟨rfl, rfl⟩
  | cons task rest ih =>
    rw [scan] at quiet ⊢
    split at quiet
    · cases quiet
    · rename_i error found
      simp [found, Outcome.isFailed, ih quiet]
    · rename_i found
      simp [found, Outcome.isFailed, ih quiet]
    · rename_i found
      simp [found, Outcome.isFailed, ih quiet]

/-- Nothing but a failing wait ends `run()` before it is stopped, and a failed task is
logged once and gone from `tasks_` after the first compaction that meets it. -/
structure Contained (s : World Cb) : Prop where
  running : ∀ error, s.phase = .died error →
    ∃ branch errno, error = .std (.systemError errno (Branch.waitText branch))
  stopped : s.phase = .exited → s.stopped = true
  handled : ∀ task ∈ s.seen, s.handled.count task = 1 ∧ task ∉ s.tasks

structure Listed (s : World Cb) : Prop where
  nodup : s.tasks.Nodup
  spawned : ∀ task ∈ s.tasks, task ∈ s.spawned
  seen : ∀ task ∈ s.seen, task ∈ s.spawned
  handled : ∀ task ∈ s.handled, task ∈ s.seen

/-- A callback called at the top of `run()` throws only what derives from
`std::exception`, and a compaction meets only such failures. -/
def StdFailures (s : World Cb) : Act Cb → Prop
  | .threw error => s.phase = .callback .top → error.isStd = true
  | .compact => NoForeign s.outcome s.tasks
  | _ => True

theorem scan_seen_subset (outcome : Nat → Option Outcome) (tasks : List Nat) :
    (∀ task ∈ (scan outcome tasks).seen, task ∈ tasks) ∧
      ∀ task ∈ (scan outcome tasks).handled, task ∈ (scan outcome tasks).seen := by
  induction tasks with
  | nil => exact ⟨nofun, nofun⟩
  | cons task rest ih =>
    obtain ⟨seen, handled⟩ := ih
    rw [scan]
    split
    · exact ⟨fun _ met => List.mem_singleton.mp met ▸ List.mem_cons_self, nofun⟩
    · dsimp only
      constructor
      · intro other met
        cases met with
        | head => exact List.mem_cons_self
        | tail _ met => exact List.mem_cons_of_mem _ (seen other met)
      · intro other met
        cases met with
        | head => exact List.mem_cons_self
        | tail _ met => exact List.mem_cons_of_mem _ (handled other met)
    · exact ⟨fun other met => List.mem_cons_of_mem _ (seen other met), handled⟩
    · exact ⟨fun other met => List.mem_cons_of_mem _ (seen other met), handled⟩

/-! ## One compaction -/

@[simp] theorem compact_outcome (site : Site) (s : World Cb) :
    (s.compact site).outcome = s.outcome := by
  unfold World.compact
  dsimp only
  split <;> rfl

@[simp] theorem compact_seen (site : Site) (s : World Cb) :
    (s.compact site).seen = s.seen ++ (scan s.outcome s.tasks).seen := by
  unfold World.compact
  dsimp only
  split <;> rfl

@[simp] theorem compact_handled (site : Site) (s : World Cb) :
    (s.compact site).handled = s.handled ++ (scan s.outcome s.tasks).handled := by
  unfold World.compact
  dsimp only
  split <;> rfl

@[simp] theorem compact_spawned (site : Site) (s : World Cb) :
    (s.compact site).spawned = s.spawned := by
  unfold World.compact
  dsimp only
  split <;> rfl

theorem compact_tasks (site : Site) (s : World Cb) :
    (s.compact site).tasks =
      if (scan s.outcome s.tasks).thrown = none then
        s.tasks.filter fun task => (s.outcome task).isNone
      else s.tasks := by
  unfold World.compact
  dsimp only
  split
  · rename_i error thrown
    simp [thrown]
  · rename_i quiet
    simp [quiet]

theorem compact_phase {site : Site} {s : World Cb}
    (quiet : (scan s.outcome s.tasks).thrown = none) : (s.compact site).phase = site.next := by
  simp [World.compact, quiet]

theorem compact_tasks_sublist (site : Site) (s : World Cb) :
    (s.compact site).tasks.Sublist s.tasks := by
  rw [compact_tasks]
  split
  · exact List.filter_sublist
  · exact List.Sublist.refl _

theorem step_listed {s t : World Cb} {a : Act Cb} (listed : Listed s)
    (step : step s a = some t) : Listed t := by
  cases step_move step with
  | spawn task code fresh =>
    -- a handle is spawned once
    have new : task ∉ s.tasks := fun member => fresh (listed.spawned task member)
    constructor
    · exact List.nodup_append.mpr ⟨listed.nodup, List.nodup_singleton task,
        fun _ member _ same equal => new (List.mem_singleton.mp same ▸ equal ▸ member)⟩
    · intro other member
      rcases List.mem_append.mp member with old | same
      · exact List.mem_append_left _ (listed.spawned other old)
      · exact List.mem_append_right _ same
    · intro other met
      exact List.mem_append_left _ (listed.seen other met)
    · exact listed.handled
  | compact site phase =>
    obtain ⟨seen, handled⟩ := scan_seen_subset s.outcome s.tasks
    have kept := compact_tasks_sublist site s
    constructor
    · exact kept.nodup listed.nodup
    · intro task member
      rw [compact_spawned]
      exact listed.spawned task (kept.subset member)
    · intro task met
      rw [compact_spawned]
      rw [compact_seen] at met
      rcases List.mem_append.mp met with old | now
      · exact listed.seen task old
      · exact listed.spawned task (seen task now)
    · intro task met
      rw [compact_seen]
      rw [compact_handled] at met
      rcases List.mem_append.mp met with old | now
      · exact List.mem_append_left _ (listed.handled task old)
      · exact List.mem_append_right _ (handled task now)
  | _ => exact ⟨listed.nodup, listed.spawned, listed.seen, listed.handled⟩

theorem contained_compact_iff {s : World Cb} (listed : Listed s) (contained : Contained s)
    (site : Site) : Contained (s.compact site) ↔ NoForeign s.outcome s.tasks := by
  rw [← scan_thrown_iff]
  constructor
  · intro after
    -- the task whose exception left the scan is met and stays in the list
    cases thrown : (scan s.outcome s.tasks).thrown with
    | none => rfl
    | some error =>
      obtain ⟨task, met, member⟩ := scan_threw thrown
      have gone := (after.handled task (by rw [compact_seen]; exact List.mem_append_right _ met)).2
      rw [compact_tasks, if_neg (by rw [thrown]; nofun)] at gone
      exact absurd member gone
  · intro quiet
    obtain ⟨seen, handled⟩ := scan_quiet quiet
    have phase : (s.compact site).phase = site.next := compact_phase quiet
    constructor
    · intro error died
      rw [phase] at died
      cases site <;> cases died
    · intro exited
      rw [phase] at exited
      cases site <;> cases exited
    · intro task met
      rw [compact_seen, seen, List.mem_append, List.mem_filter] at met
      rw [compact_handled, handled, compact_tasks, if_pos quiet, List.count_append,
        List.mem_filter]
      -- a task met before is not in `tasks_` any more; one met now was not met before
      rcases met with old | ⟨member, failed⟩
      · obtain ⟨once, gone⟩ := contained.handled task old
        have absent : task ∉ s.tasks.filter fun task => Outcome.isFailed (s.outcome task) :=
          fun member => gone (List.mem_filter.mp member).1
        exact ⟨by rw [once, List.count_eq_zero_of_not_mem absent], fun stays => gone stays.1⟩
      · have unseen : task ∉ s.handled := fun before =>
          (contained.handled task (listed.handled task before)).2 member
        constructor
        · have once : (s.tasks.filter fun task => Outcome.isFailed (s.outcome task)).count task = 1 :=
            List.count_eq_one_of_mem (listed.nodup.filter _) (List.mem_filter.mpr ⟨member, failed⟩)
          rw [List.count_eq_zero_of_not_mem unseen, once]
        · intro stays
          rw [Option.isNone_iff_eq_none.mp stays.2] at failed
          cases failed

theorem contained_throw_iff {s : World Cb} (contained : Contained s) (site : Site)
    (error : Exception) : Contained (s.throw site error) ↔ (site = .top → error.isStd = true) := by
  constructor
  · intro after top
    cases std : error.isStd with
    | true => rfl
    -- `run()` would end with an exception that is no failed wait
    | false =>
      have died : (s.throw site error).phase = .died error := by
        simp [World.throw, Site.escape, top, std]
      obtain ⟨_, _, wait⟩ := after.running error died
      rw [wait] at std
      cases std
  · intro caught
    -- the exception is caught, at the top or by the dispatch of the wakeup event
    have goesOn : (s.throw site error).phase = .wait ∨ (s.throw site error).phase = .batch := by
      cases site with
      | top => exact .inl (by simp [World.throw, Site.escape, caught rfl])
      | wakeup => exact .inr rfl
    refine ⟨fun _ died => ?_, fun exited => ?_, contained.handled⟩
    · rcases goesOn with wait | batch
      · exact absurd (died.symm.trans wait) nofun
      · exact absurd (died.symm.trans batch) nofun
    · rcases goesOn with wait | batch
      · exact absurd (exited.symm.trans wait) nofun
      · exact absurd (exited.symm.trans batch) nofun

theorem step_contained_iff {s t : World Cb} {a : Act Cb} (listed : Listed s)
    (contained : Contained s) (step : step s a = some t) : Contained t ↔ StdFailures s a := by
  cases step_move step with
  | threw site error phase =>
    rw [contained_throw_iff contained, StdFailures, phase, Phase.callback.injEq]
  | compact site phase => exact contained_compact_iff listed contained site
  | spawn task code fresh =>
    simp only [StdFailures, iff_true]
    refine ⟨contained.running, contained.stopped, fun other met => ?_⟩
    obtain ⟨once, gone⟩ := contained.handled other met
    refine ⟨once, fun member => ?_⟩
    rcases List.mem_append.mp member with old | same
    · exact gone old
    · exact fresh (List.mem_singleton.mp same ▸ listed.seen other met)
  | flag =>
    simp only [StdFailures, iff_true]
    exact ⟨contained.running, fun _ => rfl, contained.handled⟩
  | stop phase stopped =>
    simp only [StdFailures, iff_true]
    exact ⟨nofun, fun _ => stopped, contained.handled⟩
  | waitFailed branch errno =>
    simp only [StdFailures, iff_true]
    refine ⟨fun error died => ⟨branch, errno, ?_⟩, nofun, contained.handled⟩
    injection died with same
    exact same.symm
  | push | write | finish | emptied =>
    simp only [StdFailures, iff_true]
    exact ⟨contained.running, contained.stopped, contained.handled⟩
  | enter | goOn | swap | call | returned | drained | wake | interrupted | batchDone | wakeup
  | other | wasEmpty | suspended =>
    simp only [StdFailures, iff_true]
    exact ⟨nofun, nofun, contained.handled⟩

theorem start_contained {s : World Cb} (start : Start s) : Contained s := by
  refine ⟨fun _ died => ?_, fun exited => ?_, fun task met => ?_⟩
  · exact absurd (start.phase.symm.trans died) nofun
  · exact absurd (start.phase.symm.trans exited) nofun
  · rw [start.seen] at met
    cases met

theorem start_listed {s : World Cb} (start : Start s) : Listed s := by
  constructor
  · rw [start.tasks]
    exact List.nodup_nil
  · rw [start.tasks]
    exact nofun
  · rw [start.seen]
    exact nofun
  · rw [start.handled]
    exact nofun

/-- Along every run, with any tasks, callbacks and exceptions: only a failing wait ends
`run()` before `stop()`, and every failed task is handled once and removed by the first
compaction that meets it, exactly as long as nothing outside `std::exception` is thrown by
a callback at the top of the loop or met in `tasks_` by a compaction. -/
theorem contained_iff {s t : World Cb} {actions : List (Act Cb)} (start : Start s)
    (replay : (machine Cb).exec s actions = some t) :
    (machine Cb).Throughout Contained s actions ↔ (machine Cb).Each StdFailures s actions := by
  have preserves : ∀ s a t, Listed s → True → (machine Cb).step s a = some t → Listed t :=
    fun _ _ _ listed _ step => step_listed listed step
  have exact_step : ∀ s a t, Listed s → Contained s → True → (machine Cb).step s a = some t →
      (Contained t ↔ StdFailures s a) :=
    fun _ _ _ listed contained _ step => step_contained_iff listed contained step
  exact Transition.Machine.throughout_iff_each preserves exact_step (start_listed start)
    (start_contained start) (Transition.Machine.each_true s actions) replay

def failedTask (error : Exception) : List (Act Nat) :=
  [.spawn 0, .finish 0 (.failed error), .enter, .test, .swap, .drained, .compact]

theorem contained_iff_failedTask :
    (machine Nat).Throughout Contained (boot Nat) (failedTask (.std (.runtimeError "task"))) ↔
      (machine Nat).Each StdFailures (boot Nat) (failedTask (.std (.runtimeError "task"))) := by
  have runs : ((machine Nat).exec (boot Nat)
      (failedTask (.std (.runtimeError "task")))).isSome = true := by decide
  obtain ⟨s, replay⟩ := Option.isSome_iff_exists.mp runs
  exact contained_iff (boot_start Nat) replay

/-- A task that ends with an exception outside `std::exception` ends `run()`. -/
theorem foreign_task_ends_run : ¬ ∀ actions s,
    (machine Nat).exec (boot Nat) actions = some s → Contained s := by
  intro always
  have run : ((machine Nat).exec (boot Nat) (failedTask (.foreign 7))).map
      (fun s => s.phase) = some (.died (.foreign 7)) := by decide
  obtain ⟨s, replay, died⟩ := Option.map_eq_some_iff.mp run
  obtain ⟨_, _, wait⟩ := (always _ s replay).running (.foreign 7) died
  cases wait

end CoroEpoll.Run
