import CoroEpoll.EventLoop.Tasks

/-! The loop resumes each coroutine where it waits. The runs of a loop with its tasks are runs of
the loop, in which no coroutine is destroyed while a dispatch has its handle, and runs of the
tasks.
-/

set_option autoImplicit false

namespace CoroEpoll.OnLoop

open Routines CoroEpoll.Task

variable {K Ev Env : Type} {L : Lang} {B : Backend K Ev Env} {R : Readiness L}
  {program : L.Fn → Routine L}

/-- The frames that the loop sees are those of the coroutines. -/
structure Agree (R : Readiness L) (s : World K Ev L) : Prop where
  away : s.reactor.userCode = false → s.idle = true
  once : s.asking.Nodup
  asked : ∀ handle ∈ s.asking, (∃ e, Waits s.tasks handle e) ∧ s.reactor.frames handle = .active
  suspended : ∀ handle w removed, s.reactor.frames handle = .suspended w removed →
    w.frame = handle ∧ ∃ e et, Waits s.tasks handle e ∧ R.awaits e = some (w.direction, et)
  waits : ∀ handle e, Waits s.tasks handle e →
    handle ∈ s.asking ∨ ∃ w removed, s.reactor.frames handle = .suspended w removed
  gone : ∀ handle, s.reactor.frames handle = .destroyed →
    s.tasks.frames handle = none ∧ handle < s.tasks.next

theorem World.idle_iff {s : World K Ev L} : s.idle = true ↔ s.tasks.native = [] ∧ s.asking = [] := by
  simp [World.idle]

section

variable {s : World K Ev L}

theorem Agree.active (agree : Agree R s) {handle : Handle} {frame : Task.Frame L}
    (found : s.tasks.frames handle = some frame) (still : ∀ e, ¬ Waits s.tasks handle e) :
    s.reactor.frames handle = .active := by
  cases here : s.reactor.frames handle with
  | active => rfl
  | suspended w removed =>
    obtain ⟨_, e, _, waits, _⟩ := agree.suspended handle w removed here
    exact absurd waits (still e)
  | destroyed => cases found.symm.trans (agree.gone handle here).1

/-! ## Steps of the running coroutine -/

theorem frames_release (child : Option Handle) (reactor : Reactor.World K Ev) (handle : Handle) :
    (release child reactor).frames handle =
      if child = some handle then .destroyed else reactor.frames handle := by
  cases child with
  | none => rfl
  | some child =>
    simp only [release, Function.update_apply, Option.some.injEq, eq_comm]

theorem userCode_release (child : Option Handle) (reactor : Reactor.World K Ev) :
    (release child reactor).userCode = reactor.userCode := by
  cases child <;> rfl

theorem Agree.tick {tasks : Task.World L} (agree : Agree R s) (refines : Refines program s.tasks)
    (steps : Steps s.tasks tasks) (running : s.reactor.userCode = true) :
    Agree R (⟨release (ending s.tasks) s.reactor, tasks,
      (waiting s.tasks tasks).toList ++ s.asking⟩ : World K Ev L) := by
  have kept : ∀ handle, (∃ e, Waits s.tasks handle e) →
      (release (ending s.tasks) s.reactor).frames handle = s.reactor.frames handle := by
    rintro handle ⟨e, waits⟩
    rw [frames_release, if_neg]
    exact fun ends => (steps.ended handle ends).1 e waits
  constructor
  · intro outside
    cases running.symm.trans ((userCode_release _ _).symm.trans outside)
  · -- the one that has come to wait did not wait before
    rw [List.nodup_append']
    refine ⟨by cases waiting s.tasks tasks <;> simp, agree.once, ?_⟩
    intro handle new old
    obtain ⟨e, waits⟩ := (agree.asked handle old).1
    exact (steps.new handle (Option.mem_toList.mp new)).2.1 e waits
  · intro handle member
    rcases List.mem_append.mp member with new | old
    · have new := Option.mem_toList.mp new
      obtain ⟨waits, before, frame, found⟩ := steps.new handle new
      refine ⟨waits, ?_⟩
      have alive : ending s.tasks ≠ some handle := by
        intro ends
        obtain ⟨e, waits⟩ := waits
        exact not_waits_of_none (steps.ended handle ends).2.2 e waits
      rw [frames_release, if_neg alive]
      exact agree.active found before
    · obtain ⟨⟨e, waits⟩, active⟩ := agree.asked handle old
      exact ⟨⟨e, steps.kept handle e waits⟩, (kept handle ⟨e, waits⟩).trans active⟩
  · intro handle w removed suspended
    have before : s.reactor.frames handle = .suspended w removed := by
      dsimp only at suspended
      rw [frames_release] at suspended
      split at suspended
      · cases suspended
      · exact suspended
    obtain ⟨same, e, et, waits, awaits⟩ := agree.suspended handle w removed before
    exact ⟨same, e, et, steps.kept handle e waits, awaits⟩
  · intro handle e waits
    by_cases new : waiting s.tasks tasks = some handle
    · exact .inl (List.mem_append_left _ (Option.mem_toList.mpr new))
    · have before := steps.old handle e waits new
      rcases agree.waits handle e before with old | ⟨w, removed, suspended⟩
      · exact .inl (List.mem_append_right _ old)
      · exact .inr ⟨w, removed, (kept handle ⟨e, before⟩).trans suspended⟩
  · intro handle destroyed
    dsimp only at destroyed
    rw [frames_release] at destroyed
    split at destroyed
    · rename_i ends
      obtain ⟨_, ⟨frame, found⟩, gone⟩ := steps.ended handle ends
      exact ⟨gone, Nat.lt_of_lt_of_le (refines.lt_next found) steps.grows⟩
    · obtain ⟨free, older⟩ := agree.gone handle destroyed
      exact ⟨steps.gone handle free older, Nat.lt_of_lt_of_le older steps.grows⟩

/-- A coroutine that is destroyed is one that its owner may destroy, and no dispatch has its
handle. -/
theorem Agree.destroys (agree : Agree R s) (sound : Reactor.Sound s.reactor) {tasks : Task.World L}
    (steps : Steps s.tasks tasks) (running : s.reactor.userCode = true) {child : Handle}
    (ends : ending s.tasks = some child) :
    Reactor.SparesHand s.reactor (.destroy child : Reactor.Act Ev Env) ∧
      Reactor.step B s.reactor (.destroy child) = some (release (some child) s.reactor) := by
  obtain ⟨still, ⟨frame, found⟩, _⟩ := steps.ended child ends
  have active := agree.active found still
  constructor
  · rintro w member rfl
    obtain ⟨removed, suspended⟩ := sound.live.hand w member
    cases active.symm.trans suspended
  · simp [Reactor.step, running, active, Frame.mayDestroy, release]

/-! ## A reply for a coroutine -/

structure Delivers (s t : Task.World L) (handle : Handle) : Prop where
  waits : ∀ other e, Waits t other e ↔ Waits s other e ∧ other ≠ handle
  next : t.next = s.next
  gone : ∀ other, s.frames other = none → t.frames other = none

theorem delivers_of_eq {s t : Task.World L} {handle : Handle} {reply : L.Reply}
    (delivers : s.deliver handle reply = some t) : Delivers s t handle := by
  obtain ⟨frame, body, event, expected, resume, found, point, code, turn, rfl⟩ :=
    World.deliver_eq_some delivers
  refine ⟨?_, rfl, ?_⟩
  · intro other e
    by_cases same : other = handle
    · subst same
      have runs := not_waits (s := { s.setFrame other
          { frame with point := none, body := some (resume reply) } with
        native := [⟨other, .body⟩]
        delivered := Function.update s.delivered frame.task (s.delivered frame.task ++ [reply]) })
        (Function.update_self ..) (by simp) e
      exact iff_of_false runs fun both => both.2 rfl
    · rw [Waits.congr (Function.update_of_ne same _ _)]
      simp [same]
  · intro other free
    have apart : other ≠ handle := by
      rintro rfl
      cases free.symm.trans found
    exact (Function.update_of_ne apart _ _).trans free

theorem Waits.deliver {tasks : Task.World L} {handle : Handle} {e : L.Event}
    (waits : Waits tasks handle e) (reply : L.Reply) : ∃ t, tasks.deliver handle reply = some t := by
  obtain ⟨frame, body, resume, found, point, code, turn⟩ := waits
  simp [World.deliver, found, point, code, turn]

theorem Agree.answered (agree : Agree R s) {handle : Handle} {rest : List Handle}
    {tasks : Task.World L} (asking : s.asking = handle :: rest)
    (delivers : Delivers s.tasks tasks handle) {reactor : Reactor.World K Ev}
    (running : reactor.userCode = true) (frames : reactor.frames = s.reactor.frames) :
    Agree R (⟨reactor, tasks, rest⟩ : World K Ev L) := by
  have once := agree.once
  rw [asking, List.nodup_cons] at once
  have active := (agree.asked handle (asking ▸ List.mem_cons_self)).2
  constructor
  · intro outside
    cases running.symm.trans outside
  · exact once.2
  · intro other member
    obtain ⟨⟨e, waits⟩, still⟩ := agree.asked other (asking ▸ List.mem_cons_of_mem _ member)
    have apart : other ≠ handle := by
      rintro rfl
      exact once.1 member
    exact ⟨⟨e, (delivers.waits other e).mpr ⟨waits, apart⟩⟩, frames ▸ still⟩
  · intro other w removed suspended
    dsimp only at suspended
    rw [frames] at suspended
    obtain ⟨same, e, et, waits, awaits⟩ := agree.suspended other w removed suspended
    have apart : other ≠ handle := by
      rintro rfl
      cases active.symm.trans suspended
    exact ⟨same, e, et, (delivers.waits other e).mpr ⟨waits, apart⟩, awaits⟩
  · intro other e waits
    obtain ⟨before, apart⟩ := (delivers.waits other e).mp waits
    dsimp only
    rw [frames]
    rcases agree.waits other e before with member | held
    · rw [asking] at member
      exact .inl ((List.mem_cons.mp member).resolve_left apart)
    · exact .inr held
  · intro other destroyed
    dsimp only at destroyed ⊢
    rw [frames] at destroyed
    obtain ⟨free, older⟩ := agree.gone other destroyed
    exact ⟨delivers.gone other free, delivers.next ▸ older⟩

theorem Agree.registered (agree : Agree R s) {w : Waiter} {rest : List Handle} {e : L.Event}
    {et : Bool} (asking : s.asking = w.frame :: rest) (waits : Waits s.tasks w.frame e)
    (awaits : R.awaits e = some (w.direction, et)) {reactor : Reactor.World K Ev}
    (running : reactor.userCode = true)
    (frames : reactor.frames = Function.update s.reactor.frames w.frame (.suspended w false)) :
    Agree R (⟨reactor, s.tasks, rest⟩ : World K Ev L) := by
  have once := agree.once
  rw [asking, List.nodup_cons] at once
  have others : ∀ other, other ≠ w.frame → reactor.frames other = s.reactor.frames other := by
    intro other apart
    rw [frames, Function.update_of_ne apart]
  have here : reactor.frames w.frame = .suspended w false := by
    rw [frames, Function.update_self]
  constructor
  · intro outside
    cases running.symm.trans outside
  · exact once.2
  · intro other member
    obtain ⟨still, active⟩ := agree.asked other (asking ▸ List.mem_cons_of_mem _ member)
    have apart : other ≠ w.frame := by
      rintro rfl
      exact once.1 member
    exact ⟨still, (others other apart).trans active⟩
  · intro other w' removed suspended
    by_cases same : other = w.frame
    · subst same
      cases here.symm.trans suspended
      exact ⟨rfl, e, et, waits, awaits⟩
    · exact agree.suspended other w' removed ((others other same).symm.trans suspended)
  · intro other e' waits'
    by_cases same : other = w.frame
    · exact .inr ⟨w, false, same ▸ here⟩
    · rcases agree.waits other e' waits' with member | ⟨w', removed, suspended⟩
      · rw [asking] at member
        exact .inl ((List.mem_cons.mp member).resolve_left same)
      · exact .inr ⟨w', removed, (others other same).trans suspended⟩
  · intro other destroyed
    by_cases same : other = w.frame
    · subst same
      cases here.symm.trans destroyed
    · exact agree.gone other ((others other same).symm.trans destroyed)

theorem Agree.resumed (agree : Agree R s) {w : Waiter} {removed : Bool} {tasks : Task.World L}
    (suspended : s.reactor.frames w.frame = .suspended w removed)
    (delivers : Delivers s.tasks tasks w.frame) {reactor : Reactor.World K Ev}
    (running : reactor.userCode = true)
    (frames : reactor.frames = Function.update s.reactor.frames w.frame .active) :
    Agree R (⟨reactor, tasks, s.asking⟩ : World K Ev L) := by
  have others : ∀ other, other ≠ w.frame → reactor.frames other = s.reactor.frames other := by
    intro other apart
    rw [frames, Function.update_of_ne apart]
  have here : reactor.frames w.frame = .active := by
    rw [frames, Function.update_self]
  constructor
  · intro outside
    cases running.symm.trans outside
  · exact agree.once
  · intro other member
    obtain ⟨⟨e, waits⟩, active⟩ := agree.asked other member
    have apart : other ≠ w.frame := by
      rintro rfl
      cases active.symm.trans suspended
    exact ⟨⟨e, (delivers.waits other e).mpr ⟨waits, apart⟩⟩, (others other apart).trans active⟩
  · intro other w' removed' held
    have apart : other ≠ w.frame := by
      rintro rfl
      cases here.symm.trans held
    obtain ⟨same, e, et, waits, awaits⟩ :=
      agree.suspended other w' removed' ((others other apart).symm.trans held)
    exact ⟨same, e, et, (delivers.waits other e).mpr ⟨waits, apart⟩, awaits⟩
  · intro other e waits
    obtain ⟨before, apart⟩ := (delivers.waits other e).mp waits
    rcases agree.waits other e before with member | ⟨w', removed', held⟩
    · exact .inl member
    · exact .inr ⟨w', removed', (others other apart).trans held⟩
  · intro other destroyed
    have apart : other ≠ w.frame := by
      rintro rfl
      cases here.symm.trans destroyed
    obtain ⟨free, older⟩ := agree.gone other ((others other apart).symm.trans destroyed)
    exact ⟨delivers.gone other free, delivers.next ▸ older⟩

theorem Agree.spawned (agree : Agree R s) (refines : Refines program s.tasks) {tasks : Task.World L}
    {fn : L.Fn} {env : L.Env} (running : s.reactor.userCode = true)
    (spawns : s.tasks.spawn program fn env = some tasks) : Agree R { s with tasks } := by
  have fresh := refines.fresh s.tasks.next (Nat.le_refl _)
  obtain ⟨frame, runs, frames, next⟩ : ∃ frame : Task.Frame L, frame.point = none ∧
      tasks.frames = Function.update s.tasks.frames s.tasks.next (some frame) ∧
      tasks.next = s.tasks.next + 1 := by
    rw [World.spawn_eq] at spawns
    cases spawns
    exact ⟨_, rfl, rfl, rfl⟩
  have same : ∀ other e, Waits tasks other e ↔ Waits s.tasks other e := by
    intro other e
    by_cases new : other = s.tasks.next
    · subst new
      have here : tasks.frames s.tasks.next = some frame := by
        rw [frames, Function.update_self]
      exact iff_of_false (not_waits here (by simp [runs]) e) (not_waits_of_none fresh e)
    · exact Waits.congr (by rw [frames, Function.update_of_ne new])
  constructor
  · intro outside
    cases running.symm.trans outside
  · exact agree.once
  · intro other member
    obtain ⟨⟨e, waits⟩, active⟩ := agree.asked other member
    exact ⟨⟨e, (same other e).mpr waits⟩, active⟩
  · intro other w removed suspended
    obtain ⟨mine, e, et, waits, awaits⟩ := agree.suspended other w removed suspended
    exact ⟨mine, e, et, (same other e).mpr waits, awaits⟩
  · exact fun other e waits => agree.waits other e ((same other e).mp waits)
  · intro other destroyed
    obtain ⟨free, older⟩ := agree.gone other destroyed
    dsimp only
    rw [frames, Function.update_of_ne (Nat.ne_of_lt older), next]
    exact ⟨free, Nat.lt_succ_of_lt older⟩

/-! ## Steps that the tasks have no part in -/

structure Alike (before after : Nat → CoroEpoll.Frame) : Prop where
  active : ∀ handle, before handle = .active → after handle = .active
  suspended : ∀ handle w removed, after handle = .suspended w removed →
    ∃ removed', before handle = .suspended w removed'
  held : ∀ handle w removed, before handle = .suspended w removed →
    ∃ removed', after handle = .suspended w removed'
  destroyed : ∀ handle, after handle = .destroyed → before handle = .destroyed

theorem Alike.of_eq {before after : Nat → CoroEpoll.Frame} (same : after = before) :
    Alike before after := by
  subst same
  exact ⟨fun _ => id, fun _ _ removed held => ⟨removed, held⟩,
    fun _ _ removed held => ⟨removed, held⟩, fun _ => id⟩

theorem Alike.deregister {before after : Nat → CoroEpoll.Frame} {fd : Fd}
    (frames : ∀ handle, after handle = (before handle).deregister fd) : Alike before after := by
  constructor
  · intro handle active
    rw [frames, active]
    rfl
  · intro handle w removed suspended
    rw [frames] at suspended
    cases held : before handle with
    | active | destroyed =>
      rw [held] at suspended
      cases suspended
    | suspended w' removed' =>
      rw [held] at suspended
      cases suspended
      exact ⟨removed', rfl⟩
  · intro handle w removed suspended
    rw [frames, suspended]
    exact ⟨_, rfl⟩
  · intro handle destroyed
    rw [frames] at destroyed
    cases held : before handle with
    | destroyed => rfl
    | active | suspended =>
      rw [held] at destroyed
      cases destroyed

theorem alike_of_apart (lawful : B.Lawful) {before after : Reactor.World K Ev}
    {act : Reactor.Act Ev Env} (alone : apart act = true)
    (step : Reactor.step B before act = some after) : Alike before.frames after.frames := by
  cases Reactor.step_move lawful step with
  | quiet _ _ _ frames | took _ _ _ _ _ _ _ _ frames => exact .of_eq frames
  | removed fd _ _ _ frames => exact .deregister frames
  | registered _ _ _ _ act | refused _ _ _ _ _ act | destroyed _ act | gave _ _ _ act
  | faulted _ _ act =>
    subst act
    cases alone

theorem userCode_of_apart {before after : Reactor.World K Ev} {act : Reactor.Act Ev Env}
    (alone : apart act = true) (stays : returns act = false)
    (running : before.userCode = true) (step : Reactor.step B before act = some after) :
    after.userCode = true := by
  have inside : before.phase = .drain ∨ before.phase = .running := by
    simpa [Reactor.World.userCode] using running
  cases act with
  | wait | destroy | resume => cases alone
  | block | suspend => cases stays
  | remove fd | close fd | closeServer fd =>
    simp only [Reactor.step, Option.ite_none_right_eq_some, Option.some.injEq] at step
    obtain ⟨_, rfl⟩ := step
    exact running
  | openFd fd =>
    simp only [Reactor.step, Option.ite_none_right_eq_some, Option.map_eq_some_iff] at step
    obtain ⟨_, kernel, _, rfl⟩ := step
    exact running
  | change env =>
    simp only [Reactor.step, Option.map_eq_some_iff] at step
    obtain ⟨kernel, _, rfl⟩ := step
    exact running
  | wake reports =>
    simp only [Reactor.step, Option.ite_none_right_eq_some] at step
    rcases inside with phase | phase <;> simp [phase] at step
  | interrupted | dispatch =>
    simp only [Reactor.step, Option.ite_none_right_eq_some] at step
    rcases inside with phase | phase <;> simp [phase] at step

theorem Agree.apart (agree : Agree R s) {reactor : Reactor.World K Ev}
    (alike : Alike s.reactor.frames reactor.frames)
    (away : reactor.userCode = false → s.idle = true) : Agree R { s with reactor } := by
  constructor
  · exact away
  · exact agree.once
  · intro handle member
    obtain ⟨waits, active⟩ := agree.asked handle member
    exact ⟨waits, alike.active handle active⟩
  · intro handle w removed suspended
    obtain ⟨removed', before⟩ := alike.suspended handle w removed suspended
    exact agree.suspended handle w removed' before
  · intro handle e waits
    rcases agree.waits handle e waits with asking | ⟨w, removed, suspended⟩
    · exact .inl asking
    · obtain ⟨removed', after⟩ := alike.held handle w removed suspended
      exact .inr ⟨w, removed', after⟩
  · exact fun handle destroyed => agree.gone handle (alike.destroyed handle destroyed)

end

/-! ## Every step is one of the loop, one of the tasks, or both -/

/-- The step keeps the agreement and is at most one step of the loop, which spares the handles in
hand, and at most one of the tasks. -/
structure Passes (B : Backend K Ev Env) (R : Readiness L) (program : L.Fn → Routine L)
    (s t : World K Ev L) : Prop where
  agree : Agree R t
  tasks : t.tasks = s.tasks ∨ ∃ a, Task.step program s.tasks a = some t.tasks
  reactor : t.reactor = s.reactor ∨ ∃ a, Reactor.Clean B s.reactor a ∧
    Reactor.SparesHand s.reactor a ∧ Reactor.step B s.reactor a = some t.reactor

section

variable {s t : World K Ev L}

theorem deliver_step {tasks after : Task.World L} {handle : Handle} {reply : L.Reply}
    (idle : tasks.native = []) (delivers : tasks.deliver handle reply = some after) :
    Task.step program tasks (.deliver handle reply) = some after := by
  simp [Task.step, idle, delivers]

theorem request_eq_some {handle : Handle} {d : Direction} {et : Bool}
    (asks : s.request R = some (handle, d, et)) :
    ∃ rest e, s.asking = handle :: rest ∧ event s.tasks handle = some e ∧
      R.awaits e = some (d, et) := by
  obtain ⟨first, head, asks⟩ := Option.bind_eq_some_iff.mp asks
  obtain ⟨wait, asked, same⟩ := Option.map_eq_some_iff.mp asks
  cases same
  obtain ⟨e, waits, awaits⟩ := Option.bind_eq_some_iff.mp asked
  cases asking : s.asking with
  | nil =>
    rw [asking] at head
    cases head
  | cons top rest =>
    rw [asking] at head
    cases head
    exact ⟨rest, e, rfl, waits, awaits⟩

theorem passes_await (agree : Agree R s) (running : s.reactor.userCode = true)
    (idle : s.tasks.native = []) {fd : Fd} (clean : Clean B R s (.await fd : Act L Ev Env))
    (step : s.await B R fd = some t) : Passes B R program s t := by
  unfold World.await at step
  split at step
  · rename_i handle d et asks
    obtain ⟨rest, e, asking, waits, awaits⟩ := request_eq_some asks
    obtain ⟨⟨e', is_waiting⟩, active⟩ := agree.asked handle (asking ▸ List.mem_cons_self)
    cases is_waiting.event_eq.symm.trans waits
    have may : s.reactor.userCode = true ∧ s.reactor.frames handle = .active := ⟨running, active⟩
    have taken : Reactor.step B s.reactor (.wait handle fd d et) =
        some (s.reactor.wait B handle fd d et) := by
      rw [Reactor.step, if_pos may]
    have passed : ∃ a, Reactor.Clean B s.reactor a ∧ Reactor.SparesHand s.reactor a ∧
        Reactor.step B s.reactor a = some (s.reactor.wait B handle fd d et) :=
      ⟨_, clean handle d et asks, trivial, taken⟩
    have stays : (s.reactor.wait B handle fd d et).userCode = true := by
      simpa [Reactor.World.userCode] using running
    have tail : s.asking.tail = rest := by rw [asking, List.tail_cons]
    dsimp only at step
    rcases result : B.awaitSuspend fd d et (s.reactor.waiter B handle fd d) s.reactor.loop with
      ⟨loop, thrown⟩
    rw [result, tail] at step
    cases thrown with
    | none =>
      cases step
      have frames : (s.reactor.wait B handle fd d et).frames =
          Function.update s.reactor.frames handle
            (.suspended (s.reactor.waiter B handle fd d) false) := by
        simp [Reactor.World.wait, result]
      have after := agree.registered (w := s.reactor.waiter B handle fd d) asking is_waiting awaits
        stays frames
      exact ⟨after, .inl rfl, .inr passed⟩
    | some error =>
      obtain ⟨tasks, delivers, rfl⟩ := Option.map_eq_some_iff.mp step
      have frames : (s.reactor.wait B handle fd d et).frames = s.reactor.frames := by
        simp [Reactor.World.wait, result]
      have after := agree.answered asking (delivers_of_eq delivers) stays frames
      exact ⟨after, .inr ⟨_, deliver_step idle delivers⟩, .inr passed⟩
  · cases step

theorem passes_resume (agree : Agree R s) (sound : Reactor.Sound s.reactor)
    (step : s.resume B R = some t) : Passes B R program s t := by
  obtain ⟨reactor, taken, follows⟩ := Option.bind_eq_some_iff.mp step
  have passed : ∃ a, Reactor.Clean B s.reactor a ∧ Reactor.SparesHand s.reactor a ∧
      Reactor.step B s.reactor a = some reactor := ⟨.resume, trivial, trivial, taken⟩
  simp only [Reactor.step, Option.ite_none_right_eq_some] at taken
  obtain ⟨phase, taken⟩ := taken
  have outside : s.reactor.userCode = false := by
    simp [Reactor.World.userCode, phase]
  have idle := World.idle_iff.mp (agree.away outside)
  cases hand : s.reactor.hand with
  | nil =>
    simp only [hand, Option.some.injEq] at taken
    subst taken
    simp only [Option.some.injEq] at follows
    subst follows
    refine ⟨agree.apart (.of_eq rfl) fun _ => agree.away outside, .inl rfl, .inr passed⟩
  | cons w rest =>
    obtain ⟨removed, suspended⟩ := sound.live.hand w (hand ▸ List.mem_cons_self)
    simp only [hand, Option.some.injEq, Reactor.World.resume, suspended, if_true] at taken
    subst taken
    simp only [hand] at follows
    obtain ⟨tasks, delivers, rfl⟩ := Option.map_eq_some_iff.mp follows
    let running : Reactor.World K Ev := { s.reactor with
      hand := rest
      phase := .running
      frames := Function.update s.reactor.frames w.frame .active
      resumed := s.reactor.resumed ++ [w] }
    have after : Agree R (⟨running, tasks, s.asking⟩ : World K Ev L) :=
      agree.resumed suspended (delivers_of_eq delivers) rfl rfl
    exact ⟨after, .inr ⟨_, deliver_step idle.1 delivers⟩, .inr passed⟩

theorem passes_of_step (lawful : B.Lawful) {a : Act L Ev Env} (agree : Agree R s)
    (refines : Refines program s.tasks) (sound : Reactor.Sound s.reactor)
    (clean : Clean B R s a) (taken : step B R program s a = some t) :
    Passes B R program s t := by
  cases a with
  | spawn fn env =>
    obtain ⟨⟨running, idle, _⟩, creates⟩ := Option.ite_none_right_eq_some.mp taken
    obtain ⟨tasks, spawns, rfl⟩ := Option.map_eq_some_iff.mp creates
    refine ⟨agree.spawned refines running spawns, .inr ⟨.spawn fn env, ?_⟩, .inl rfl⟩
    simp [Task.step, idle, spawns]
  | tick =>
    obtain ⟨running, runs⟩ := Option.ite_none_right_eq_some.mp taken
    obtain ⟨tasks, ticks, rfl⟩ := Option.map_eq_some_iff.mp runs
    have steps := steps_of_moves (refines.moves_of_tick ticks)
    refine ⟨agree.tick refines steps running, .inr ⟨.tick, ticks⟩, ?_⟩
    cases ends : ending s.tasks with
    | none => exact .inl rfl
    | some child =>
      obtain ⟨spares, destroys⟩ := agree.destroys sound steps running ends
      exact .inr ⟨.destroy child, trivial, spares, destroys⟩
  | answer reply =>
    simp only [step] at taken
    split at taken
    · rename_i handle rest asking
      obtain ⟨⟨running, idle, _⟩, answers⟩ := Option.ite_none_right_eq_some.mp taken
      obtain ⟨tasks, delivers, rfl⟩ := Option.map_eq_some_iff.mp answers
      have after := agree.answered asking (delivers_of_eq delivers) running rfl
      exact ⟨after, .inr ⟨_, deliver_step idle delivers⟩, .inl rfl⟩
    · cases taken
  | await fd =>
    obtain ⟨⟨running, idle⟩, awaits⟩ := Option.ite_none_right_eq_some.mp taken
    exact passes_await agree running idle clean awaits
  | resume => exact passes_resume agree sound taken
  | loop act =>
    obtain ⟨⟨alone, leaves⟩, acts⟩ := Option.ite_none_right_eq_some.mp taken
    obtain ⟨reactor, moves, rfl⟩ := Option.map_eq_some_iff.mp acts
    have away : reactor.userCode = false → s.idle = true := by
      intro outside
      by_cases ends : returns act = true
      · exact leaves ends
      · cases running : s.reactor.userCode with
        | false => exact agree.away running
        | true =>
          have stays := userCode_of_apart alone (Bool.eq_false_iff.mpr ends) running moves
          cases stays.symm.trans outside
    have quiet : Reactor.Clean B s.reactor act ∧ Reactor.SparesHand s.reactor act := by
      cases act with
      | wait | destroy | resume => cases alone
      | _ => exact ⟨trivial, trivial⟩
    exact ⟨agree.apart (alike_of_apart lawful alone moves) away, .inl rfl,
      .inr ⟨act, quiet.1, quiet.2, moves⟩⟩

end

/-- The runs of the loop and of the tasks that a run of both consists of. -/
structure Consists (B : Backend K Ev Env) (R : Readiness L) (program : L.Fn → Routine L)
    (s : World K Ev L) : Prop where
  agree : Agree R s
  tasks : (Task.machine program).Reachable s.tasks
  reactor : (Reactor.machine B).ReachableWhere
    (fun reactor a => Reactor.Clean B reactor a ∧ Reactor.SparesHand reactor a) s.reactor

theorem Consists.step (lawful : B.Lawful) {s t : World K Ev L} {a : Act L Ev Env}
    (consists : Consists B R program s) (clean : Clean B R s a)
    (taken : step B R program s a = some t) : Consists B R program t := by
  have passes := passes_of_step lawful consists.agree (refines_of_reachable consists.tasks)
    (Reactor.reachable_sound lawful consists.reactor) clean taken
  refine ⟨passes.agree, ?_, ?_⟩
  · rcases passes.tasks with same | ⟨b, moves⟩
    · exact same ▸ consists.tasks
    · exact .next consists.tasks trivial moves
  · rcases passes.reactor with same | ⟨b, met, spares, moves⟩
    · exact same ▸ consists.reactor
    · exact .next consists.reactor ⟨met, spares⟩ moves

def boot (L : Lang) : World Epoll.Kernel EpollEvent L :=
  ⟨Reactor.epollBoot, .boot L, []⟩

end CoroEpoll.OnLoop
