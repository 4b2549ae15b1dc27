import CoroEpoll.Task.Awaiting

/-! Awaiting a `Task` in whatever state it is.

`await_ready` takes an empty `Task` for one that is ready, and one that has not finished for one
that has not been started.
-/

set_option autoImplicit false

namespace CoroEpoll.Objects

open Routines
open CoroEpoll.Task (Handle Resume)

variable {L : Lang}

/-! ## What goes wrong -/

namespace Sound

variable {s : World L}

/-! ## co_await -/

theorem coAwait (sound : Sound s) (program : Program L) {parent : Handle} {frame : Frame L}
    (is : s.frames parent = some frame) (running : frame.point.stage = .runs)
    (rest : List Resume) {object : Nat} (joinable : s.Joinable object)
    (resume : Outcome L → L.Env) :
    Sound (s.coAwait program parent frame rest object resume) := by
  obtain ⟨child, awaited, holds, isChild, fresh | ⟨done, intact⟩⟩ := joinable
  · have going : awaited.done = false := Frame.not_done (by simp [fresh])
    simp only [World.coAwait, holds, World.awaitReady_some isChild, going, Bool.false_eq_true,
      if_false]
    exact sound.begin program is running isChild fresh _ resume
  · obtain ⟨outcome, own⟩ := sound.ends.recorded child awaited isChild done
    simp only [World.coAwait, holds, World.awaitReady_some isChild, done, if_true]
    have result := (Frame.result_iff (sound.ends.agrees child awaited outcome isChild done own)).mpr
      (intact outcome own)
    exact sound.awaitResume program is running isChild done result own resume

theorem run (sound : Sound s) (program : Program L) {handle : Handle} {frame : Frame L}
    (is : s.frames handle = some frame) (running : frame.point.stage = .runs)
    (rest : List Resume) {turn : Turn L} (may : s.MayTurn turn) :
    Sound (s.run program handle frame rest turn) := by
  cases turn with
  | goes env => exact sound.setRunning is (Or.inr running) env
  | uses use env =>
    have proper := (World.proper_setRunning is running env use).mpr may
    exact (sound.setRunning is (Or.inr running) env).use program proper
  | awaits object resume => exact sound.coAwait program is running rest may resume
  | waits early resume => exact sound.suspend is running early resume rest
  | returns value => exact sound.finish program is running rest (.ok value)
  | throws error => exact sound.finish program is running rest (.error error)

end Sound

theorem top_eq_some {s : World L} {handle : Handle} {frame : Frame L} {env : L.Env}
    {rest : List Resume} (top : s.top = some (handle, frame, env, rest)) :
    s.frames handle = some frame ∧ frame.point.stage = .runs := by
  unfold World.top at top
  split at top
  · split at top
    · rename_i is
      split at top
      · rename_i point
        cases top
        exact ⟨is, by rw [point]; rfl⟩
      · cases top
    · cases top
  · cases top

theorem step_cases {program : Program L} {s t : World L} {act : Act L}
    (step : step program s act = some t) :
    (∃ answer native, act = .tick answer ∧ s.top = none ∧ t = { s with native }) ∨
    (∃ answer handle frame env rest, act = .tick answer ∧
      s.top = some (handle, frame, env, rest) ∧
      t = s.run program handle frame rest (program.turn answer env)) ∨
    (∃ use, act = .uses use ∧ t = s.use program use) ∨
    (∃ serial reply handle, act = .event serial reply ∧ s.waiting serial = some handle ∧
      t = { s with waiting := Function.update s.waiting serial none }.resume program
        (.event serial reply) handle) := by
  unfold Objects.step at step
  split at step
  · cases step
  cases act with
  | tick answer =>
    dsimp only [World.tick] at step
    split at step
    · cases step
    · rename_i native
      refine Or.inl ⟨answer, _, rfl, ?_, (Option.some.inj step).symm⟩
      rw [World.top, native]
    · rename_i native
      refine Or.inl ⟨answer, _, rfl, ?_, (Option.some.inj step).symm⟩
      rw [World.top, native]
    · obtain ⟨⟨handle, frame, env, rest⟩, top, result⟩ := Option.map_eq_some_iff.mp step
      exact Or.inr (Or.inl ⟨answer, handle, frame, env, rest, rfl, top, result.symm⟩)
  | uses use =>
    dsimp only at step
    split at step
    · exact Or.inr (Or.inr (Or.inl ⟨use, rfl, (Option.some.inj step).symm⟩))
    · cases step
  | event serial reply =>
    dsimp only at step
    split at step
    · rename_i holds
      exact Or.inr (Or.inr (Or.inr ⟨serial, reply, _, rfl, holds, (Option.some.inj step).symm⟩))
    · cases step

theorem Sound.step {program : Program L} {s t : World L} {act : Act L} (sound : Sound s)
    (cond : Cond program s act) (step : Objects.step program s act = some t) : Sound t := by
  rcases step_cases step with ⟨answer, native, rfl, _, rfl⟩ |
    ⟨answer, handle, frame, env, rest, rfl, top, rfl⟩ | ⟨use, rfl, rfl⟩ |
    ⟨serial, reply, handle, rfl, holds, rfl⟩
  · exact sound.withNative native
  · obtain ⟨is, running⟩ := top_eq_some top
    exact sound.run program is running rest (cond handle frame env rest top)
  · exact sound.use program cond
  · exact sound.event program holds reply

end CoroEpoll.Objects
