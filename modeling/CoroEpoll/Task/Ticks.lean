import CoroEpoll.Task.Chain

/-! What one step of the innermost `resume()` does. -/

set_option autoImplicit false

namespace CoroEpoll.Task

open Routines

variable {L : Lang}

/-- The steps of a world whose frames are linked as `Task` links them. -/
inductive Moves (program : L.Fn → Routine L) (s : World L) : World L → Prop where
  /-- an `await_suspend`, and with it a `resume()`, returns -/
  | returns {record : Resume} {rest : List Resume} : s.native = record :: rest →
      record.site ≠ .body → Moves program s { s with native := rest }
  | goes {handle : Handle} {frame : Frame L} {rest : List Resume} {body next : Body L} :
      s.native = ⟨handle, .body⟩ :: rest → s.frames handle = some frame → frame.point = none →
      frame.body = some body → body.turn = .goes next →
        Moves program s (s.setFrame handle { frame with body := some next })
  | waits {handle : Handle} {frame : Frame L} {rest : List Resume} {body : Body L}
      {event : L.Event} {resume : L.Reply → Body L} :
      s.native = ⟨handle, .body⟩ :: rest → s.frames handle = some frame → frame.point = none →
      frame.body = some body → body.turn = .waits event resume →
        Moves program s
          { s.setFrame handle { frame with point := some (.wait event) } with native := rest }
  | calls {handle : Handle} {frame : Frame L} {rest : List Resume} {body : Body L} {callee : L.Fn}
      {env : L.Env} {resume : Outcome L → Body L} :
      s.native = ⟨handle, .body⟩ :: rest → s.frames handle = some frame → frame.point = none →
      frame.body = some body → body.turn = .calls callee env resume → s.frames s.next = none →
        Moves program s
          { (s.setFrame handle { frame with point := some (.await s.next) }).setFrame s.next
              { fn := callee
                task := frame.task
                promise := { (.empty : Promise L) with continuation := some handle }
                point := none
                body := some ((program callee).enter env) } with
            next := s.next + 1
            native := ⟨s.next, .body⟩ :: ⟨handle, .awaitSuspend⟩ :: rest
            awaited := s.awaited ++ [(handle, s.next)] }
  /-- the body ends, and the final suspend resumes the continuation -/
  | ends {handle parent : Handle} {frame caller : Frame L} {rest : List Resume} {body : Body L}
      {flow : Flow L} :
      s.native = ⟨handle, .body⟩ :: rest → s.frames handle = some frame → frame.point = none →
      frame.body = some body → body.turn = .ends flow →
      frame.promise.continuation = some parent → s.frames parent = some caller →
      caller.point = some (.await handle) →
        Moves program s
          { s.setFrame handle
              { frame with
                promise := frame.promise.leave (program frame.fn) flow
                point := some .final
                body := none } with
            finished := s.finished ++ [(handle, (program frame.fn).outcome flow)]
            native := ⟨parent, .body⟩ :: ⟨handle, .finalSuspend⟩ :: rest }
  /-- the body of a spawned task ends -/
  | completes {handle : Handle} {frame : Frame L} {rest : List Resume} {body : Body L}
      {flow : Flow L} :
      s.native = ⟨handle, .body⟩ :: rest → s.frames handle = some frame → frame.point = none →
      frame.body = some body → body.turn = .ends flow → frame.promise.continuation = none →
        Moves program s
          { s.setFrame handle
              { frame with
                promise := frame.promise.leave (program frame.fn) flow
                point := some .final
                body := none } with
            finished := s.finished ++ [(handle, (program frame.fn).outcome flow)]
            native := rest }
  /-- a co_await gets the outcome of its child, which is destroyed -/
  | resumes {handle child : Handle} {frame awaited : Frame L} {rest : List Resume} {body : Body L}
      {callee : L.Fn} {env : L.Env} {resume : Outcome L → Body L} {outcome : Outcome L} :
      s.native = ⟨handle, .body⟩ :: rest → s.frames handle = some frame →
      frame.point = some (.await child) → frame.body = some body →
      body.turn = .calls callee env resume → s.frames child = some awaited →
      Carries program awaited (.ended outcome) → awaited.promise.continuation = some handle →
      handle < child →
        Moves program s
          { (s.destroy child).setFrame handle
              { frame with point := none, body := some (resume outcome) } with
            resumed := s.resumed ++ [⟨handle, child, outcome⟩] }

theorem Moves.tick {program : L.Fn → Routine L} {s t : World L} (moves : Moves program s t) :
    s.tick program = some t := by
  cases moves with
  | @returns record rest native inAwait =>
    obtain ⟨handle, site⟩ := record
    cases site with
    | body => exact absurd rfl inAwait
    | awaitSuspend => simp [World.tick, native]
    | finalSuspend => simp [World.tick, native]
  | goes native found runs code turn => simp [World.tick, native, found, runs, code, turn]
  | waits native found runs code turn => simp [World.tick, native, found, runs, code, turn]
  | @calls handle frame rest body callee env resume native found runs code turn fresh =>
    have apart : s.next ≠ handle := by
      rintro rfl
      cases fresh.symm.trans found
    have frames : ∀ first second third fourth : Option (Frame L),
        Function.update (Function.update (Function.update (Function.update s.frames s.next first)
          handle second) s.next third) s.next fourth =
        Function.update (Function.update s.frames handle second) s.next fourth := by
      intro first second third fourth
      rw [Function.update_idem, Function.update_comm apart, Function.update_idem,
        Function.update_comm apart.symm]
    simp [World.tick, native, found, runs, code, turn, World.coAwait, World.create,
      World.setFrame, World.awaitReady, World.awaitSuspend, World.resume, Function.update_of_ne apart,
      Frame.done, frames]
  | @ends handle parent frame caller rest body flow native found runs code turn outer callerFound awaits =>
    have apart : parent ≠ handle := by
      rintro rfl
      cases found.symm.trans callerFound
      cases runs.symm.trans awaits
    simp [World.tick, native, found, runs, code, turn, World.finish, World.finalSuspend, outer,
      World.resume, World.setFrame, Function.update_of_ne apart, callerFound, awaits]
  | completes native found runs code turn outer =>
    simp [World.tick, native, found, runs, code, turn, World.finish, World.finalSuspend, outer,
      World.setFrame]
  | resumes native found point code turn awaitedFound carries outer later =>
    cases carries with
    | ended ended final holds =>
      simp [World.tick, native, found, point, code, World.awaitResume, awaitedFound, turn,
        holds.awaitResume]

theorem World.spawn_eq (program : L.Fn → Routine L) (fn : L.Fn) (env : L.Env) (s : World L) :
    s.spawn program fn env = some
      { s.setFrame s.next
          { fn
            task := s.next
            promise := .empty
            point := none
            body := some ((program fn).enter env) } with
        next := s.next + 1
        native := ⟨s.next, .body⟩ :: s.native
        tasks := s.tasks ++ [⟨s.next, fn, env⟩] } := by
  simp [World.spawn, World.create, World.resume, World.setFrame, Function.update_idem]

theorem World.deliver_eq_some {s t : World L} {handle : Handle} {reply : L.Reply}
    (delivers : s.deliver handle reply = some t) :
    ∃ frame body event expected resume, s.frames handle = some frame ∧
      frame.point = some (.wait event) ∧ frame.body = some body ∧
      body.turn = .waits expected resume ∧
      t = { s.setFrame handle { frame with point := none, body := some (resume reply) } with
        native := [⟨handle, .body⟩]
        delivered := Function.update s.delivered frame.task (s.delivered frame.task ++ [reply]) } := by
  unfold World.deliver at delivers
  split at delivers
  · rename_i frame found
    split at delivers
    · rename_i event body point code
      split at delivers
      · rename_i expected resume turn
        exact ⟨frame, body, event, expected, resume, found, point, code, turn,
          (Option.some.inj delivers).symm⟩
      · cases delivers
    · cases delivers
  · cases delivers

end CoroEpoll.Task
