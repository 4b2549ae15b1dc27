import CoroEpoll.Task.Refinement
import Mathlib.Data.List.Nodup

/-! Every co_await gets the outcome of its child once, after the child's final suspend. -/

set_option autoImplicit false

namespace CoroEpoll.Task

open Routines

variable {L : Lang} {program : L.Fn → Routine L}

/-- What the frames tell of the co_awaits so far. -/
structure Logged (program : L.Fn → Routine L) (frames : Handle → Option (Frame L)) (next : Handle)
    (awaited : List (Handle × Handle)) (finished : List (Handle × Outcome L))
    (resumed : List (Resumed L)) : Prop where
  ended : ∀ (handle : Handle) (frame : Frame L), frames handle = some frame →
    (frame.body = none ↔ ∃ outcome, (handle, outcome) ∈ finished)
  holds : ∀ (handle : Handle) (outcome : Outcome L), (handle, outcome) ∈ finished →
    ∀ frame, frames handle = some frame →
      frame.done = true ∧ frame.promise.Holds (program frame.fn) outcome
  linked : ∀ (handle parent : Handle) (frame : Frame L), frames handle = some frame →
    frame.promise.continuation = some parent → (parent, handle) ∈ awaited
  waiting : ∀ parent child : Handle, (parent, child) ∈ awaited → child < next ∧
    ((∃ frame, frames child = some frame ∧ frame.promise.continuation = some parent) ∨
      ∃ outcome, ⟨parent, child, outcome⟩ ∈ resumed)
  given : ∀ entry ∈ resumed, frames entry.child = none ∧ entry.child < next ∧
    (entry.child, entry.outcome) ∈ finished ∧ (entry.parent, entry.child) ∈ awaited
  past : ∀ entry ∈ finished, entry.1 < next
  finishedOnce : (finished.map Prod.fst).Nodup
  resumedOnce : (resumed.map Resumed.child).Nodup
  awaitedOnce : (awaited.map Prod.snd).Nodup

section

variable {frames : Handle → Option (Frame L)} {next handle : Handle}
  {awaited : List (Handle × Handle)} {finished : List (Handle × Outcome L)}
  {resumed : List (Resumed L)} {frame : Frame L}

theorem Logged.unfinished (logged : Logged program frames next awaited finished resumed)
    (found : frames handle = some frame) {body : Body L} (code : frame.body = some body)
    (outcome : Outcome L) : (handle, outcome) ∉ finished := by
  intro member
  cases code.symm.trans ((logged.ended handle frame found).mpr ⟨outcome, member⟩)

theorem Logged.finished_unique (logged : Logged program frames next awaited finished resumed)
    {first second : Outcome L} (left : (handle, first) ∈ finished)
    (right : (handle, second) ∈ finished) : first = second :=
  congrArg Prod.snd (List.inj_on_of_nodup_map logged.finishedOnce left right rfl)

theorem Logged.unresumed (logged : Logged program frames next awaited finished resumed)
    (found : frames handle = some frame) {entry : Resumed L} (member : entry ∈ resumed) :
    entry.child ≠ handle := by
  rintro rfl
  cases (logged.given entry member).1.symm.trans found

theorem Logged.setFrame (logged : Logged program frames next awaited finished resumed)
    (found : frames handle = some frame) {body : Body L} (code : frame.body = some body)
    (after : Frame L) {later : Body L} (goes : after.body = some later)
    (same : after.promise.continuation = frame.promise.continuation) :
    Logged program (Function.update frames handle (some after)) next awaited finished resumed := by
  have unfinished := logged.unfinished found code
  constructor
  · intro other held there
    by_cases here : other = handle
    · subst here
      rw [Function.update_self] at there
      cases there
      rw [goes]
      exact ⟨nofun, fun ⟨outcome, member⟩ => absurd member (unfinished outcome)⟩
    · rw [Function.update_of_ne here] at there
      exact logged.ended other held there
  · intro other outcome member held there
    have here : other ≠ handle := by
      rintro rfl
      exact unfinished outcome member
    rw [Function.update_of_ne here] at there
    exact logged.holds other outcome member held there
  · intro other parent held there link
    by_cases here : other = handle
    · subst here
      rw [Function.update_self] at there
      cases there
      exact logged.linked other parent frame found (same.symm.trans link)
    · rw [Function.update_of_ne here] at there
      exact logged.linked other parent held there link
  · intro parent child member
    obtain ⟨lt, alive | given⟩ := logged.waiting parent child member
    · obtain ⟨held, there, link⟩ := alive
      refine ⟨lt, .inl ?_⟩
      by_cases here : child = handle
      · subst here
        cases found.symm.trans there
        exact ⟨after, Function.update_self .., same.trans link⟩
      · exact ⟨held, (Function.update_of_ne here _ _).trans there, link⟩
    · exact ⟨lt, .inr given⟩
  · intro entry member
    obtain ⟨gone, rest⟩ := logged.given entry member
    exact ⟨(Function.update_of_ne (logged.unresumed found member) _ _).trans gone, rest⟩
  · exact logged.past
  · exact logged.finishedOnce
  · exact logged.resumedOnce
  · exact logged.awaitedOnce

theorem Logged.create (logged : Logged program frames next awaited finished resumed)
    (fresh : frames next = none) (created : Frame L) {body : Body L}
    (code : created.body = some body) {more : List (Handle × Handle)}
    (link : more = (created.promise.continuation.map fun parent => (parent, next)).toList) :
    Logged program (Function.update frames next (some created)) (next + 1) (awaited ++ more)
      finished resumed := by
  have older : ∀ {other : Handle}, other < next →
      Function.update frames next (some created) other = frames other :=
    fun lt => Function.update_of_ne (Nat.ne_of_lt lt) _ _
  constructor
  · intro other held there
    by_cases here : other = next
    · subst here
      rw [Function.update_self] at there
      cases there
      rw [code]
      exact ⟨nofun, fun ⟨_, member⟩ => absurd (logged.past _ member) (Nat.lt_irrefl _)⟩
    · rw [Function.update_of_ne here] at there
      exact logged.ended other held there
  · intro other outcome member held there
    rw [older (logged.past _ member)] at there
    exact logged.holds other outcome member held there
  · intro other parent held there linked
    by_cases here : other = next
    · subst here
      rw [Function.update_self] at there
      cases there
      apply List.mem_append_right
      rw [link, linked]
      exact List.mem_cons_self
    · rw [Function.update_of_ne here] at there
      exact List.mem_append_left _ (logged.linked other parent held there linked)
  · intro parent child member
    rcases List.mem_append.mp member with old | new
    · obtain ⟨lt, alive | given⟩ := logged.waiting parent child old
      · obtain ⟨held, there, link⟩ := alive
        exact ⟨Nat.lt_succ_of_lt lt, .inl ⟨held, (older lt).trans there, link⟩⟩
      · exact ⟨Nat.lt_succ_of_lt lt, .inr given⟩
    · rw [link, Option.mem_toList, Option.map_eq_some_iff] at new
      obtain ⟨_, continuation, same⟩ := new
      cases same
      exact ⟨Nat.lt_succ_self _, .inl ⟨created, Function.update_self .., continuation⟩⟩
  · intro entry member
    obtain ⟨gone, lt, ended, awaits⟩ := logged.given entry member
    exact ⟨(older lt).trans gone, Nat.lt_succ_of_lt lt, ended, List.mem_append_left _ awaits⟩
  · exact fun entry member => Nat.lt_succ_of_lt (logged.past entry member)
  · exact logged.finishedOnce
  · exact logged.resumedOnce
  · rw [List.map_append]
    refine List.nodup_append.mpr ⟨logged.awaitedOnce, ?_, ?_⟩
    · rw [link]
      cases created.promise.continuation with
      | none => exact List.nodup_nil
      | some parent => exact List.nodup_singleton _
    · intro other old _ new equal
      obtain ⟨⟨parent, child⟩, member, rfl⟩ := List.mem_map.mp old
      obtain ⟨⟨_, last⟩, added, rfl⟩ := List.mem_map.mp new
      rw [link, Option.mem_toList, Option.map_eq_some_iff] at added
      obtain ⟨_, _, same⟩ := added
      cases same
      exact absurd equal (Nat.ne_of_lt (logged.waiting parent child member).1)

theorem Logged.finish (logged : Logged program frames next awaited finished resumed)
    (found : frames handle = some frame) {body : Body L} (code : frame.body = some body)
    (lt : handle < next) (after : Frame L) {outcome : Outcome L} (ended : after.body = none)
    (done : after.done = true) (holds : after.promise.Holds (program after.fn) outcome)
    (same : after.promise.continuation = frame.promise.continuation) :
    Logged program (Function.update frames handle (some after)) next awaited
      (finished ++ [(handle, outcome)]) resumed := by
  have unfinished := logged.unfinished found code
  constructor
  · intro other held there
    by_cases here : other = handle
    · subst here
      rw [Function.update_self] at there
      cases there
      exact ⟨fun _ => ⟨outcome, List.mem_append_right _ List.mem_cons_self⟩, fun _ => ended⟩
    · rw [Function.update_of_ne here] at there
      rw [logged.ended other held there]
      constructor
      · exact fun ⟨outcome, member⟩ => ⟨outcome, List.mem_append_left _ member⟩
      · rintro ⟨outcome, member⟩
        rcases List.mem_append.mp member with old | new
        · exact ⟨outcome, old⟩
        · cases List.mem_singleton.mp new
          exact absurd rfl here
  · intro other result member held there
    rcases List.mem_append.mp member with old | new
    · have here : other ≠ handle := by
        rintro rfl
        exact unfinished result old
      rw [Function.update_of_ne here] at there
      exact logged.holds other result old held there
    · cases List.mem_singleton.mp new
      rw [Function.update_self] at there
      cases there
      exact ⟨done, holds⟩
  · intro other parent held there link
    by_cases here : other = handle
    · subst here
      rw [Function.update_self] at there
      cases there
      exact logged.linked other parent frame found (same.symm.trans link)
    · rw [Function.update_of_ne here] at there
      exact logged.linked other parent held there link
  · intro parent child member
    obtain ⟨lt, alive | given⟩ := logged.waiting parent child member
    · obtain ⟨held, there, link⟩ := alive
      refine ⟨lt, .inl ?_⟩
      by_cases here : child = handle
      · subst here
        cases found.symm.trans there
        exact ⟨after, Function.update_self .., same.trans link⟩
      · exact ⟨held, (Function.update_of_ne here _ _).trans there, link⟩
    · exact ⟨lt, .inr given⟩
  · intro entry member
    obtain ⟨gone, below, ended, awaits⟩ := logged.given entry member
    exact ⟨(Function.update_of_ne (logged.unresumed found member) _ _).trans gone, below,
      List.mem_append_left _ ended, awaits⟩
  · intro entry member
    rcases List.mem_append.mp member with old | new
    · exact logged.past entry old
    · cases List.mem_singleton.mp new
      exact lt
  · rw [List.map_append, List.map_singleton]
    refine List.nodup_append.mpr ⟨logged.finishedOnce, List.nodup_singleton _, ?_⟩
    intro other member _ new equal
    obtain ⟨⟨_, result⟩, old, rfl⟩ := List.mem_map.mp member
    cases List.mem_singleton.mp new
    cases equal
    exact unfinished result old
  · exact logged.resumedOnce
  · exact logged.awaitedOnce

theorem Logged.resume (logged : Logged program frames next awaited finished resumed)
    {child : Handle} {awaitedFrame : Frame L} (found : frames child = some awaitedFrame)
    (ended : awaitedFrame.body = none) {outcome : Outcome L}
    (holds : awaitedFrame.promise.Holds (program awaitedFrame.fn) outcome)
    (link : awaitedFrame.promise.continuation = some handle) :
    Logged program (Function.update frames child none) next awaited finished
      (resumed ++ [⟨handle, child, outcome⟩]) := by
  have member : (child, outcome) ∈ finished := by
    obtain ⟨other, member⟩ := (logged.ended child awaitedFrame found).mp ended
    exact (logged.holds child other member awaitedFrame found).2.unique holds ▸ member
  have alive : ∀ other held, Function.update frames child none other = some held →
      other ≠ child ∧ frames other = some held := by
    intro other held there
    by_cases here : other = child
    · subst here
      rw [Function.update_self] at there
      cases there
    · exact ⟨here, (Function.update_of_ne here _ _).symm.trans there⟩
  constructor
  · exact fun other held there => logged.ended other held (alive other held there).2
  · exact fun other result member held there =>
      logged.holds other result member held (alive other held there).2
  · exact fun other parent held there => logged.linked other parent held (alive other held there).2
  · intro parent other member
    obtain ⟨lt, alive | ⟨result, given⟩⟩ := logged.waiting parent other member
    · obtain ⟨held, there, continuation⟩ := alive
      refine ⟨lt, ?_⟩
      by_cases here : other = child
      · subst here
        cases found.symm.trans there
        cases link.symm.trans continuation
        exact .inr ⟨outcome, List.mem_append_right _ List.mem_cons_self⟩
      · exact .inl ⟨held, (Function.update_of_ne here _ _).trans there, continuation⟩
    · exact ⟨lt, .inr ⟨result, List.mem_append_left _ given⟩⟩
  · intro entry given
    rcases List.mem_append.mp given with old | new
    · obtain ⟨gone, rest⟩ := logged.given entry old
      exact ⟨(Function.update_of_ne (logged.unresumed found old) _ _).trans gone, rest⟩
    · cases List.mem_singleton.mp new
      exact ⟨Function.update_self .., logged.past _ member, member,
        logged.linked child handle awaitedFrame found link⟩
  · exact logged.past
  · exact logged.finishedOnce
  · rw [List.map_append, List.map_singleton]
    refine List.nodup_append.mpr ⟨logged.resumedOnce, List.nodup_singleton _, ?_⟩
    intro other old _ new equal
    obtain ⟨entry, member, rfl⟩ := List.mem_map.mp old
    cases List.mem_singleton.mp new
    exact logged.unresumed found member equal
  · exact logged.awaitedOnce

end

/-! ## Runs -/

def World.Logged (program : L.Fn → Routine L) (s : World L) : Prop :=
  Task.Logged program s.frames s.next s.awaited s.finished s.resumed

theorem World.Logged.step {s t : World L} (logged : s.Logged program)
    (refines : Refines program s) (moves : Moves program s t) : t.Logged program := by
  cases moves with
  | returns => exact logged
  | goes native found runs code turn => exact Task.Logged.setFrame logged found code _ rfl rfl
  | waits native found runs code turn => exact Task.Logged.setFrame logged found code _ code rfl
  | @calls handle frame rest body callee env resume native found runs code turn fresh =>
    have apart : s.next ≠ handle := by
      rintro rfl
      cases fresh.symm.trans found
    have suspended := Task.Logged.setFrame logged found code
      { frame with point := some (.await s.next) } code rfl
    exact suspended.create ((Function.update_of_ne apart _ _).trans fresh) _ rfl rfl
  | ends native found runs code turn =>
    obtain ⟨task, member, mine⟩ := refines.owned _ _ found
    obtain ⟨handles, stack, traced⟩ := refines.traced task member
    obtain ⟨value, exception⟩ := traced.unset native found mine.symm runs
    exact Task.Logged.finish logged found code (refines.lt_next found) _ rfl rfl
      (Promise.holds_leave value exception _ _) (Promise.leave_continuation ..)
  | completes native found runs code turn =>
    obtain ⟨task, member, mine⟩ := refines.owned _ _ found
    obtain ⟨handles, stack, traced⟩ := refines.traced task member
    obtain ⟨value, exception⟩ := traced.unset native found mine.symm runs
    exact Task.Logged.finish logged found code (refines.lt_next found) _ rfl rfl
      (Promise.holds_leave value exception _ _) (Promise.leave_continuation ..)
  | @resumes handle child _ _ _ _ _ _ _ _ native found point code turn awaitedFound carries linked later =>
    cases carries with
    | ended ended done holds =>
      have taken := Task.Logged.resume logged awaitedFound ended holds linked
      have still := (Function.update_of_ne (Nat.ne_of_lt later) none s.frames).trans found
      exact taken.setFrame still code _ rfl rfl

theorem World.Logged.of_step {s t : World L} {a : Act L} (logged : s.Logged program)
    (refines : Refines program s) (step : (machine program).step s a = some t) :
    t.Logged program := by
  cases a with
  | spawn fn env =>
    obtain ⟨idle, spawns⟩ := Option.ite_none_right_eq_some.mp step
    rw [World.spawn_eq] at spawns
    cases spawns
    let root : Frame L :=
      { fn, task := s.next, promise := .empty, point := none, body := some ((program fn).enter env) }
    have created := Task.Logged.create logged (refines.fresh s.next (Nat.le_refl _)) root rfl rfl
    rw [show (Option.map _ root.promise.continuation).toList = [] from rfl, List.append_nil]
      at created
    exact created
  | deliver handle reply =>
    obtain ⟨idle, delivers⟩ := Option.ite_none_right_eq_some.mp step
    obtain ⟨frame, body, event, expected, resume, found, point, code, turn, rfl⟩ :=
      World.deliver_eq_some delivers
    exact Task.Logged.setFrame logged found code _ rfl rfl
  | tick => exact logged.step refines (refines.moves_of_tick step)

theorem boot_logged : (World.boot L).Logged program :=
  ⟨nofun, nofun, nofun, nofun, nofun, nofun, List.nodup_nil, List.nodup_nil, List.nodup_nil⟩

theorem logged_of_reachable {s : World L} (reached : (machine program).Reachable s) :
    s.Logged program := by
  have initial : ∀ s, (machine program).start s → Refines program s ∧ s.Logged program :=
    fun _ start => start ▸ ⟨boot_refines, boot_logged⟩
  have preserves : ∀ s a t, Refines program s ∧ s.Logged program → True →
      (machine program).step s a = some t → Refines program t ∧ t.Logged program :=
    fun _ _ _ ⟨refines, logged⟩ _ step => ⟨refines.of_step step, logged.of_step refines step⟩
  exact (reached.invariant initial preserves).2

end CoroEpoll.Task
