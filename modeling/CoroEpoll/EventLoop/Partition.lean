import CoroEpoll.EventLoop.Resumption
import Mathlib.Data.List.Nodup

/-! Every handle passed to `add_interest` is in one place, until a second coroutine
waits for the same direction of the same descriptor.
-/

set_option autoImplicit false

namespace CoroEpoll.Reactor

variable {K Ev Env : Type} {B : Backend K Ev Env}

inductive Place where
  | table (fd : Fd) (d : Direction)
  /-- in a local variable of the dispatch in progress -/
  | dispatch
  | resumed

def World.holds (s : World K Ev) (w : Waiter) : Place → Prop
  | .table fd d => s.loop.slot fd d = some w
  | .dispatch => w ∈ s.hand
  | .resumed => w ∈ s.resumed

/-- The handles passed to `add_interest` are those in the table and those resumed, each
once. While a dispatch is between two resumes, the handles it still has to resume are
accounted to it. -/
structure Partition (s : World K Ev) : Prop where
  passed : ∀ w place, s.holds w place → w ∈ s.passed
  unique : ∀ w ∈ s.passed, ∃! place, s.holds w place
  distinct : s.passed.Nodup
  once : s.resumed.Nodup
  idle : s.phase = .drain ∨ s.phase = .waiting ∨ s.phase = .batch → ∀ w, ¬ s.holds w .dispatch

structure Settled (s : World K Ev) : Prop where
  numbered : ∀ (i : Nat) (w : Waiter), s.passed[i]? = some w → w.serial = i
  passed : ∀ w ∈ s.resumed, s.passed[w.serial]? = some w
  once : s.resumed.Nodup
  slot : ∀ w ∈ s.resumed, ∀ fd d, s.loop.slot fd d ≠ some w
  hand : ∀ w ∈ s.resumed, w ∉ s.hand

def Kept (s : World K Ev) : Prop := ∀ w ∈ s.passed, ∃ place, s.holds w place

theorem start_settled {s : World K Ev} (start : Start B s) : Settled s where
  numbered i w found := by simp [start.passed] at found
  passed w member := by simp [start.resumed] at member
  once := start.resumed ▸ List.nodup_nil
  slot w member := by simp [start.resumed] at member
  hand w member := by simp [start.resumed] at member

theorem numbered_waiter {s : World K Ev} (settled : Settled s) (f : Nat) (fd : Fd) (d : Direction)
    (i : Nat) (w : Waiter) (found : (s.passed ++ [s.waiter B f fd d])[i]? = some w) :
    w.serial = i := by
  rcases Nat.lt_trichotomy i s.passed.length with before | rfl | after
  · rw [List.getElem?_append_left before] at found
    exact settled.numbered i w found
  · simp only [List.getElem?_concat_length, Option.some.injEq] at found
    subst found
    rfl
  · rw [List.getElem?_eq_none (by simp; omega)] at found
    cases found

theorem Settled.same {s t : World K Ev} (settled : Settled s)
    (slots : ∀ fd d, t.loop.slot fd d = s.loop.slot fd d) (hand : t.hand.Sublist s.hand)
    (passed : t.passed = s.passed) (resumed : t.resumed = s.resumed) : Settled t where
  numbered := by
    rw [passed]
    exact settled.numbered
  passed w member := by
    rw [passed]
    exact settled.passed w (resumed ▸ member)
  once := resumed ▸ settled.once
  slot w member fd d := by
    rw [slots]
    exact settled.slot w (resumed ▸ member) fd d
  hand w member held := settled.hand w (resumed ▸ member) (hand.subset held)

theorem step_settled (lawful : B.Lawful) {s t : World K Ev} {a : Act Ev Env}
    (linked : Linked s) (settled : Settled s) (step : step B s a = some t) : Settled t := by
  cases step_move lawful step with
  | quiet _ slots hand _ passed resumed =>
    exact settled.same slots (hand ▸ List.Sublist.refl _) passed resumed
  | destroyed f _ _ slots hand _ passed resumed =>
    exact settled.same slots (hand ▸ List.Sublist.refl _) passed resumed
  | registered f fd d et _ _ _ slots hand _ passed resumed =>
    refine ⟨?_, ?_, resumed ▸ settled.once, ?_, by simpa only [hand, resumed] using settled.hand⟩
    · rw [passed]
      exact numbered_waiter settled f fd d
    · intro w member
      rw [passed]
      exact getElem?_passed (settled.passed w (resumed ▸ member)) _
    · intro w member fd' d' stored
      rw [resumed] at member
      rw [slots] at stored
      split at stored
      · exact waiter_fresh (settled.passed w member) f fd d (Option.some.inj stored).symm
      · exact settled.slot w member fd' d' stored
  | refused f fd d et error _ _ slots _ hand _ passed resumed =>
    refine ⟨?_, ?_, resumed ▸ settled.once, ?_, by simpa only [hand, resumed] using settled.hand⟩
    · rw [passed]
      exact numbered_waiter settled f fd d
    · intro w member
      rw [passed]
      exact getElem?_passed (settled.passed w (resumed ▸ member)) _
    · intro w member fd' d' stored
      rw [resumed] at member
      rcases slots fd' d' w stored with old | ⟨_, _, _, _, _, same⟩
      · exact settled.slot w member fd' d' old
      · exact waiter_fresh (settled.passed w member) f fd d same
  | removed fd _ slots hand _ passed resumed =>
    refine ⟨by simpa only [passed] using settled.numbered,
      by simpa only [passed, resumed] using settled.passed, resumed ▸ settled.once, ?_,
      by simpa only [hand, resumed] using settled.hand⟩
    intro w member fd' d' stored
    rw [slots] at stored
    split at stored
    · cases stored
    · exact settled.slot w (resumed ▸ member) fd' d' stored
  | took report rest _ phase _ _ slots hand _ passed resumed =>
    refine ⟨by simpa only [passed] using settled.numbered,
      by simpa only [passed, resumed] using settled.passed, resumed ▸ settled.once, ?_, ?_⟩
    · intro w member fd' d' stored
      rw [slots] at stored
      split at stored
      · cases stored
      · exact settled.slot w (resumed ▸ member) fd' d' stored
    · intro w member held
      rcases hand with taken | ⟨same, _⟩
      · obtain ⟨d, _, stored⟩ := EventLoop.mem_taken.mp (taken ▸ held)
        exact settled.slot w (resumed ▸ member) _ d stored
      · exact settled.hand w (resumed ▸ member) (same ▸ held)
  | gave w rest removed _ held _ slots hand _ passed resumed =>
    have head : w ∈ s.hand := held ▸ List.mem_cons_self
    have within := sublist_hand held hand
    refine ⟨by simpa only [passed] using settled.numbered, ?_, ?_, ?_, ?_⟩
    · intro w' member
      rw [passed]
      rcases List.mem_append.mp (resumed ▸ member) with before | now
      · exact settled.passed w' before
      · rw [List.mem_singleton.mp now]
        exact linked.hand w head
    · rw [resumed]
      refine settled.once.append (List.nodup_singleton w) ?_
      intro w' before now
      rw [List.mem_singleton.mp now] at before
      exact settled.hand w before head
    · intro w' member fd d stored
      rw [slots] at stored
      rcases List.mem_append.mp (resumed ▸ member) with before | now
      · exact settled.slot w' before fd d stored
      · rw [List.mem_singleton.mp now] at stored
        exact linked.apart w head fd d stored
    · intro w' member held'
      rcases List.mem_append.mp (resumed ▸ member) with before | now
      · exact settled.hand w' before (within.subset held')
      · rw [List.mem_singleton.mp now, hand] at held'
        exact (List.nodup_cons.mp (held ▸ linked.nodup)).1 held'
  | faulted w rest _ held _ slots hand _ passed resumed =>
    exact settled.same slots (sublist_hand held hand) passed resumed

def Succeeds (B : Backend K Ev Env) (s : World K Ev) : Act Ev Env → Prop
  | .wait f fd d et => (B.awaitSuspend fd d et (s.waiter B f fd d) s.loop).2 = none
  | .dispatch => ∀ report ∈ s.batch.head?, (B.dispatch report.event s.loop).2.failed = false
  | .remove _ | .close _ | .closeServer _ => False
  | .destroy f => s.frames f = .active
  | _ => True

/-- Nobody is waiting yet for the direction of the descriptor that a wait asks for. -/
def SlotFree (s : World K Ev) : Act Ev Env → Prop
  | .wait _ fd d _ => s.loop.slot fd d = none
  | _ => True

theorem partition_iff_kept {s : World K Ev} (shape : Shape s) (linked : Linked s)
    (settled : Settled s) : Partition s ↔ Kept s := by
  constructor
  · intro partition w member
    exact (partition.unique w member).exists
  · intro kept
    -- a handle knows its slot, and the three kinds of places exclude each other
    have elsewhere : ∀ w place place', s.holds w place → s.holds w place' → place' = place := by
      intro w place place' first second
      cases place with
      | table fd d =>
        cases place' with
        | table fd' d' =>
          obtain ⟨onFd, onDirection, _⟩ := linked.slot fd d w first
          obtain ⟨onFd', onDirection', _⟩ := linked.slot fd' d' w second
          subst onFd onDirection onFd' onDirection'
          rfl
        | dispatch => exact absurd first (linked.apart w second fd d)
        | resumed => exact absurd first (settled.slot w second fd d)
      | dispatch =>
        cases place' with
        | table fd d => exact absurd second (linked.apart w first fd d)
        | dispatch => rfl
        | resumed => exact absurd first (settled.hand w second)
      | resumed =>
        cases place' with
        | table fd d => exact absurd second (settled.slot w first fd d)
        | dispatch => exact absurd second (settled.hand w first)
        | resumed => rfl
    refine ⟨?_, ?_, ?_, settled.once, ?_⟩
    · intro w place held
      cases place with
      | table fd d => exact List.mem_of_getElem? (linked.slot fd d w held).2.2.2
      | dispatch => exact List.mem_of_getElem? (linked.hand w held)
      | resumed => exact List.mem_of_getElem? (settled.passed w held)
    · intro w member
      obtain ⟨place, held⟩ := kept w member
      exact ⟨place, held, fun place' held' => elsewhere w place place' held held'⟩
    -- every handle has its position as its serial number
    · rw [List.nodup_iff_getElem?_ne_getElem?]
      intro i j less bound same
      have left := settled.numbered i _ (List.getElem?_eq_getElem (Nat.lt_trans less bound))
      have right := settled.numbered j _ (List.getElem?_eq_getElem bound)
      rw [List.getElem?_eq_getElem (Nat.lt_trans less bound), List.getElem?_eq_getElem bound,
        Option.some.injEq] at same
      rw [same] at left
      omega
    · intro phase w held
      rw [World.holds, shape.hand phase] at held
      cases held

theorem holds_quiet {s t : World K Ev} (slots : ∀ fd d, t.loop.slot fd d = s.loop.slot fd d)
    (hand : t.hand = s.hand) (resumed : t.resumed = s.resumed) (w : Waiter) (place : Place) :
    t.holds w place ↔ s.holds w place := by
  cases place with
  | table fd d => simp only [World.holds, slots]
  | dispatch => simp only [World.holds, hand]
  | resumed => simp only [World.holds, resumed]

theorem step_kept_iff (lawful : B.Lawful) {s t : World K Ev} {a : Act Ev Env} (sound : Sound s)
    (settled : Settled s) (kept : Kept s) (succeeds : Succeeds B s a)
    (step : step B s a = some t) : Kept t ↔ SlotFree s a := by
  cases step_move lawful step with
  | quiet spares slots hand _ passed resumed =>
    have free : SlotFree s a := by
      cases a with
      | wait f fd d et => cases spares
      | _ => trivial
    simp only [Kept, passed, holds_quiet slots hand resumed, free, iff_true]
    exact kept
  | destroyed f act _ slots hand _ passed resumed =>
    subst act
    simp only [Kept, passed, holds_quiet slots hand resumed, SlotFree, iff_true]
    exact kept
  | registered f fd d et act _ _ slots hand _ passed resumed =>
    subst act
    constructor
    · -- the waiter found in the slot is overwritten and has no other place
      intro keptAfter
      cases found : s.loop.slot fd d with
      | none => exact found
      | some w =>
        obtain ⟨onFd, onDirection, _, before⟩ := sound.linked.slot fd d w found
        obtain ⟨place, held⟩ := keptAfter w (by simp [passed, List.mem_of_getElem? before])
        cases place with
        | table fd' d' =>
          rw [World.holds, slots] at held
          split at held
          · exact absurd (Option.some.inj held).symm (waiter_fresh before f fd d)
          · rename_i away
            obtain ⟨onFd', onDirection', _⟩ := sound.linked.slot fd' d' w held
            exact absurd ⟨onFd'.symm.trans onFd, onDirection'.symm.trans onDirection⟩ away
        | dispatch => exact absurd found (sound.linked.apart w (hand ▸ held) fd d)
        | resumed => exact absurd found (settled.slot w (resumed ▸ held) fd d)
    · intro free w member
      rcases List.mem_append.mp (passed ▸ member) with before | now
      · obtain ⟨place, held⟩ := kept w before
        refine ⟨place, ?_⟩
        cases place with
        | table fd' d' =>
          rw [World.holds, slots, if_neg]
          · exact held
          · rintro ⟨rfl, rfl⟩
            rw [World.holds, show s.loop.slot fd' d' = none from free] at held
            cases held
        | dispatch =>
          rw [World.holds, hand]
          exact held
        | resumed =>
          rw [World.holds, resumed]
          exact held
      · refine ⟨.table fd d, ?_⟩
        rw [World.holds, slots, if_pos ⟨rfl, rfl⟩, List.mem_singleton.mp now]
  | refused f fd d et error act threw _ _ _ _ _ _ =>
    subst act
    rw [show (B.awaitSuspend fd d et (s.waiter B f fd d) s.loop).2 = none from succeeds] at threw
    cases threw
  | removed fd act _ _ _ _ _ => rcases act with rfl | rfl | rfl <;> exact succeeds.elim
  | took report rest act phase batch _ slots hand _ passed resumed =>
    subst act
    simp only [SlotFree, iff_true]
    -- the dispatch has not thrown, so that the handles it took are in hand
    have taken : t.hand = s.loop.taken (B.eventFd report.event) (B.covers report.event) := by
      rcases hand with taken | ⟨_, error, threw⟩
      · exact taken
      · have fine := succeeds report (by simp [batch])
        rw [threw] at fine
        cases fine
    intro w member
    obtain ⟨place, held⟩ := kept w (passed ▸ member)
    cases place with
    | table fd d =>
      by_cases covered : fd = B.eventFd report.event ∧ B.covers report.event d = true
      · refine ⟨.dispatch, ?_⟩
        rw [World.holds, taken]
        exact EventLoop.mem_taken.mpr ⟨d, covered.2, covered.1 ▸ held⟩
      · refine ⟨.table fd d, ?_⟩
        rw [World.holds, slots, if_neg covered]
        exact held
    | dispatch =>
      rw [World.holds, sound.shape.hand (Or.inr (Or.inr phase))] at held
      cases held
    | resumed =>
      refine ⟨.resumed, ?_⟩
      rw [World.holds, resumed]
      exact held
  | gave w rest removed act held _ slots hand _ passed resumed =>
    subst act
    simp only [SlotFree, iff_true]
    intro w' member
    obtain ⟨place, before⟩ := kept w' (passed ▸ member)
    cases place with
    | table fd d => exact ⟨.table fd d, (slots fd d).trans before⟩
    | dispatch =>
      rw [World.holds, held] at before
      rcases List.mem_cons.mp before with rfl | later
      · exact ⟨.resumed, by simp [World.holds, resumed]⟩
      · exact ⟨.dispatch, by rw [World.holds, hand]; exact later⟩
    | resumed => exact ⟨.resumed, by simp [World.holds, resumed, show w' ∈ s.resumed from before]⟩
  -- a dispatch resumes suspended coroutines only
  | faulted w rest _ held stray _ _ _ _ _ =>
    obtain ⟨removed, suspended⟩ := sound.live.hand w (held ▸ List.mem_cons_self)
    exact absurd suspended (stray removed)

theorem Succeeds.sound (code : Implemented B) {s : World K Ev} (inv : Sound s ∧ Settled s)
    {a : Act Ev Env} (succeeds : Succeeds B s a) {t : World K Ev} (step : step B s a = some t) :
    Sound t ∧ Settled t := by
  obtain ⟨sound, settled⟩ := inv
  have clean : Clean B s a := by
    cases a with
    | wait f fd d et => exact fun _ _ => succeeds
    | _ => trivial
  have spares : SparesHand s a := by
    cases a with
    | destroy f =>
      rintro w member rfl
      obtain ⟨removed, suspended⟩ := sound.live.hand w member
      rw [show s.frames w.frame = .active from succeeds] at suspended
      cases suspended
    | _ => trivial
  exact ⟨step_sound code.lawful sound clean spares step,
    step_settled code.lawful sound.linked settled step⟩

theorem succeeds_sound (code : Implemented B) {s : World K Ev}
    (reached : (machine B).ReachableWhere (Succeeds B) s) : Sound s ∧ Settled s := by
  have preserves : ∀ s a t, Sound s ∧ Settled s → Succeeds B s a →
      (machine B).step s a = some t → Sound t ∧ Settled t :=
    fun _ _ _ inv met step => met.sound code inv step
  exact reached.invariant (fun _ start => ⟨start_sound start, start_settled start⟩) preserves

/-- Along a run of successful waits and dispatches the handles passed to `add_interest`
stay partitioned exactly as long as nobody waits for a slot that is taken. -/
theorem partition_iff_slots_free (code : Implemented B) {s t : World K Ev}
    {actions : List (Act Ev Env)} (start : Start B s)
    (succeeds : (machine B).Each (Succeeds B) s actions)
    (replay : (machine B).exec s actions = some t) :
    (machine B).Throughout Partition s actions ↔ (machine B).Each SlotFree s actions := by
  have inv : Sound s ∧ Settled s := ⟨start_sound start, start_settled start⟩
  have exact_step : ∀ s a t, Sound s ∧ Settled s → Partition s → Succeeds B s a →
      (machine B).step s a = some t → (Partition t ↔ SlotFree s a) := by
    intro s a t inv partition met step
    obtain ⟨sound, settled⟩ := met.sound code inv step
    rw [partition_iff_kept sound.shape sound.linked settled]
    exact step_kept_iff code.lawful inv.1 inv.2
      ((partition_iff_kept inv.1.shape inv.1.linked inv.2).mp partition) met step
  have holds : Partition s :=
    (partition_iff_kept inv.1.shape inv.1.linked inv.2).mpr (by simp [Kept, start.passed])
  exact Transition.Machine.throughout_iff_each (fun _ _ _ inv met step => met.sound code inv step)
    exact_step inv holds succeeds replay

instance (s : World K Ev) : ∀ a : Act Ev Env, Decidable (Succeeds B s a)
  | .wait f fd d et =>
    inferInstanceAs (Decidable ((B.awaitSuspend fd d et (s.waiter B f fd d) s.loop).2 = none))
  | .dispatch => inferInstanceAs (Decidable
      (∀ report ∈ s.batch.head?, (B.dispatch report.event s.loop).2.failed = false))
  | .remove _ | .close _ | .closeServer _ => isFalse id
  | .destroy f => inferInstanceAs (Decidable (s.frames f = .active))
  | .openFd _ | .change _ | .block | .wake _ | .interrupted | .resume | .suspend => isTrue trivial

theorem partition_iff_slots_free_readWrite :
    (machine epoll).Throughout Partition epollBoot
        (resumedReader (EPOLLIN ||| EPOLLOUT) ++ [.suspend, .resume]) ↔
      (machine epoll).Each SlotFree epollBoot
        (resumedReader (EPOLLIN ||| EPOLLOUT) ++ [.suspend, .resume]) := by
  have runs : ((machine epoll).exec epollBoot
      (resumedReader (EPOLLIN ||| EPOLLOUT) ++ [.suspend, .resume])).isSome = true := by decide
  obtain ⟨s, replay⟩ := Option.isSome_iff_exists.mp runs
  exact partition_iff_slots_free (.linux Epoll.api Epoll.system) epollBoot_start (by decide) replay

/-- Two `async_send_to` calls that meet EAGAIN on one socket. -/
def twoSenders : List (Act EpollEvent Epoll.Change) :=
  [.openFd 5, .wait 0 5 .write false, .wait 1 5 .write false]

/-- The second sender overwrites the handle of the first. -/
theorem second_sender_discards_first : ¬ ∀ actions s,
    (machine epoll).Each (Succeeds epoll) epollBoot actions →
      (machine epoll).exec epollBoot actions = some s → Partition s := by
  intro always
  have run : ((machine epoll).exec epollBoot twoSenders).map
      (fun s => (s.passed.head?, s.loop.slot 5 .write, s.hand, s.resumed)) =
      some (some ⟨0, 0, 5, .write, some 1⟩, some ⟨1, 1, 5, .write, some 1⟩, [], []) := by decide
  have succeeds : (machine epoll).Each (Succeeds epoll) epollBoot twoSenders := by decide
  obtain ⟨s, replay, final⟩ := Option.map_eq_some_iff.mp run
  simp only [Prod.mk.injEq] at final
  obtain ⟨first, slot, hand, resumed⟩ := final
  have inv := succeeds_sound (.linux Epoll.api Epoll.system)
    (.exec (.start epollBoot_start) succeeds replay)
  obtain ⟨place, held⟩ := ((always twoSenders s succeeds replay).unique _
    (List.mem_of_mem_head? first)).exists
  cases place with
  | table fd d =>
    obtain ⟨rfl, rfl, _⟩ := inv.1.linked.slot fd d _ held
    rw [World.holds, slot] at held
    cases held
  | dispatch =>
    rw [World.holds, hand] at held
    cases held
  | resumed =>
    rw [World.holds, resumed] at held
    cases held

end CoroEpoll.Reactor
