import CoroEpoll.EventLoop.Partition

/-! Which suspended coroutines can still be resumed. Deregistering a descriptor drops the
handles of the coroutines that wait on it.
-/

set_option autoImplicit false

namespace CoroEpoll.Reactor

variable {K Ev Env : Type} {B : Backend K Ev Env}

def World.keeps (s : World K Ev) (w : Waiter) : Prop :=
  s.loop.slot w.fd w.direction = some w ∨ w ∈ s.hand

def World.suspends (s : World K Ev) (w : Waiter) : Prop :=
  ∃ removed, s.frames w.frame = .suspended w removed

/-- `t` keeps the handles kept by `s`, save those of coroutines that are being destroyed. -/
def Spares (dying : Nat → Prop) (s t : World K Ev) : Prop :=
  ∀ w, s.keeps w → s.suspends w → ¬ dying w.frame → t.keeps w

def NoneDropped (B : Backend K Ev Env) (dying : Nat → Prop) (s : World K Ev) : Act Ev Env → Prop
  | .remove fd => Spares dying s (s.deregister B fd)
  | .close fd => Spares dying s ((s.deregister B fd).closeFd B fd)
  | .closeServer fd => Spares dying s ((s.closeFd B fd).deregister B fd)
  | _ => True

/-- A descriptor is deregistered only when every coroutine waiting on it is being
destroyed. -/
def NoneWaiting (dying : Nat → Prop) (s : World K Ev) : Act Ev Env → Prop
  | .remove fd | .close fd | .closeServer fd =>
    ∀ w ∈ s.loop.waiters fd, s.suspends w → dying w.frame
  | _ => True

theorem spares_iff {dying : Nat → Prop} {s t : World K Ev} (linked : Linked s) {fd : Fd}
    (slots : ∀ fd' d, t.loop.slot fd' d = if fd' = fd ∧ 0 ≤ fd then none else s.loop.slot fd' d)
    (hand : t.hand = s.hand) :
    Spares dying s t ↔ ∀ w ∈ s.loop.waiters fd, s.suspends w → dying w.frame := by
  constructor
  · intro spares w waiting suspended
    obtain ⟨d, stored⟩ := EventLoop.mem_waiters.mp waiting
    obtain ⟨rfl, rfl, valid, _⟩ := linked.slot fd d w stored
    by_contra alive
    rcases spares w (Or.inl stored) suspended alive with kept | held
    · rw [slots, if_pos ⟨rfl, valid⟩] at kept
      cases kept
    · exact linked.apart w (hand ▸ held) w.fd w.direction stored
  · intro none w kept suspended alive
    rcases kept with stored | held
    · refine Or.inl ?_
      rw [slots, if_neg]
      · exact stored
      · rintro ⟨rfl, _⟩
        exact alive (none w (EventLoop.mem_waiters.mpr ⟨_, stored⟩) suspended)
    · exact Or.inr (hand ▸ held)

theorem noneDropped_iff (lawful : B.Lawful) {dying : Nat → Prop} {s : World K Ev}
    (linked : Linked s) (a : Act Ev Env) : NoneDropped B dying s a ↔ NoneWaiting dying s a := by
  cases a with
  | remove fd => exact spares_iff linked (lawful.remove_slot fd s.loop) rfl
  | close fd => exact spares_iff linked (lawful.remove_slot fd s.loop) rfl
  | closeServer fd =>
    exact spares_iff linked (fun fd' d => lawful.remove_slot fd (s.closeFd B fd).loop fd' d) rfl
  | _ => exact Iff.rfl

def NoOrphan (dying : Nat → Prop) (s : World K Ev) : Prop :=
  ∀ w, s.suspends w → ¬ dying w.frame → s.keeps w

/-- Steps that lose no handle by themselves: waits succeed on a free slot, dispatches do
not throw, and no coroutine is destroyed whose handle a dispatch holds. -/
def Careful (B : Backend K Ev Env) (s : World K Ev) : Act Ev Env → Prop
  | .wait f fd d et =>
    (B.awaitSuspend fd d et (s.waiter B f fd d) s.loop).2 = none ∧ s.loop.slot fd d = none
  | .dispatch => ∀ report ∈ s.batch.head?, (B.dispatch report.event s.loop).2.failed = false
  | .destroy f => ∀ w ∈ s.hand, w.frame ≠ f
  | _ => True

theorem Careful.sound (lawful : B.Lawful) {s t : World K Ev} {a : Act Ev Env} (sound : Sound s)
    (careful : Careful B s a) (step : step B s a = some t) : Sound t := by
  have clean : Clean B s a := by
    cases a with
    | wait f fd d et => exact fun _ _ => careful.1
    | _ => trivial
  have spares : SparesHand s a := by
    cases a with
    | destroy f => exact careful
    | _ => trivial
  exact step_sound lawful sound clean spares step

theorem suspends_deregister {s t : World K Ev} {fd : Fd}
    (frames : ∀ f, t.frames f = (s.frames f).deregister fd) (w : Waiter) :
    t.suspends w ↔ s.suspends w := by
  unfold World.suspends
  rw [frames]
  cases s.frames w.frame <;> simp [Frame.deregister]

theorem step_noOrphan_iff (lawful : B.Lawful) {dying : Nat → Prop} {s t : World K Ev}
    {a : Act Ev Env} (sound : Sound s) (noOrphan : NoOrphan dying s) (careful : Careful B s a)
    (step : step B s a = some t) : NoOrphan dying t ↔ NoneWaiting dying s a := by
  cases step_move lawful step with
  | quiet spares slots hand frames _ _ =>
    have none : NoneWaiting dying s a := by
      cases a with
      | remove fd | close fd | closeServer fd => cases spares
      | _ => trivial
    simp only [NoOrphan, World.suspends, World.keeps, slots, hand, frames, none, iff_true]
    exact noOrphan
  | removed fd act slots hand frames _ _ =>
    have waiting : NoneWaiting dying s a ↔ Spares dying s t := by
      rw [spares_iff sound.linked slots hand]
      rcases act with rfl | rfl | rfl <;> exact Iff.rfl
    rw [waiting]
    constructor
    · intro after w kept suspended alive
      exact after w ((suspends_deregister frames w).mpr suspended) alive
    · intro spares w suspended alive
      have before := (suspends_deregister frames w).mp suspended
      exact spares w (noOrphan w before alive) before alive
  | registered f fd d et act active _ slots hand frames _ _ =>
    subst act
    simp only [NoneWaiting, iff_true]
    rintro w ⟨removed, suspended⟩ alive
    by_cases same : w.frame = f
    · rw [frames, same, Function.update_self] at suspended
      cases suspended
      exact Or.inl ((slots _ _).trans (if_pos ⟨rfl, rfl⟩))
    · rw [frames, Function.update_of_ne same] at suspended
      rcases noOrphan w ⟨removed, suspended⟩ alive with stored | held
      · refine Or.inl ((slots _ _).trans ((if_neg ?_).trans stored))
        rintro ⟨onFd, onDirection⟩
        rw [onFd, onDirection, careful.2] at stored
        cases stored
      · exact Or.inr (hand ▸ held)
  | refused f fd d et error act threw _ _ _ _ _ _ =>
    subst act
    rw [careful.1] at threw
    cases threw
  | destroyed f act _ slots hand frames _ _ =>
    subst act
    simp only [NoneWaiting, iff_true]
    rintro w ⟨removed, suspended⟩ alive
    have other : w.frame ≠ f := by
      rintro rfl
      rw [frames, Function.update_self] at suspended
      cases suspended
    rw [frames, Function.update_of_ne other] at suspended
    rcases noOrphan w ⟨removed, suspended⟩ alive with stored | held
    · exact Or.inl ((slots _ _).trans stored)
    · exact Or.inr (hand ▸ held)
  | took report rest act phase batch _ slots hand frames _ _ =>
    subst act
    simp only [NoneWaiting, iff_true]
    have taken : t.hand = s.loop.taken (B.eventFd report.event) (B.covers report.event) := by
      rcases hand with taken | ⟨_, error, threw⟩
      · exact taken
      · have fine := careful report (by simp [batch])
        rw [threw] at fine
        cases fine
    intro w suspended alive
    unfold World.suspends at suspended
    rw [frames] at suspended
    rcases noOrphan w suspended alive with stored | held
    · by_cases covered : w.fd = B.eventFd report.event ∧ B.covers report.event w.direction = true
      · refine Or.inr ?_
        rw [taken]
        exact EventLoop.mem_taken.mpr ⟨w.direction, covered.2, covered.1 ▸ stored⟩
      · exact Or.inl ((slots _ _).trans ((if_neg covered).trans stored))
    · rw [sound.shape.hand (Or.inr (Or.inr phase))] at held
      cases held
  | gave w rest removed act held before slots hand frames _ _ =>
    subst act
    simp only [NoneWaiting, iff_true]
    rintro w' ⟨removed', suspended⟩ alive
    have other : w'.frame ≠ w.frame := by
      intro same
      rw [frames, same, Function.update_self] at suspended
      cases suspended
    rw [frames, Function.update_of_ne other] at suspended
    rcases noOrphan w' ⟨removed', suspended⟩ alive with stored | member
    · exact Or.inl ((slots _ _).trans stored)
    · rw [held] at member
      rcases List.mem_cons.mp member with rfl | later
      · exact absurd rfl other
      · exact Or.inr (hand ▸ later)
  | faulted w rest _ held stray _ _ _ _ _ =>
    obtain ⟨removed, suspended⟩ := sound.live.hand w (held ▸ List.mem_cons_self)
    exact absurd suspended (stray removed)

/-- In every run, the calls that deregister a descriptor drop no coroutine exactly when
nobody waits on the descriptor that is not being destroyed. Where nothing else loses a
handle, this decides whether every suspended coroutine can still be resumed. -/
theorem deregistering_orphans_iff (code : Implemented B) (dying : Nat → Prop) {s t : World K Ev}
    {actions : List (Act Ev Env)} (start : Start B s)
    (replay : (machine B).exec s actions = some t) :
    ((machine B).Each (NoneDropped B dying) s actions ↔
      (machine B).Each (NoneWaiting dying) s actions) ∧
    ((machine B).Each (Careful B) s actions →
      ((machine B).Throughout (NoOrphan dying) s actions ↔
        (machine B).Each (NoneWaiting dying) s actions)) := by
  constructor
  · have preserves : ∀ s a t, Shape s ∧ Linked s → True → (machine B).step s a = some t →
        Shape t ∧ Linked t := fun _ _ _ inv _ step =>
      ⟨step_shape inv.1 step, step_linked code.lawful inv.1 inv.2 step⟩
    have inv : Shape s ∧ Linked s := ⟨start_shape start, start_linked start⟩
    have every := Transition.Machine.each_true (m := machine B) s actions
    constructor
    · exact .imp preserves (fun _ a inv _ => (noneDropped_iff code.lawful inv.2 a).mp) inv every
    · exact .imp preserves (fun _ a inv _ => (noneDropped_iff code.lawful inv.2 a).mpr) inv every
  · intro careful
    have holds : NoOrphan dying s := by
      rintro w ⟨removed, suspended⟩
      rw [start.frames] at suspended
      cases suspended
    have preserves : ∀ s a t, Sound s → Careful B s a → (machine B).step s a = some t → Sound t :=
      fun _ _ _ sound met step => met.sound code.lawful sound step
    have exact_step : ∀ s a t, Sound s → NoOrphan dying s → Careful B s a →
        (machine B).step s a = some t → (NoOrphan dying t ↔ NoneWaiting dying s a) :=
      fun _ _ _ sound noOrphan met step =>
        step_noOrphan_iff code.lawful sound noOrphan met step
    exact Transition.Machine.throughout_iff_each preserves exact_step (start_sound start) holds
      careful replay

/-- Two relays between the sockets 5 and 6, each reading from one of them; the first
meets the end of its stream. -/
def relayEnds : List (Act EpollEvent Epoll.Change) :=
  [.openFd 5, .openFd 6, .wait 0 5 .read false, .wait 1 6 .read false,
    .change (.ready 5 EPOLLIN), .block, .wake [⟨⟨EPOLLIN, 5⟩, 1⟩], .dispatch, .resume]

theorem deregistering_orphans_iff_relayEnds :
    ((machine epoll).Each (NoneDropped epoll fun _ => False) epollBoot (relayEnds ++ [.close 5]) ↔
      (machine epoll).Each (NoneWaiting fun _ => False) epollBoot (relayEnds ++ [.close 5])) ∧
    ((machine epoll).Each (Careful epoll) epollBoot (relayEnds ++ [.close 5]) →
      ((machine epoll).Throughout (NoOrphan fun _ => False) epollBoot (relayEnds ++ [.close 5]) ↔
        (machine epoll).Each (NoneWaiting fun _ => False) epollBoot
          (relayEnds ++ [.close 5]))) := by
  have runs : ((machine epoll).exec epollBoot (relayEnds ++ [.close 5])).isSome = true := by decide
  obtain ⟨s, replay⟩ := Option.isSome_iff_exists.mp runs
  exact deregistering_orphans_iff (.linux Epoll.api Epoll.system) _ epollBoot_start replay

/-- Closing the other socket as well leaves the sibling relay suspended for ever. -/
theorem closing_orphans_sibling : ¬ ∀ actions s, (machine epoll).exec epollBoot actions = some s →
    NoOrphan (fun _ => False) s := by
  intro always
  have run : ((machine epoll).exec epollBoot (relayEnds ++ [.close 5, .close 6])).map
      (fun s => (s.frames 1, s.loop.slot 6 .read, s.hand)) =
      some (.suspended ⟨1, 1, 6, .read, some 2⟩ true, none, []) := by decide
  obtain ⟨s, replay, final⟩ := Option.map_eq_some_iff.mp run
  simp only [Prod.mk.injEq] at final
  obtain ⟨frame, slot, hand⟩ := final
  rcases always _ s replay ⟨1, 1, 6, .read, some 2⟩ ⟨true, frame⟩ id with stored | held
  · rw [slot] at stored
    cases stored
  · rw [hand] at held
    cases held

end CoroEpoll.Reactor
