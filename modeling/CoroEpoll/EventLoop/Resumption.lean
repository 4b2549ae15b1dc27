import CoroEpoll.EventLoop.Custody

/-! Which coroutines the loop resumes: those suspended at the wait their handle was
made for, as long as nobody destroys a coroutine whose handle a dispatch holds.
-/

set_option autoImplicit false

namespace CoroEpoll.Reactor

variable {K Ev Env : Type} {B : Backend K Ev Env}

/-- No frame is destroyed whose handle the dispatch in progress has already taken. -/
def SparesHand (s : World K Ev) : Act Ev Env → Prop
  | .destroy f => ∀ w ∈ s.hand, w.frame ≠ f
  | _ => True

/-- No wait that fails leaves its handle behind: where the table keeps the handle of a
failed wait, a wait on a descriptor with an entry succeeds. -/
def Clean (B : Backend K Ev Env) (s : World K Ev) : Act Ev Env → Prop
  | .wait f fd d et => B.keepsFailed = true → (s.loop.states fd).isSome = true →
      (B.awaitSuspend fd d et (s.waiter B f fd d) s.loop).2 = none
  | _ => True

/-- Every handle in custody is that of a frame suspended at the wait it was made for. -/
structure Live (s : World K Ev) : Prop where
  slot : ∀ fd d w, s.loop.slot fd d = some w → s.frames w.frame = .suspended w false
  hand : ∀ w ∈ s.hand, ∃ removed, s.frames w.frame = .suspended w removed

theorem start_live {s : World K Ev} (start : Start B s) : Live s where
  slot fd d w stored := by simp [EventLoop.slot, start.states] at stored
  hand w member := by simp [start.hand] at member

theorem Frame.deregister_eq {frame : Frame} {w : Waiter} {removed : Bool} (fd : Fd)
    (suspended : frame = .suspended w removed) :
    frame.deregister fd = .suspended w (removed || w.fd == fd) := by
  subst suspended
  rfl

theorem step_live (lawful : B.Lawful) {s t : World K Ev} {a : Act Ev Env} (shape : Shape s)
    (linked : Linked s) (live : Live s) (clean : Clean B s a) (spares : SparesHand s a)
    (step : step B s a = some t) : Live t := by
  cases step_move lawful step with
  | quiet _ slots hand frames _ _ =>
    exact ⟨by simpa only [slots, frames] using live.slot, by simpa only [hand, frames] using live.hand⟩
  | registered f fd d et _ active _ slots hand frames _ _ =>
    -- the frame that registers was active, so no older handle is its own
    constructor
    · intro fd' d' w stored
      rw [slots] at stored
      rw [frames]
      split at stored
      · cases Option.some.inj stored
        exact Function.update_self ..
      · have before := live.slot fd' d' w stored
        have other : w.frame ≠ f := by
          rintro rfl
          rw [active] at before
          cases before
        rw [Function.update_of_ne other]
        exact before
    · intro w member
      obtain ⟨removed, before⟩ := live.hand w (hand ▸ member)
      have other : w.frame ≠ f := by
        rintro rfl
        rw [active] at before
        cases before
      refine ⟨removed, ?_⟩
      rw [frames, Function.update_of_ne other]
      exact before
  | refused f fd d et error act threw slots _ hand frames _ _ =>
    subst act
    constructor
    · intro fd' d' w stored
      rw [frames]
      rcases slots fd' d' w stored with old | ⟨keeps, present, _⟩
      · exact live.slot fd' d' w old
      · rw [clean keeps present] at threw
        cases threw
    · intro w member
      rw [frames]
      exact live.hand w (hand ▸ member)
  | removed fd _ slots hand frames _ _ =>
    constructor
    · intro fd' d' w stored
      rw [slots] at stored
      split at stored
      · cases stored
      · rename_i kept
        obtain ⟨onFd, _, valid, _⟩ := linked.slot fd' d' w stored
        rw [frames, Frame.deregister_eq fd (live.slot fd' d' w stored)]
        have other : w.fd ≠ fd := by
          rintro rfl
          exact kept ⟨onFd.symm, onFd ▸ valid⟩
        simp [other]
    · intro w member
      obtain ⟨removed, before⟩ := live.hand w (hand ▸ member)
      exact ⟨_, (frames w.frame).trans (Frame.deregister_eq fd before)⟩
  | destroyed f act may slots hand frames _ _ =>
    subst act
    constructor
    · intro fd d w stored
      rw [slots] at stored
      have before := live.slot fd d w stored
      have other : w.frame ≠ f := by
        rintro rfl
        rw [before] at may
        cases may
      rw [frames, Function.update_of_ne other]
      exact before
    · intro w member
      obtain ⟨removed, before⟩ := live.hand w (hand ▸ member)
      refine ⟨removed, ?_⟩
      rw [frames, Function.update_of_ne (spares w (hand ▸ member))]
      exact before
  | took report rest _ phase _ _ slots hand frames _ _ =>
    constructor
    · intro fd d w stored
      rw [slots] at stored
      rw [frames]
      split at stored
      · cases stored
      · exact live.slot fd d w stored
    · intro w member
      rw [frames]
      rcases hand with taken | ⟨same, _⟩
      · obtain ⟨d, _, stored⟩ := EventLoop.mem_taken.mp (taken ▸ member)
        exact ⟨false, live.slot _ d w stored⟩
      · rw [same, shape.hand (Or.inr (Or.inr phase))] at member
        cases member
  | gave w rest removed _ held suspended slots hand frames _ _ =>
    -- two suspended handles of one frame are the same handle
    have other : ∀ w' removed', s.frames w'.frame = .suspended w' removed' → w' ≠ w →
        w'.frame ≠ w.frame := by
      intro w' removed' before different same
      rw [same, suspended] at before
      cases before
      exact different rfl
    have head : w ∈ s.hand := held ▸ List.mem_cons_self
    constructor
    · intro fd d w' stored
      rw [slots] at stored
      have before := live.slot fd d w' stored
      have different : w' ≠ w := by
        rintro rfl
        exact linked.apart w' head fd d stored
      rw [frames, Function.update_of_ne (other w' false before different)]
      exact before
    · intro w' member
      rw [hand] at member
      obtain ⟨removed', before⟩ := live.hand w' (held ▸ List.mem_cons_of_mem w member)
      have different : w' ≠ w := by
        rintro rfl
        exact (List.nodup_cons.mp (held ▸ linked.nodup)).1 member
      refine ⟨removed', ?_⟩
      rw [frames, Function.update_of_ne (other w' removed' before different)]
      exact before
  | faulted w rest _ held stray _ _ _ _ _ =>
    obtain ⟨removed, before⟩ := live.hand w (held ▸ List.mem_cons_self)
    exact absurd before (stray removed)

theorem step_faulted {s t : World K Ev} {a : Act Ev Env} (step : step B s a = some t)
    (fault : t.phase = .faulted) :
    s.phase = .faulted ∨ ∃ w rest, s.hand = w :: rest ∧
      ∀ removed, s.frames w.frame ≠ .suspended w removed := by
  cases a with
  | wait f fd d et =>
    simp only [Reactor.step, Option.ite_none_right_eq_some, Option.some.injEq] at step
    obtain ⟨_, rfl⟩ := step
    exact Or.inl (by simpa using fault)
  | remove fd | close fd | closeServer fd | destroy f =>
    simp only [Reactor.step, Option.ite_none_right_eq_some, Option.some.injEq] at step
    obtain ⟨_, rfl⟩ := step
    exact Or.inl fault
  | openFd fd =>
    simp only [Reactor.step, Option.ite_none_right_eq_some, Option.map_eq_some_iff] at step
    obtain ⟨_, kernel, _, rfl⟩ := step
    exact Or.inl fault
  | change env =>
    simp only [Reactor.step, Option.map_eq_some_iff] at step
    obtain ⟨kernel, _, rfl⟩ := step
    exact Or.inl fault
  | block | interrupted | suspend =>
    simp only [Reactor.step, Option.ite_none_right_eq_some, Option.some.injEq] at step
    obtain ⟨_, rfl⟩ := step
    cases fault
  | wake reports =>
    simp only [Reactor.step, Option.ite_none_right_eq_some, Option.map_eq_some_iff] at step
    obtain ⟨_, kernel, _, rfl⟩ := step
    cases fault
  | dispatch =>
    simp only [Reactor.step, Option.ite_none_right_eq_some] at step
    obtain ⟨phase, step⟩ := step
    cases batch : s.batch with
    | nil =>
      simp only [batch, Option.some.injEq] at step
      subst step
      cases fault
    | cons report rest =>
      simp only [batch, Option.some.injEq] at step
      subst step
      rcases result : B.dispatch report.event s.loop with ⟨loop, next⟩
      cases next <;> simp [World.dispatch, result, phase] at fault
  | resume =>
    simp only [Reactor.step, Option.ite_none_right_eq_some] at step
    obtain ⟨phase, step⟩ := step
    cases hand : s.hand with
    | nil =>
      simp only [hand, Option.some.injEq] at step
      subst step
      cases fault
    | cons w rest =>
      simp only [hand, Option.some.injEq] at step
      subst step
      refine Or.inr ⟨w, rest, rfl, ?_⟩
      rintro removed suspended
      simp [World.resume, suspended] at fault

structure Sound (s : World K Ev) : Prop where
  shape : Shape s
  linked : Linked s
  live : Live s
  unfaulted : s.phase ≠ .faulted

theorem start_sound {s : World K Ev} (start : Start B s) : Sound s where
  shape := start_shape start
  linked := start_linked start
  live := start_live start
  unfaulted := by rw [start.phase]; decide

theorem step_sound (lawful : B.Lawful) {s t : World K Ev} {a : Act Ev Env} (sound : Sound s)
    (clean : Clean B s a) (spares : SparesHand s a) (step : step B s a = some t) : Sound t where
  shape := step_shape sound.shape step
  linked := step_linked lawful sound.shape sound.linked step
  live := step_live lawful sound.shape sound.linked sound.live clean spares step
  unfaulted fault := by
    rcases step_faulted step fault with before | ⟨w, rest, held, stray⟩
    · exact sound.unfaulted before
    · obtain ⟨removed, suspended⟩ := sound.live.hand w (held ▸ List.mem_cons_self)
      exact stray removed suspended

theorem reachable_sound (lawful : B.Lawful) {s : World K Ev}
    (reached : (machine B).ReachableWhere (fun s a => Clean B s a ∧ SparesHand s a) s) : Sound s := by
  have preserves : ∀ s a t, Sound s → Clean B s a ∧ SparesHand s a →
      (machine B).step s a = some t → Sound t :=
    fun _ _ _ sound ok step => step_sound lawful sound ok.1 ok.2 step
  exact reached.invariant (fun _ start => start_sound start) preserves

theorem linux_clean {api : EpollApi K} {system : System K EpollEvent Env} (s : World K EpollEvent)
    (a : Act EpollEvent Env) : Clean (linux api system) s a := by
  cases a with
  | wait f fd d et =>
    intro keeps
    cases keeps
  | _ => trivial

/-- Every handle that `dispatch` is about to resume is that of a frame suspended at the
wait it was registered for, and no other handle is ever resumed. -/
theorem resumes_only_suspended (code : Implemented B) {s : World K Ev}
    (reached : (machine B).ReachableWhere (fun s a => Clean B s a ∧ SparesHand s a) s) :
    s.phase ≠ .faulted ∧ ∀ w ∈ s.hand, ∃ removed, s.frames w.frame = .suspended w removed :=
  have sound := reachable_sound code.lawful reached
  ⟨sound.unfaulted, sound.live.hand⟩

def HoldsSuspended (s : World K Ev) : Prop :=
  s.phase ≠ .faulted ∧ ∀ w ∈ s.hand, ∃ removed, s.frames w.frame = .suspended w removed

theorem step_stale {s t : World K Ev} {a : Act Ev Env} (stale : ¬ SparesHand s a)
    (step : step B s a = some t) : ¬ HoldsSuspended t := by
  cases a with
  | destroy f =>
    simp only [SparesHand, ne_eq, not_forall, not_not] at stale
    obtain ⟨w, held, rfl⟩ := stale
    obtain ⟨_, destroyed⟩ := Option.ite_none_right_eq_some.mp step
    cases Option.some.inj destroyed
    rintro ⟨_, suspended⟩
    obtain ⟨removed, frame⟩ := suspended w held
    cases (Function.update_self ..).symm.trans frame
  | _ => exact absurd trivial stale

/-- On Linux, where a wait that fails leaves no handle behind, these are the states of a run
exactly when it destroys no frame whose handle the dispatch in progress holds. -/
theorem linux_holds_suspended_iff {api : EpollApi K} {system : System K EpollEvent Env}
    {s t : World K EpollEvent} (start : Start (linux api system) s)
    {actions : List (Act EpollEvent Env)}
    (replay : (machine (linux api system)).exec s actions = some t) :
    (machine (linux api system)).Throughout HoldsSuspended s actions ↔
      (machine (linux api system)).Each SparesHand s actions := by
  have lawful := (Implemented.linux api system).lawful
  refine Transition.Machine.throughout_iff_each_of_keeps ?_ ?_ ?_ (start_sound start) replay
  · exact fun _ sound => ⟨sound.unfaulted, sound.live.hand⟩
  · exact fun u a _ sound spares step => step_sound lawful sound (linux_clean u a) spares step
  · exact fun _ _ _ _ stale step => step_stale stale step

instance (s : World K Ev) : ∀ a : Act Ev Env, Decidable (SparesHand s a)
  | .destroy f => inferInstanceAs (Decidable (∀ w ∈ s.hand, w.frame ≠ f))
  | .wait .. | .remove _ | .close _ | .closeServer _ | .openFd _ | .change _ | .block | .wake _
  | .interrupted | .dispatch | .resume | .suspend => isTrue trivial

/-- Coroutine 0 waits to read from a socket and coroutine 1 to write to it; an event for
`bits` then resumes coroutine 0. -/
def resumedReader (bits : EventMask) : List (Act EpollEvent Epoll.Change) :=
  [.openFd 5, .wait 0 5 .read false, .wait 1 5 .write false, .change (.ready 5 bits), .block,
    .wake [⟨⟨bits, 5⟩, 1⟩], .dispatch, .resume]

theorem resumes_only_suspended_reader : ∃ s, (machine epoll).exec epollBoot
      (resumedReader EPOLLIN ++ [.remove 5, .destroy 1, .suspend]) = some s ∧
    s.phase ≠ .faulted ∧ ∀ w ∈ s.hand, ∃ removed, s.frames w.frame = .suspended w removed := by
  have runs : ((machine epoll).exec epollBoot
      (resumedReader EPOLLIN ++ [.remove 5, .destroy 1, .suspend])).isSome = true := by decide
  have spares : (machine epoll).Each SparesHand epollBoot
      (resumedReader EPOLLIN ++ [.remove 5, .destroy 1, .suspend]) := by decide
  obtain ⟨s, replay⟩ := Option.isSome_iff_exists.mp runs
  have each : (machine epoll).Each (fun s a => Clean epoll s a ∧ SparesHand s a) epollBoot
      (resumedReader EPOLLIN ++ [.remove 5, .destroy 1, .suspend]) :=
    spares.mono fun s a met => ⟨linux_clean s a, met⟩
  exact ⟨s, replay, resumes_only_suspended (.linux Epoll.api Epoll.system)
    (.exec (.start epollBoot_start) each replay)⟩

theorem linux_holds_suspended_iff_reader : (machine epoll).Throughout HoldsSuspended epollBoot
    (resumedReader EPOLLIN ++ [.remove 5, .destroy 1, .suspend]) := by
  have runs : ((machine epoll).exec epollBoot
      (resumedReader EPOLLIN ++ [.remove 5, .destroy 1, .suspend])).isSome = true := by decide
  obtain ⟨s, replay⟩ := Option.isSome_iff_exists.mp runs
  exact (linux_holds_suspended_iff epollBoot_start replay).mpr (by decide)

/-- On an event for both directions it must not: `dispatch` holds the writer's handle. -/
theorem destroyed_writer_resumed : ∃ s w rest, (machine epoll).Reachable s ∧
    s.phase = .resuming ∧ s.hand = w :: rest ∧ s.frames w.frame = .destroyed := by
  have run : ((machine epoll).exec epollBoot
      (resumedReader (EPOLLIN ||| EPOLLOUT) ++ [.remove 5, .destroy 1, .suspend])).map
        (fun s => (s.phase, s.hand, s.frames 1)) =
      some (.resuming, [⟨1, 1, 5, .write, some 1⟩], .destroyed) := by decide
  obtain ⟨s, replay, final⟩ := Option.map_eq_some_iff.mp run
  simp only [Prod.mk.injEq] at final
  exact ⟨s, _, _, epollBoot_replay replay, final.1, final.2.1, final.2.2⟩

end CoroEpoll.Reactor
