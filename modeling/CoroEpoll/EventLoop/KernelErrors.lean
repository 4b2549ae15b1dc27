import CoroEpoll.EventLoop.Partition

/-! What is left of the waiter table when a wait or a dispatch throws.

Both change the table before they ask the kernel, and the two back ends take back
different parts of the change when the kernel refuses it.
-/

set_option autoImplicit false

namespace CoroEpoll

variable {K H : Type}

namespace EventLoop

theorem states_erase_eq_iff {loop : EventLoop K H} {fd : Fd} :
    (loop.erase fd).states = loop.states ↔ loop.states fd = none := by
  constructor
  · intro same
    rw [← same, states_erase_same]
  · intro absent
    rw [erase_absent absent]

theorem states_store_eq_iff {loop : EventLoop K H} {fd : Fd} {state : FdState H} :
    (loop.store fd state).states = loop.states ↔ loop.states fd = some state := by
  constructor
  · intro same
    rw [← same, states_store_same]
  · intro present
    rw [store, ← present, Function.update_eq_self]

end EventLoop

theorem FdState.setHandle_eq_iff {state : FdState H} {d : Direction} {h : H} :
    state.setHandle d (some h) = state ↔ state.handle d = some h := by
  constructor
  · intro same
    rw [← same, handle_setHandle_same]
  · intro stored
    cases d <;> cases state <;> simp_all [setHandle, handle]

/-! ## A wait that throws -/

namespace Linux

def interest (event : EventMask) : Option Direction :=
  if event = EPOLLIN then some .read else if event = EPOLLOUT then some .write else none

theorem addInterestImpl_eq (api : EpollApi K) {fd : Fd} (valid : ¬ fd < 0) (event : EventMask)
    (h : H) (et : Bool) (loop : EventLoop K H) :
    addInterestImpl api fd event h et loop =
      match interest event with
      | none => (loop.store fd (loop.entry fd),
          some (.std (.invalidArgument "unsupported epoll event interest")))
      | some d =>
        let answer := api.ctl (waitOp fd et loop) fd loop.kernel
        match answer.1 with
        | some errno =>
          ((loop.withKernel answer.2).erase fd, some (.std (.systemError errno "epoll_ctl")))
        | none =>
          ((loop.withKernel answer.2).store fd ((loop.entry fd).enter d h et), none) := by
  unfold interest
  by_cases read : event = EPOLLIN
  · simp only [addInterestImpl, waitOp, valid, read, if_true, if_false, EventLoop.store_store,
      EventLoop.erase_store, EventLoop.store_withKernel, EventLoop.kernel_store]
    rfl
  · by_cases write : event = EPOLLOUT
    · subst write
      simp only [addInterestImpl, waitOp, valid, read, if_true, if_false, EventLoop.store_store,
        EventLoop.erase_store, EventLoop.store_withKernel, EventLoop.kernel_store]
      rfl
    · simp only [addInterestImpl, valid, read, write, if_false]

/-- A wait that throws in the kernel erases the entry of its descriptor, whoever else
waits there; one for an unsupported interest leaves the entry that it may have created. -/
theorem addInterestImpl_restores_iff (api : EpollApi K) {fd : Fd} {event : EventMask} {h : H}
    {et : Bool} {loop : EventLoop K H} {error : Exception}
    (threw : (addInterestImpl api fd event h et loop).2 = some error) :
    (addInterestImpl api fd event h et loop).1.states = loop.states ↔
      fd < 0 ∨ ((interest event).isSome ↔ loop.states fd = none) := by
  by_cases valid : fd < 0
  · simp only [addInterestImpl, valid, if_true, true_or]
  · rw [addInterestImpl_eq api valid] at threw ⊢
    simp only [valid, false_or]
    cases supported : interest event with
    | none =>
      simp only [EventLoop.states_store_eq_iff, EventLoop.entry]
      -- an unsupported interest throws after the entry has been created
      cases loop.states fd <;> simp
    | some d =>
      simp only [supported] at threw ⊢
      cases answer : (api.ctl (waitOp fd et loop) fd loop.kernel).1 with
      | none => simp [answer] at threw
      | some errno =>
        have erased : ((loop.withKernel (api.ctl (waitOp fd et loop) fd loop.kernel).2).erase fd).states =
            loop.states ↔ loop.states fd = none := EventLoop.states_erase_eq_iff
        simpa using erased

end Linux

namespace MacOS

def interest (event : Filter) : Option Direction :=
  if event = EVFILT_READ then some .read else if event = EVFILT_WRITE then some .write else none

theorem addInterestImpl_cases (api : KqueueApi K) {fd : Fd} (valid : ¬ fd < 0) (event : Filter)
    (h : H) (et : Bool) (loop : EventLoop K H) :
    (interest event = none ∧ ∃ error, addInterestImpl api fd event h et loop =
      (loop.store fd (loop.entry fd), some error)) ∨
    ∃ d, interest event = some d ∧ ∃ kernel,
      (∃ error, addInterestImpl api fd event h et loop =
        (if (loop.states fd).isNone then (loop.withKernel kernel).erase fd
          else (loop.withKernel kernel).store fd ((loop.entry fd).setHandle d (some h)), some error)) ∨
      addInterestImpl api fd event h et loop =
        ((loop.withKernel kernel).store fd ((loop.entry fd).enter d h et), none) := by
  -- a supported interest, by the outcome of the update of its filters
  have register : ∀ d,
      (∀ after error, updateOrRemoveImpl api fd ((loop.entry fd).setHandle d (some h)) et
          (loop.store fd ((loop.entry fd).setHandle d (some h))) = (after, some error) →
        addInterestImpl api fd event h et loop =
          (if (loop.states fd).isNone then after.erase fd else after, some error)) →
      (∀ after, updateOrRemoveImpl api fd ((loop.entry fd).setHandle d (some h)) et
          (loop.store fd ((loop.entry fd).setHandle d (some h))) = (after, none) →
        addInterestImpl api fd event h et loop =
          (after.store fd ((loop.entry fd).enter d h et), none)) →
      ∃ kernel, (∃ error, addInterestImpl api fd event h et loop =
        (if (loop.states fd).isNone then (loop.withKernel kernel).erase fd
          else (loop.withKernel kernel).store fd ((loop.entry fd).setHandle d (some h)), some error)) ∨
      addInterestImpl api fd event h et loop =
        ((loop.withKernel kernel).store fd ((loop.entry fd).enter d h et), none) := by
    intro d failed succeeded
    obtain ⟨kernel, thrown, call⟩ := updateOrRemoveImpl_active api
      (FdState.handle_setHandle_same (loop.entry fd) d (some h)) fd et
      (loop.store fd ((loop.entry fd).setHandle d (some h)))
    cases thrown with
    | some error => exact ⟨kernel, Or.inl ⟨error, by rw [failed _ _ call]; simp⟩⟩
    | none => exact ⟨kernel, Or.inr (by rw [succeeded _ call]; simp)⟩
  unfold interest
  by_cases read : event = EVFILT_READ
  · refine Or.inr ⟨.read, if_pos read, register .read ?_ ?_⟩
    · intro after error call
      simp only [FdState.setHandle] at call
      simp only [addInterestImpl, valid, read, if_true, if_false, EventLoop.store_store, call]
    · intro after call
      simp only [FdState.setHandle] at call
      simp only [addInterestImpl, valid, read, if_true, if_false, EventLoop.store_store, call]
      rfl
  · by_cases write : event = EVFILT_WRITE
    · subst write
      refine Or.inr ⟨.write, (if_neg read).trans (if_pos rfl), register .write ?_ ?_⟩
      · intro after error call
        simp only [FdState.setHandle] at call
        simp only [addInterestImpl, valid, read, if_true, if_false, EventLoop.store_store, call]
      · intro after call
        simp only [FdState.setHandle] at call
        simp only [addInterestImpl, valid, read, if_true, if_false, EventLoop.store_store, call]
        rfl
    · exact Or.inl ⟨by simp only [read, write, if_false], _,
        by simp only [addInterestImpl, valid, read, write, if_false]; rfl⟩

/-- A wait that throws in the kernel undoes an entry it created; in one that was there
before, its handle stays. -/
theorem addInterestImpl_restores_iff (api : KqueueApi K) {fd : Fd} {event : Filter} {h : H}
    {et : Bool} {loop : EventLoop K H} {error : Exception}
    (threw : (addInterestImpl api fd event h et loop).2 = some error) :
    (addInterestImpl api fd event h et loop).1.states = loop.states ↔
      fd < 0 ∨ ((interest event).isSome ↔ loop.states fd = none) ∨
        ∃ d, interest event = some d ∧ loop.slot fd d = some h := by
  by_cases valid : fd < 0
  · simp only [addInterestImpl, valid, if_true, true_or]
  · rcases addInterestImpl_cases api valid event h et loop with
      ⟨unsupported, _, result⟩ | ⟨d, supported, kernel, ⟨_, result⟩ | result⟩
    · rw [result]
      simp only [EventLoop.states_store_eq_iff, EventLoop.entry, valid, unsupported]
      cases loop.states fd <;> simp
    · rw [result]
      simp only [valid, supported, false_or, Option.isSome_some, true_iff, Option.some.injEq,
        exists_eq_left']
      cases present : loop.states fd with
      | none =>
        have erased : ((loop.withKernel kernel).erase fd).states = loop.states ↔
            loop.states fd = none := EventLoop.states_erase_eq_iff
        simpa [present] using erased
      | some state =>
        have stored : ((loop.withKernel kernel).store fd (state.setHandle d (some h))).states =
            loop.states ↔ loop.states fd = some (state.setHandle d (some h)) :=
          EventLoop.states_store_eq_iff
        simp only [Option.isNone_some, Bool.false_eq_true, if_false, reduceCtorEq, false_or,
          EventLoop.slot, EventLoop.entry, present, Option.getD_some, Option.bind_some, stored,
          Option.some.injEq]
        rw [eq_comm, FdState.setHandle_eq_iff]
    · rw [result] at threw
      cases threw

end MacOS

/-- A wait that throws leaves the table as it was exactly when its descriptor is negative
or, for a supported interest, had no entry (for an unsupported one, had one); on kqueue
also when the slot held the same handle before. -/
theorem failed_wait_restores_iff :
    (∀ (api : EpollApi K) (fd : Fd) (event : EventMask) (h : H) (et : Bool) (loop : EventLoop K H)
      (error : Exception), (Linux.addInterestImpl api fd event h et loop).2 = some error →
      ((Linux.addInterestImpl api fd event h et loop).1.states = loop.states ↔
        fd < 0 ∨ ((Linux.interest event).isSome ↔ loop.states fd = none))) ∧
    (∀ (api : KqueueApi K) (fd : Fd) (event : Filter) (h : H) (et : Bool) (loop : EventLoop K H)
      (error : Exception), (MacOS.addInterestImpl api fd event h et loop).2 = some error →
      ((MacOS.addInterestImpl api fd event h et loop).1.states = loop.states ↔
        fd < 0 ∨ ((MacOS.interest event).isSome ↔ loop.states fd = none) ∨
          ∃ d, MacOS.interest event = some d ∧ loop.slot fd d = some h)) :=
  ⟨fun api _ _ _ _ _ _ threw => Linux.addInterestImpl_restores_iff api threw,
    fun api _ _ _ _ _ _ threw => MacOS.addInterestImpl_restores_iff api threw⟩

def otherWaiters : EventLoop Unit Nat :=
  ⟨(), 4, Function.update (fun _ => none) 6 (some ⟨some 7, some 8, true⟩)⟩

/-- The kernel has no memory for a first wait on descriptor 5: those on 6 keep waiting. -/
theorem failed_wait_restores_iff_noMemory :
    (Linux.addInterestImpl (⟨fun _ _ k => (some (.other 12), k), fun _ k => k⟩ : EpollApi Unit)
        5 EPOLLIN 0 false otherWaiters).1.states = otherWaiters.states ∧
    (MacOS.addInterestImpl (⟨fun _ k => (some (.other 12), k), fun _ k => k⟩ : KqueueApi Unit)
        5 EVFILT_READ 0 false otherWaiters).1.states = otherWaiters.states := by
  have first : otherWaiters.states 5 = none := rfl
  constructor
  · exact (failed_wait_restores_iff.1 _ 5 EPOLLIN 0 false otherWaiters _ rfl).mpr
      (.inr (iff_of_true rfl first))
  · exact (failed_wait_restores_iff.2 _ 5 EVFILT_READ 0 false otherWaiters _ rfl).mpr
      (.inr (.inl (iff_of_true rfl first)))

namespace Reactor

open Epoll

/-- A reader waits on a socket when a second wait on it fails for want of memory. -/
theorem failed_wait_drops_reader : ¬ ∀ (s : World Kernel EpollEvent), (machine epoll).Reachable s →
    ∀ (fd : Fd) (event : EventMask) (w : Waiter) (et : Bool) (error : Exception),
      (Linux.addInterestImpl api fd event w et s.loop).2 = some error →
      (Linux.addInterestImpl api fd event w et s.loop).1.states = s.loop.states := by
  intro always
  have run : ((machine epoll).exec epollBoot
      [.openFd 5, .wait 0 5 .read false, .change (.fault (.other 12))]).map (fun s =>
        ((Linux.addInterestImpl api 5 EPOLLOUT ⟨1, 1, 5, .write, some 1⟩ false s.loop).2,
          (Linux.addInterestImpl api 5 EPOLLOUT ⟨1, 1, 5, .write, some 1⟩ false s.loop).1.states 5,
          s.loop.slot 5 .read)) =
      some (some (.std (.systemError (.other 12) "epoll_ctl")), none,
        some ⟨0, 0, 5, .read, some 1⟩) := by decide
  obtain ⟨s, replay, final⟩ := Option.map_eq_some_iff.mp run
  simp only [Prod.mk.injEq] at final
  obtain ⟨threw, erased, waiting⟩ := final
  have same := always s (epollBoot_replay replay) 5 EPOLLOUT _ false _ threw
  rw [same] at erased
  simp [EventLoop.slot, erased] at waiting

end Reactor

/-! ## A dispatch that throws -/

/-- The epoll_ctl call with which `dispatch` re-registers a remaining waiter fails with an
errno that it does not ignore. -/
def Linux.rearmFails (api : EpollApi K) (event : EpollEvent) (loop : EventLoop K H) : Prop :=
  ∃ state errno, loop.states event.fd = some state ∧
    activeEvents (state.leave (covers event.events)) ≠ 0#32 ∧
    (api.ctl (.mod (activeEvents (state.leave (covers event.events)) ||| edgeBit state.edgeTrigger))
      event.fd loop.kernel).1 = some errno ∧ errno ≠ .EBADF ∧ errno ≠ .ENOENT

theorem Linux.dispatch_failed_iff (api : EpollApi K) {event : EpollEvent} {loop : EventLoop K H}
    (other : event.fd ≠ loop.wakeupFd) :
    (dispatch api event loop).2.failed = true ↔ rearmFails api event loop := by
  unfold rearmFails
  cases present : loop.states event.fd with
  | none =>
    rw [dispatch_none api other present]
    simp [Dispatched.failed]
  | some state =>
    rcases dispatch_cases api other present with
      ⟨empty, _, _, _, result⟩ | ⟨answer, _, call, ⟨tolerated, result⟩ | ⟨errno, hard, notBadf,
        notNoent, result⟩⟩
    · simp [result, Dispatched.failed, activeEvents_eq_zero.mpr empty]
    · rw [result]
      simp only [Dispatched.failed, Bool.false_eq_true, false_iff, not_exists, not_and]
      rintro _ errno same _ failed notBadf notNoent
      cases Option.some.inj same
      rw [call] at failed
      simp only at failed
      simp_all
    · rw [result]
      simp only [Dispatched.failed, true_iff]
      refine ⟨state, errno, rfl, ?_, by rw [call, hard], notBadf, notNoent⟩
      intro zero
      rw [dispatch_some api other present] at result
      simp [updateOrRemove, updateOrRemoveImpl, zero] at result

namespace MacOS

def filterChange (fd : Fd) (filter : Filter) (active et : Bool) : Kevent :=
  ⟨fd, filter, if active then EV_ADD ||| EV_ENABLE ||| (if et then EV_CLEAR else 0#16) else EV_DELETE⟩

def filterFails (api : KqueueApi K) (fd : Fd) (filter : Filter) (active et : Bool) (kernel : K) : Prop :=
  ∃ errno, (api.kevent (filterChange fd filter active et) kernel).1 = some errno ∧
    ¬ (active = false ∧ errno = .ENOENT)

/-- One of the two kevent calls with which `dispatch` re-registers a remaining waiter
fails; to delete a filter that is not there is no failure. -/
def rearmFails (api : KqueueApi K) (event : Kevent) (loop : EventLoop K H) : Prop :=
  ∃ state, loop.states event.ident = some state ∧
    (∃ d, (state.leave (covers event)).handle d ≠ none) ∧
    (filterFails api event.ident EVFILT_READ (state.leave (covers event)).readHandle.isSome
        state.edgeTrigger loop.kernel ∨
      filterFails api event.ident EVFILT_WRITE (state.leave (covers event)).writeHandle.isSome
        state.edgeTrigger (api.kevent (filterChange event.ident EVFILT_READ
          (state.leave (covers event)).readHandle.isSome state.edgeTrigger) loop.kernel).2)

theorem updateKqueueFilterImpl_eq (api : KqueueApi K) (fd : Fd) (filter : Filter) (active et : Bool)
    (loop : EventLoop K H) :
    (updateKqueueFilterImpl api fd filter active et loop).1 =
        loop.withKernel (api.kevent (filterChange fd filter active et) loop.kernel).2 ∧
      ((updateKqueueFilterImpl api fd filter active et loop).2 ≠ none ↔
        filterFails api fd filter active et loop.kernel) := by
  unfold updateKqueueFilterImpl filterFails
  dsimp only [filterChange]
  split
  · rename_i succeeded
    simp [succeeded]
  · rename_i errno failed
    rw [failed]
    split
    · rename_i ignored
      simp_all
    · rename_i hard
      simp_all

theorem updateOrRemove_threw_iff (api : KqueueApi K) (fd : Fd) (state : FdState H)
    (loop : EventLoop K H) :
    (updateOrRemove api fd state loop).2 ≠ none ↔
      (∃ d, state.handle d ≠ none) ∧
      (filterFails api fd EVFILT_READ state.readHandle.isSome state.edgeTrigger loop.kernel ∨
        filterFails api fd EVFILT_WRITE state.writeHandle.isSome state.edgeTrigger
          (api.kevent (filterChange fd EVFILT_READ state.readHandle.isSome state.edgeTrigger)
            loop.kernel).2) := by
  unfold updateOrRemove
  by_cases empty : ∀ d, state.handle d = none
  · obtain ⟨kernel, result⟩ := updateOrRemoveImpl_inactive api empty fd state.edgeTrigger loop
    simp [result, empty]
  · obtain ⟨d, stored⟩ := not_forall.mp empty
    have active : ¬ (state.readHandle.isNone ∧ state.writeHandle.isNone) := by
      cases d <;> simp_all [FdState.handle]
    obtain ⟨after, threw_iff⟩ := updateKqueueFilterImpl_eq api fd EVFILT_READ
      state.readHandle.isSome state.edgeTrigger loop
    rw [updateOrRemoveImpl, if_neg active]
    rcases first : updateKqueueFilterImpl api fd EVFILT_READ state.readHandle.isSome
      state.edgeTrigger loop with ⟨middle, thrown⟩
    rw [first] at after threw_iff
    simp only at after threw_iff
    have waiting : ∃ d, state.handle d ≠ none := ⟨d, stored⟩
    cases thrown with
    | some error =>
      simp only [ne_eq, reduceCtorEq, not_false_eq_true, true_iff] at threw_iff ⊢
      exact ⟨waiting, Or.inl threw_iff⟩
    | none =>
      obtain ⟨_, second⟩ := updateKqueueFilterImpl_eq api fd EVFILT_WRITE
        state.writeHandle.isSome state.edgeTrigger middle
      simp only [ne_eq, not_true_eq_false, false_iff] at threw_iff
      rw [second, after, EventLoop.kernel_withKernel]
      simp only [waiting, threw_iff, true_and, false_or]

theorem dispatch_failed_iff (api : KqueueApi K) {event : Kevent} {loop : EventLoop K H}
    (other : event.ident ≠ loop.wakeupFd) :
    (dispatch api event loop).2.failed = true ↔ rearmFails api event loop := by
  unfold rearmFails
  cases present : loop.states event.ident with
  | none =>
    rw [dispatch_none api other present]
    simp [Dispatched.failed]
  | some state =>
    have failed_iff : (dispatch api event loop).2.failed = true ↔
        (updateOrRemove api event.ident (state.leave (covers event))
          (loop.store event.ident (state.leave (covers event)))).2 ≠ none := by
      rw [dispatch_some api other present]
      split <;> rename_i result <;> simp [result, Dispatched.failed]
    rw [failed_iff, updateOrRemove_threw_iff, EventLoop.kernel_store, FdState.edgeTrigger_leave]
    constructor
    · rintro ⟨waiting, fails⟩
      exact ⟨state, rfl, waiting, fails⟩
    · rintro ⟨same, found, waiting, fails⟩
      cases Option.some.inj found
      exact ⟨waiting, fails⟩

end MacOS

namespace Reactor

variable {Ev Env : Type} {B : Backend K Ev Env}

def takes (B : Backend K Ev Env) (event : Ev) (loop : EventLoop K Waiter) : List Waiter :=
  if B.eventFd event = loop.wakeupFd then [] else loop.taken (B.eventFd event) (B.covers event)

/-- Once the dispatch of an event that led from `s` to `t` has ended, every handle that it
took has been resumed or is in its slot. -/
def TakenKept (B : Backend K Ev Env) (s : World K Ev) (event : Ev) (t : World K Ev) : Prop :=
  ∀ w ∈ takes B event s.loop, ∀ actions u, (machine B).exec t actions = some u →
    u.phase = .batch → w ∈ u.resumed ∨ u.loop.slot w.fd w.direction = some w

inductive Rearms : {Ev : Type} → Backend K Ev Env → (Ev → EventLoop K Waiter → Prop) → Prop where
  | linux (api : EpollApi K) (system : System K EpollEvent Env) :
      Rearms (linux api system) (Linux.rearmFails api)
  | macOS (api : KqueueApi K) (system : System K Kevent Env) :
      Rearms (macOS api system) (MacOS.rearmFails api)

theorem Rearms.implemented {fails : Ev → EventLoop K Waiter → Prop} (code : Rearms B fails) :
    Implemented B := by
  cases code with
  | linux api system => exact .linux api system
  | macOS api system => exact .macOS api system

theorem Rearms.failed_iff {fails : Ev → EventLoop K Waiter → Prop} (code : Rearms B fails)
    {event : Ev} {loop : EventLoop K Waiter} (other : B.eventFd event ≠ loop.wakeupFd) :
    (B.dispatch event loop).2.failed = true ↔ fails event loop := by
  cases code with
  | linux api system => exact Linux.dispatch_failed_iff api other
  | macOS api system => exact MacOS.dispatch_failed_iff api other

theorem reachable_settled (lawful : B.Lawful) {s : World K Ev} (reached : (machine B).Reachable s) :
    Shape s ∧ Linked s ∧ Settled s := by
  have initial : ∀ s, (machine B).start s → Shape s ∧ Linked s ∧ Settled s :=
    fun _ start => ⟨start_shape start, start_linked start, start_settled start⟩
  have preserves : ∀ s a t, Shape s ∧ Linked s ∧ Settled s → True →
      (machine B).step s a = some t → Shape t ∧ Linked t ∧ Settled t :=
    fun _ _ _ inv _ step => ⟨step_shape inv.1 step, step_linked lawful inv.1 inv.2.1 step,
      step_settled lawful inv.2.1 inv.2.2 step⟩
  exact reached.invariant initial preserves

theorem faulted_stays {s t : World K Ev} {a : Act Ev Env} (fault : s.phase = .faulted)
    (step : step B s a = some t) : t.phase = .faulted := by
  cases a with
  | change env =>
    simp only [Reactor.step, Option.map_eq_some_iff] at step
    obtain ⟨_, _, rfl⟩ := step
    exact fault
  | _ => simp [Reactor.step, World.userCode, fault] at step

theorem resume_stray {s t : World K Ev} {w : Waiter} {rest : List Waiter} (hand : s.hand = w :: rest)
    (stray : ∀ removed, s.frames w.frame ≠ .suspended w removed)
    (step : step B s .resume = some t) : t.phase = .faulted := by
  simp only [Reactor.step, Option.ite_none_right_eq_some, hand, Option.some.injEq] at step
  obtain ⟨_, rfl⟩ := step
  cases frame : s.frames w.frame with
  | suspended current removed =>
    have different : current ≠ w := by
      rintro rfl
      exact stray removed frame
    simp [World.resume, frame, different]
  | active | destroyed => simp [World.resume, frame]

theorem step_handed (lawful : B.Lawful) {s t : World K Ev} {a : Act Ev Env} (shape : Shape s)
    {w : Waiter} (handed : w ∈ s.hand ∨ w ∈ s.resumed ∨ s.phase = .faulted)
    (step : step B s a = some t) : w ∈ t.hand ∨ w ∈ t.resumed ∨ t.phase = .faulted := by
  rcases handed with held | done | fault
  · cases step_move lawful step with
    | quiet _ _ hand _ _ _ | registered _ _ _ _ _ _ _ _ hand _ _ _
    | refused _ _ _ _ _ _ _ _ _ hand _ _ _ | removed _ _ _ hand _ _ _
    | destroyed _ _ _ _ hand _ _ _ => exact Or.inl (hand ▸ held)
    | took report rest _ phase _ _ _ _ _ _ _ =>
      rw [shape.hand (Or.inr (Or.inr phase))] at held
      cases held
    | gave first rest removed _ hand _ _ after _ _ resumed =>
      rcases List.mem_cons.mp (hand ▸ held) with rfl | later
      · exact Or.inr (Or.inl (by simp [resumed]))
      · exact Or.inl (after ▸ later)
    | faulted first rest act hand stray _ _ _ _ _ =>
      subst act
      exact Or.inr (Or.inr (resume_stray hand stray step))
  · refine Or.inr (Or.inl ?_)
    cases step_move lawful step with
    | gave first rest removed _ _ _ _ _ _ _ resumed => simp [resumed, done]
    | quiet _ _ _ _ _ resumed | registered _ _ _ _ _ _ _ _ _ _ _ resumed
    | refused _ _ _ _ _ _ _ _ _ _ _ _ resumed | removed _ _ _ _ _ _ resumed
    | destroyed _ _ _ _ _ _ _ resumed | took _ _ _ _ _ _ _ _ _ _ resumed
    | faulted _ _ _ _ _ _ _ _ _ resumed => exact resumed ▸ done
  · exact Or.inr (Or.inr (faulted_stays fault step))

theorem exec_handed (lawful : B.Lawful) {s t : World K Ev} {actions : List (Act Ev Env)}
    (shape : Shape s) {w : Waiter} (handed : w ∈ s.hand ∨ w ∈ s.resumed ∨ s.phase = .faulted)
    (replay : (machine B).exec s actions = some t) :
    w ∈ t.hand ∨ w ∈ t.resumed ∨ t.phase = .faulted := by
  induction actions generalizing s with
  | nil => exact Option.some.inj replay ▸ handed
  | cons a rest ih =>
    obtain ⟨u, step, tail⟩ := Transition.Machine.exec_cons_eq_some.mp replay
    exact ih (step_shape shape step) (step_handed lawful shape handed step) tail

/-- `dispatch` keeps the handles it takes exactly when it takes none or the remaining
waiter, if there is one, is re-registered without a failure. -/
theorem taken_kept_iff {fails : Ev → EventLoop K Waiter → Prop} (code : Rearms B fails)
    {s t : World K Ev} (reached : (machine B).Reachable s) {report : Report Ev}
    {rest : List (Report Ev)} (batch : s.batch = report :: rest)
    (step : Reactor.step B s .dispatch = some t) :
    TakenKept B s report.event t ↔
      takes B report.event s.loop = [] ∨ ¬ fails report.event s.loop := by
  have lawful := code.implemented.lawful
  obtain ⟨shape, linked, settled⟩ := reachable_settled lawful reached
  by_cases wakeup : B.eventFd report.event = s.loop.wakeupFd
  · simp [TakenKept, takes, wakeup]
  · rw [← code.failed_iff wakeup]
    have shape_next := step_shape shape step
    have takes_eq : takes B report.event s.loop =
        s.loop.taken (B.eventFd report.event) (B.covers report.event) := if_neg wakeup
    simp only [Reactor.step, Option.ite_none_right_eq_some, batch, Option.some.injEq] at step
    obtain ⟨phase, rfl⟩ := step
    have slots := lawful.dispatch_slot report.event s.loop wakeup
    rcases result : B.dispatch report.event s.loop with ⟨loop, next⟩
    rcases lawful.dispatch_resume report.event s.loop wakeup with resumes | ⟨error, threw⟩
    · -- every handle taken is in the hands of the dispatch, which ends with none
      rw [result] at resumes
      subst resumes
      simp only [Dispatched.failed, Bool.false_eq_true, not_false_eq_true, or_true, iff_true]
      intro w taken actions u replay ended
      have held : w ∈ ({ s with batch := rest }.dispatch B report.event).hand := by
        simpa [World.dispatch, result] using takes_eq ▸ taken
      have shape_last : Shape u := by
        have later : ∀ s a t, Shape s → (machine B).step s a = some t → Shape t :=
          fun _ _ _ shape step => step_shape shape step
        exact Transition.Machine.exec_invariant later shape_next replay
      rcases exec_handed lawful shape_next (Or.inl held) replay with held | done | fault
      · rw [shape_last.hand (Or.inr (Or.inr ended))] at held
        cases held
      · exact Or.inl done
      · rw [ended] at fault
        cases fault
    · rw [result] at threw slots
      subst threw
      simp only [Dispatched.failed, not_true_eq_false, or_false]
      -- the batch goes on without the handles: they are neither resumed nor back in a slot
      constructor
      · intro kept
        rw [List.eq_nil_iff_forall_not_mem]
        intro w taken
        obtain ⟨d, covered, stored⟩ := EventLoop.mem_taken.mp (takes_eq ▸ taken)
        have ended : ({ s with batch := rest }.dispatch B report.event).phase = .batch := by
          simp [World.dispatch, result, phase]
        obtain ⟨fd_eq, d_eq, _⟩ := linked.slot _ d w stored
        rcases kept w taken [] _ rfl ended with done | back
        · simp only [World.dispatch, result] at done
          exact settled.slot w done _ d stored
        · simp [World.dispatch, result, slots, fd_eq, d_eq, covered] at back
      · intro none w taken
        rw [none] at taken
        cases taken

/-- Coroutine 0 waits to read from a socket, coroutine 1 to write to it, and the loop has
been told that it is readable. -/
def readableOfBoth : List (Act EpollEvent Epoll.Change) :=
  [.openFd 5, .wait 0 5 .read false, .wait 1 5 .write false, .change (.ready 5 EPOLLIN), .block,
    .wake [⟨⟨EPOLLIN, 5⟩, 1⟩]]

theorem taken_kept_iff_readableOfBoth : ∃ s t, (machine epoll).exec epollBoot readableOfBoth = some s ∧
    (TakenKept epoll s ⟨EPOLLIN, 5⟩ t ↔
      takes epoll ⟨EPOLLIN, 5⟩ s.loop = [] ∨ ¬ Linux.rearmFails Epoll.api ⟨EPOLLIN, 5⟩ s.loop) := by
  have run : ((machine epoll).exec epollBoot readableOfBoth).map (fun s =>
      (s.batch, (Reactor.step epoll s .dispatch).isSome)) =
      some ([⟨⟨EPOLLIN, 5⟩, 1⟩], true) := by decide
  obtain ⟨s, replay, final⟩ := Option.map_eq_some_iff.mp run
  simp only [Prod.mk.injEq] at final
  obtain ⟨t, step⟩ := Option.isSome_iff_exists.mp final.2
  exact ⟨s, t, replay, taken_kept_iff (.linux Epoll.api Epoll.system) (epollBoot_replay replay)
    final.1 step⟩

/-- The reader is forgotten when the writer cannot be re-registered for want of memory. -/
theorem failed_rearm_loses_reader : ¬ ∀ (s t : World Epoll.Kernel EpollEvent)
    (report : Report EpollEvent) (rest : List (Report EpollEvent)),
    (machine epoll).Reachable s → s.batch = report :: rest →
      Reactor.step epoll s .dispatch = some t → TakenKept epoll s report.event t := by
  intro always
  have run : ((machine epoll).exec epollBoot (readableOfBoth ++ [.change (.fault (.other 12))])).map
      (fun s => (s.batch, takes epoll ⟨EPOLLIN, 5⟩ s.loop)) =
      some ([⟨⟨EPOLLIN, 5⟩, 1⟩], [⟨0, 0, 5, .read, some 1⟩]) := by decide
  have last : ((machine epoll).exec epollBoot
      ((readableOfBoth ++ [.change (.fault (.other 12))]) ++ [.dispatch])).map
        (fun t => (t.phase, t.resumed, t.loop.slot 5 .read)) = some (.batch, [], none) := by decide
  obtain ⟨s, replay, final⟩ := Option.map_eq_some_iff.mp run
  simp only [Prod.mk.injEq] at final
  obtain ⟨batch, taken⟩ := final
  obtain ⟨t, whole, after⟩ := Option.map_eq_some_iff.mp last
  rw [Transition.Machine.exec_append, replay] at whole
  obtain ⟨_, step, same⟩ := Transition.Machine.exec_cons_eq_some.mp whole
  cases Option.some.inj same
  simp only [Prod.mk.injEq] at after
  obtain ⟨ended, resumed, slot⟩ := after
  have kept := always s t _ _ (epollBoot_replay replay) batch step
  rcases kept ⟨0, 0, 5, .read, some 1⟩ (by simp [taken]) [] t rfl ended with done | back
  · simp [resumed] at done
  · simp [slot] at back

end Reactor

end CoroEpoll
