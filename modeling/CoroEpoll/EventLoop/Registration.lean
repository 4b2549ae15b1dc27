import CoroEpoll.EventLoop.Laws

/-! The table and the epoll set in step: a descriptor is registered exactly when it has
an entry, with the events and the trigger mode its waiters need.
-/

set_option autoImplicit false

namespace CoroEpoll.Linux

open Epoll

variable {H : Type}

structure Serves (r : Registration) (state : FdState H) : Prop where
  edgeTriggered : r.edgeTriggered = state.edgeTrigger
  covered : ∀ d, (state.handle d).isSome = true → Includes r.events (directionBit d)
  waited : ∃ d, (state.handle d).isSome = true

/-- The registration of a descriptor answers to its entry. -/
def Matches (k : Kernel) (fd : Fd) : Option (FdState H) → Prop
  | none => k.interest fd = none
  | some state => 0 ≤ fd ∧ k.sockets fd ≠ none ∧ ∃ r, k.interest fd = some r ∧ Serves r state

structure InStep (loop : EventLoop Kernel H) : Prop where
  faultless : loop.kernel.fault = none
  wakeup_open : loop.kernel.sockets loop.wakeupFd ≠ none
  wakeup_registered : loop.kernel.interest loop.wakeupFd ≠ none
  wakeup_private : loop.states loop.wakeupFd = none
  entries : ∀ fd, fd ≠ loop.wakeupFd → Matches loop.kernel fd (loop.states fd)

theorem Matches.congr {k k' : Kernel} {fd : Fd} {state : Option (FdState H)}
    (met : Matches k fd state) (sockets : k'.sockets fd = k.sockets fd)
    (interest : k'.interest fd = k.interest fd) : Matches k' fd state := by
  cases state with
  | none => exact interest.trans met
  | some state =>
    obtain ⟨valid, isOpen, r, found, serves⟩ := met
    exact ⟨valid, sockets ▸ isOpen, r, interest.trans found, serves⟩

theorem edgeTriggered_edgeBit {bits : EventMask} (apart : overlaps bits EPOLLET = false) (et : Bool)
    (armed : Bool) : Registration.edgeTriggered ⟨bits ||| edgeBit et, armed⟩ = et := by
  rw [Registration.edgeTriggered, overlaps_or_left, apart]
  cases et <;> decide

theorem includes_both (d : Direction) : Includes (EPOLLIN ||| EPOLLOUT) (directionBit d) := by
  cases d <;> simp only [Includes] <;> decide

theorem includes_activeEvents {state : FdState H} {d : Direction}
    (waiting : (state.handle d).isSome = true) : Includes (activeEvents state) (directionBit d) := by
  rw [activeEvents_eq]
  cases d with
  | read =>
    rw [show state.readHandle.isSome = true from waiting]
    apply Includes.or_left
    simp only [Includes]
    decide
  | write =>
    rw [show state.writeHandle.isSome = true from waiting, BitVec.or_comm]
    apply Includes.or_left
    simp only [Includes]
    decide

theorem activeEvents_no_edge (state : FdState H) : overlaps (activeEvents state) EPOLLET = false := by
  rw [activeEvents_eq]
  cases state.readHandle.isSome <;> cases state.writeHandle.isSome <;> decide

theorem register_matches {k : Kernel} {fd : Fd} (valid : 0 ≤ fd) (isOpen : k.sockets fd ≠ none)
    {bits : EventMask} {state : FdState H} (apart : overlaps bits EPOLLET = false)
    (covered : ∀ d, (state.handle d).isSome = true → Includes bits (directionBit d))
    (waited : ∃ d, (state.handle d).isSome = true) :
    Matches (k.register fd (bits ||| edgeBit state.edgeTrigger)) fd (some state) := by
  refine ⟨valid, isOpen, _, Function.update_self .., ?_, ?_, waited⟩
  · exact edgeTriggered_edgeBit apart state.edgeTrigger _
  · exact fun d waiting => (covered d waiting).or_left _

theorem InStep.update {loop loop' : EventLoop Kernel H} (inStep : InStep loop) {fd : Fd}
    (notWakeup : fd ≠ loop.wakeupFd) (wakeup : loop'.wakeupFd = loop.wakeupFd)
    (faultless : loop'.kernel.fault = none)
    (states : ∀ fd', fd' ≠ fd → loop'.states fd' = loop.states fd')
    (sockets : ∀ fd', fd' ≠ fd → loop'.kernel.sockets fd' = loop.kernel.sockets fd')
    (interest : ∀ fd', fd' ≠ fd → loop'.kernel.interest fd' = loop.kernel.interest fd')
    (here : Matches loop'.kernel fd (loop'.states fd)) : InStep loop' := by
  refine ⟨faultless, ?_, ?_, ?_, ?_⟩
  · rw [wakeup, sockets _ notWakeup.symm]
    exact inStep.wakeup_open
  · rw [wakeup, interest _ notWakeup.symm]
    exact inStep.wakeup_registered
  · rw [wakeup, states _ notWakeup.symm]
    exact inStep.wakeup_private
  · intro fd' other
    by_cases same : fd' = fd
    · rw [same]
      exact here
    · rw [states fd' same]
      rw [wakeup] at other
      exact (inStep.entries fd' other).congr (sockets fd' same) (interest fd' same)

theorem InStep.present {loop : EventLoop Kernel H} (inStep : InStep loop) {fd : Fd}
    {state : FdState H} (found : loop.states fd = some state) :
    fd ≠ loop.wakeupFd ∧ 0 ≤ fd ∧ loop.kernel.sockets fd ≠ none ∧
      ∃ r, loop.kernel.interest fd = some r ∧ Serves r state := by
  have other : fd ≠ loop.wakeupFd := by
    rintro rfl
    rw [inStep.wakeup_private] at found
    cases found
  have met := inStep.entries fd other
  rw [found] at met
  exact ⟨other, met⟩

theorem InStep.registered {loop : EventLoop Kernel H} (inStep : InStep loop) {fd : Fd}
    {d : Direction} {h : H} (stored : loop.slot fd d = some h) :
    loop.kernel.sockets fd ≠ none ∧
      ∃ r, loop.kernel.interest fd = some r ∧ Includes r.events (directionBit d) := by
  obtain ⟨state, found, handle⟩ := EventLoop.slot_eq_some.mp stored
  obtain ⟨_, _, isOpen, r, registered, serves⟩ := inStep.present found
  exact ⟨isOpen, r, registered, serves.covered d (by rw [handle, Option.isSome_some])⟩

theorem InStep.wait_cases {loop : EventLoop Kernel H} (inStep : InStep loop) (fd : Fd)
    (d : Direction) (et : Bool) (h : H) :
    (0 ≤ fd ∧ fd ≠ loop.wakeupFd ∧ loop.kernel.sockets fd ≠ none ∧
      (awaiter fd d et).awaitSuspend api h loop =
        ((loop.withKernel (loop.kernel.register fd (EPOLLIN ||| EPOLLOUT ||| edgeBit et))).store fd
          ((loop.entry fd).enter d h et), none)) ∨
    ∃ error, (awaiter fd d et).awaitSuspend api h loop = (loop, some error) := by
  by_cases negative : fd < 0
  · exact Or.inr ⟨_, awaitSuspend_negative api negative d et h loop⟩
  · rw [awaitSuspend_eq api negative]
    have valid := Int.not_lt.mp negative
    cases found : loop.states fd with
    | some state =>
      obtain ⟨other, _, isOpen, r, registered, _⟩ := inStep.present found
      have call := Kernel.ctl_mod inStep.faultless isOpen (registered ▸ Option.some_ne_none r)
        (EPOLLIN ||| EPOLLOUT ||| edgeBit et)
      refine Or.inl ⟨valid, other, isOpen, ?_⟩
      simp [waitOp, found, api, call]
    | none =>
      have unchanged : loop.erase fd = loop := EventLoop.erase_absent found
      by_cases isOpen : loop.kernel.sockets fd = none
      · have call := Kernel.ctl_closed inStep.faultless isOpen (waitOp fd et loop)
        exact Or.inr ⟨_, by simp [api, call, EventLoop.withKernel_self, unchanged]; rfl⟩
      · by_cases wakeup : fd = loop.wakeupFd
        · have call := Kernel.ctl_exists inStep.faultless isOpen
            (wakeup ▸ inStep.wakeup_registered) (EPOLLIN ||| EPOLLOUT ||| edgeBit et)
          refine Or.inr ⟨.std (.systemError .EEXIST "epoll_ctl"), ?_⟩
          simp [waitOp, found, api, call, EventLoop.withKernel_self, unchanged]
        · have absent := inStep.entries fd wakeup
          rw [found] at absent
          have call := Kernel.ctl_add inStep.faultless isOpen absent
            (EPOLLIN ||| EPOLLOUT ||| edgeBit et)
          refine Or.inl ⟨valid, wakeup, isOpen, ?_⟩
          simp [waitOp, found, api, call]

theorem InStep.wait {loop : EventLoop Kernel H} (inStep : InStep loop) (fd : Fd) (d : Direction)
    (et : Bool) (h : H) : InStep ((awaiter fd d et).awaitSuspend api h loop).1 := by
  rcases inStep.wait_cases fd d et h with ⟨valid, other, isOpen, result⟩ | ⟨error, result⟩
  · rw [result]
    apply inStep.update other
    · rfl
    · exact inStep.faultless
    · exact fun fd' different => EventLoop.states_store_ne different _ _
    · exact fun fd' _ => rfl
    · exact fun fd' different => Function.update_of_ne different ..
    · rw [EventLoop.states_store_same]
      have plain : overlaps (EPOLLIN ||| EPOLLOUT) EPOLLET = false := by decide
      have waited : ∃ d', (((loop.entry fd).enter d h et).handle d').isSome = true := ⟨d, by simp⟩
      exact register_matches valid isOpen plain (fun d' _ => includes_both d') waited
  · rw [result]
    exact inStep

/-- A dispatch never throws; it deregisters the descriptor when nobody waits for it any
more, and otherwise registers it anew. -/
theorem InStep.dispatch_cases {loop : EventLoop Kernel H} (inStep : InStep loop)
    {event : EpollEvent} {state : FdState H} (found : loop.states event.fd = some state) :
    ((∀ d, (state.leave (covers event.events)).handle d = none) ∧
      dispatch api event loop =
        ((loop.withKernel (loop.kernel.ctl .del event.fd).2).erase event.fd,
          .resume (state.taken (covers event.events)))) ∨
    (∃ d, ((state.leave (covers event.events)).handle d).isSome = true) ∧
      dispatch api event loop =
        ((loop.withKernel (loop.kernel.register event.fd
            (activeEvents (state.leave (covers event.events)) ||| edgeBit state.edgeTrigger))).store
          event.fd (state.leave (covers event.events)),
          .resume (state.taken (covers event.events))) := by
  obtain ⟨other, _, isOpen, r, registered, _⟩ := inStep.present found
  have call := Kernel.ctl_mod inStep.faultless isOpen (registered ▸ Option.some_ne_none r)
    (activeEvents (state.leave (covers event.events)) ||| edgeBit state.edgeTrigger)
  rw [dispatch_some api other found]
  simp only [updateOrRemove, updateOrRemoveImpl, EventLoop.kernel_store, FdState.edgeTrigger_leave]
  by_cases zero : activeEvents (state.leave (covers event.events)) = 0#32
  · refine Or.inl ⟨activeEvents_eq_zero.mp zero, ?_⟩
    simp only [zero, if_true, EventLoop.store_withKernel, EventLoop.erase_store, api]
  · refine Or.inr ⟨?_, ?_⟩
    · by_contra nobody
      simp only [not_exists, Bool.not_eq_true, Option.isSome_eq_false_iff, Option.isNone_iff_eq_none] at nobody
      exact zero (activeEvents_eq_zero.mpr nobody)
    · simp only [zero, if_false, EventLoop.store_withKernel, api, call]

theorem InStep.handles_dispatch {loop : EventLoop Kernel H} (inStep : InStep loop)
    (event : EpollEvent) :
    (dispatch api event loop).2.handles = loop.taken event.fd (covers event.events) := by
  cases found : loop.states event.fd with
  | none =>
    rw [EventLoop.taken_absent found]
    by_cases wakeup : event.fd = loop.wakeupFd
    · rw [dispatch_wakeup api wakeup]
      rfl
    · rw [dispatch_none api wakeup found]
      rfl
  | some state =>
    rw [EventLoop.taken_present found]
    rcases inStep.dispatch_cases found with ⟨_, result⟩ | ⟨_, result⟩ <;>
      simp only [result, Dispatched.handles]

theorem dispatch_absent {loop : EventLoop Kernel H} {event : EpollEvent}
    (absent : loop.states event.fd = none) :
    (dispatch api event loop).1 = loop ∨ event.fd = loop.wakeupFd ∧
      (dispatch api event loop).1 = loop.withKernel (loop.kernel.setReady loop.wakeupFd 0#32) := by
  by_cases wakeup : event.fd = loop.wakeupFd
  · exact Or.inr ⟨wakeup, by rw [dispatch_wakeup api wakeup]; rfl⟩
  · exact Or.inl (by rw [dispatch_none api wakeup absent])

theorem InStep.rearm {loop : EventLoop Kernel H} (inStep : InStep loop) {k : Kernel}
    (faultless : k.fault = none) (sockets : k.sockets = loop.kernel.sockets)
    (interest : ∀ fd, ∃ armed : Registration → Bool,
      k.interest fd = (loop.kernel.interest fd).map fun r => { r with armed := armed r }) :
    InStep (loop.withKernel k) := by
  refine ⟨faultless, ?_, ?_, inStep.wakeup_private, ?_⟩
  · rw [EventLoop.kernel_withKernel, EventLoop.wakeupFd_withKernel, sockets]
    exact inStep.wakeup_open
  · obtain ⟨armed, after⟩ := interest loop.wakeupFd
    rw [EventLoop.kernel_withKernel, EventLoop.wakeupFd_withKernel, after, ne_eq,
      Option.map_eq_none_iff]
    exact inStep.wakeup_registered
  · intro fd other
    have met := inStep.entries fd other
    obtain ⟨armed, after⟩ := interest fd
    rw [EventLoop.states_withKernel, EventLoop.kernel_withKernel]
    cases found : loop.states fd with
    | none =>
      rw [found] at met
      rw [Matches, after, show loop.kernel.interest fd = none from met]
      rfl
    | some state =>
      rw [found] at met
      obtain ⟨valid, isOpen, r, registered, serves⟩ := met
      refine ⟨valid, sockets ▸ isOpen, { r with armed := armed r }, ?_, ?_⟩
      · rw [after, registered]
        rfl
      · exact ⟨serves.edgeTriggered, serves.covered, serves.waited⟩

theorem InStep.setReady {loop : EventLoop Kernel H} (inStep : InStep loop) (fd : Fd)
    (bits : EventMask) : InStep (loop.withKernel (loop.kernel.setReady fd bits)) := by
  apply inStep.rearm
  · exact inStep.faultless
  · rfl
  · intro fd'
    by_cases same : fd' = fd
    · subst same
      exact ⟨_, Kernel.interest_setReady_same ..⟩
    · refine ⟨Registration.armed, ?_⟩
      rw [Kernel.interest_setReady_ne same]
      exact Option.map_id'.symm

theorem InStep.wake {loop : EventLoop Kernel H} (inStep : InStep loop)
    {reports : List (Report EpollEvent)} {k : Kernel} (woken : loop.kernel.wait reports = some k) :
    InStep (loop.withKernel k) := by
  simp only [Kernel.wait, Option.ite_none_right_eq_some, Option.some.injEq] at woken
  obtain ⟨_, rfl⟩ := woken
  apply inStep.rearm
  · exact inStep.faultless
  · rfl
  · intro fd
    by_cases member : fd ∈ reports.map (·.event.fd)
    · exact ⟨fun _ => false, if_pos member⟩
    · refine ⟨Registration.armed, ?_⟩
      dsimp only
      rw [if_neg member]
      exact Option.map_id'.symm

theorem InStep.dispatch {loop : EventLoop Kernel H} (inStep : InStep loop) (event : EpollEvent) :
    InStep (dispatch api event loop).1 := by
  cases found : loop.states event.fd with
  | none =>
    rcases dispatch_absent found with result | ⟨_, result⟩
    · rw [result]
      exact inStep
    · rw [result]
      exact inStep.setReady _ _
  | some state =>
    obtain ⟨other, valid, isOpen, _⟩ := inStep.present found
    rcases inStep.dispatch_cases found with ⟨_, result⟩ | ⟨waited, result⟩
    · rw [result]
      apply inStep.update other
      · rfl
      · exact Kernel.fault_ctl inStep.faultless _ _
      · exact fun fd' different => EventLoop.states_erase_ne different _
      · exact fun fd' _ => by simp
      · exact fun fd' different => Kernel.interest_ctl_ne different _ _
      · rw [EventLoop.states_erase_same]
        exact Kernel.interest_ctl_del inStep.faultless isOpen
    · rw [result]
      apply inStep.update other
      · rfl
      · exact inStep.faultless
      · exact fun fd' different => EventLoop.states_store_ne different _ _
      · exact fun fd' _ => rfl
      · exact fun fd' different => Function.update_of_ne different ..
      · rw [EventLoop.states_store_same]
        have plain := activeEvents_no_edge (state.leave (covers event.events))
        exact register_matches valid isOpen plain (fun d => includes_activeEvents) waited

theorem InStep.deregistered {loop : EventLoop Kernel H} (inStep : InStep loop) {fd : Fd}
    (other : fd ≠ loop.wakeupFd) : (loop.kernel.ctl .del fd).2.interest fd = none := by
  by_cases isOpen : loop.kernel.sockets fd = none
  · rw [Kernel.ctl_closed inStep.faultless isOpen]
    cases found : loop.states fd with
    | none =>
      have met := inStep.entries fd other
      rw [found] at met
      exact met
    | some state => exact absurd isOpen (inStep.present found).2.2.1
  · exact Kernel.interest_ctl_del inStep.faultless isOpen

theorem InStep.remove {loop : EventLoop Kernel H} (inStep : InStep loop) {fd : Fd}
    (other : fd ≠ loop.wakeupFd) : InStep (remove api fd loop) := by
  by_cases negative : fd < 0
  · rw [Linux.remove, if_pos negative]
    exact inStep
  · rw [Linux.remove, if_neg negative]
    apply inStep.update other
    · rfl
    · exact Kernel.fault_ctl inStep.faultless _ _
    · exact fun fd' different => EventLoop.states_erase_ne different _
    · exact fun fd' _ => by simp [api]
    · exact fun fd' different => Kernel.interest_ctl_ne different _ _
    · rw [EventLoop.states_erase_same]
      exact inStep.deregistered other

theorem InStep.removed {loop : EventLoop Kernel H} (inStep : InStep loop) (fd : Fd) :
    (Linux.remove api fd loop).states fd = none := by
  by_cases negative : fd < 0
  · rw [Linux.remove, if_pos negative]
    cases found : loop.states fd with
    | none => rfl
    | some state => exact absurd negative (Int.not_lt.mpr (inStep.present found).2.1)
  · rw [Linux.remove, if_neg negative]
    exact EventLoop.states_erase_same ..

theorem InStep.close {loop : EventLoop Kernel H} (inStep : InStep loop) {fd : Fd}
    (other : fd ≠ loop.wakeupFd) :
    InStep ((Linux.remove api fd loop).withKernel
      ((Linux.remove api fd loop).kernel.closeFd fd)) := by
  have wakeup : (Linux.remove api fd loop).wakeupFd = loop.wakeupFd := by
    unfold Linux.remove
    split <;> rfl
  have after := inStep.remove other
  apply after.update (wakeup.symm ▸ other)
  · rfl
  · exact after.faultless
  · exact fun fd' _ => rfl
  · exact fun fd' different => Function.update_of_ne different ..
  · exact fun fd' different => Function.update_of_ne different ..
  · rw [EventLoop.states_withKernel, inStep.removed]
    exact Function.update_self ..

/-- `TcpServer::close` reaches the same loop although it deregisters the descriptor only
after closing it. -/
theorem remove_closed {loop : EventLoop Kernel H} (faultless : loop.kernel.fault = none) (fd : Fd) :
    remove api fd (loop.withKernel (loop.kernel.closeFd fd)) =
      (remove api fd loop).withKernel ((remove api fd loop).kernel.closeFd fd) := by
  by_cases negative : fd < 0
  · simp only [remove, if_pos negative]
  · have before : (loop.kernel.ctl .del fd).2.closeFd fd = loop.kernel.closeFd fd :=
      Kernel.closeFd_ctl_del faultless fd
    have after : (loop.kernel.closeFd fd).ctl .del fd = (some .EBADF, loop.kernel.closeFd fd) := by
      apply Kernel.ctl_closed
      · exact faultless
      · exact Function.update_self ..
    simp only [remove, if_neg negative, api, EventLoop.kernel_withKernel, EventLoop.kernel_erase,
      before, after]
    rfl

theorem InStep.openFd {loop : EventLoop Kernel H} (inStep : InStep loop) {fd : Fd} {k : Kernel}
    (opened : loop.kernel.openFd fd = some k) : InStep (loop.withKernel k) := by
  simp only [Kernel.openFd, Option.ite_none_right_eq_some, Option.some.injEq] at opened
  obtain ⟨⟨_, free⟩, rfl⟩ := opened
  have other : fd ≠ loop.wakeupFd := by
    rintro rfl
    exact inStep.wakeup_open free
  have absent : loop.states fd = none := by
    cases found : loop.states fd with
    | none => rfl
    | some state => exact absurd free (inStep.present found).2.2.1
  apply inStep.update other
  · rfl
  · exact inStep.faultless
  · exact fun fd' _ => rfl
  · exact fun fd' different => Function.update_of_ne different ..
  · exact fun fd' different => Function.update_of_ne different ..
  · rw [EventLoop.states_withKernel, absent]
    exact Function.update_self ..

end CoroEpoll.Linux
