import CoroEpoll.EventLoop.Custody
import CoroEpoll.EventLoop.Registration

/-! No readiness is lost: a waiter whose descriptor is ready is in a report of the batch
or in one that epoll_wait may still return.
-/

set_option autoImplicit false

namespace CoroEpoll.Reactor

open Epoll Linux

/-- epoll_ctl never fails for want of a resource. -/
def FaultFree {Ev : Type} : Act Ev Change → Prop
  | .change (.fault _) => False
  | _ => True

instance {Ev : Type} : ∀ a : Act Ev Change, Decidable (FaultFree a)
  | .change (.fault _) => isFalse id
  | .change (.ready ..) => isTrue trivial
  | .wait .. | .remove _ | .close _ | .closeServer _ | .openFd _ | .destroy _ | .block | .wake _
  | .interrupted | .dispatch | .resume | .suspend => isTrue trivial

theorem start_inStep {s : World Kernel EpollEvent} (start : Start epoll s) : InStep s.loop where
  faultless := start.fresh.faultless
  wakeup_open := start.fresh.wakeup_open
  wakeup_registered := by
    obtain ⟨armed, registered⟩ := start.fresh.registered
    rw [registered]
    exact Option.some_ne_none _
  wakeup_private := start.states _
  entries fd other := by
    rw [start.states]
    exact start.fresh.others fd other

theorem step_inStep {s t : World Kernel EpollEvent} {a : Act EpollEvent Change}
    (inStep : InStep s.loop) (faultFree : FaultFree a) (step : step epoll s a = some t) :
    InStep t.loop := by
  cases step_effect epoll step with
  | none loop _ =>
    rw [loop]
    exact inStep
  | wait f fd d et loop _ =>
    rw [loop]
    exact inStep.wait fd d et _
  | remove fd other loop _ =>
    rw [loop]
    exact inStep.remove other
  | close fd other loop _ =>
    rw [loop]
    exact inStep.close other
  | closeServer fd other loop _ =>
    rw [loop]
    have closed := inStep.close other
    rw [← remove_closed inStep.faultless fd] at closed
    exact closed
  | openFd fd k opened loop _ =>
    rw [loop]
    exact inStep.openFd opened
  | change env k changed loop _ =>
    rw [loop]
    cases env with
    | ready fd bits =>
      cases Option.some.inj changed
      exact inStep.setReady fd bits
    | fault errno => exact faultFree.elim
  | wake reports k _ woken loop _ =>
    rw [loop]
    exact inStep.wake woken
  | dispatch report _ _ loop =>
    rw [loop]
    exact inStep.dispatch report.event

/-! ## Edges -/

def wanted (d : Direction) : EventMask := directionBit d ||| (EPOLLERR ||| EPOLLHUP)

def Reported (batch : List (Report EpollEvent)) (fd : Fd) (d : Direction) : Prop :=
  ∃ report ∈ batch, report.event.fd = fd ∧ covers report.event.events d = true

theorem Reported.tail {report : Report EpollEvent} {rest : List (Report EpollEvent)} {fd : Fd}
    {d : Direction} (reported : Reported (report :: rest) fd d) (different : fd ≠ report.event.fd) :
    Reported rest fd d := by
  obtain ⟨found, listed, rfl, covered⟩ := reported
  rcases List.mem_cons.mp listed with rfl | later
  · exact absurd rfl different
  · exact ⟨found, later, rfl, covered⟩

/-- Every waiter whose descriptor is ready is in the batch or in a report to come. -/
def Served (loop : EventLoop Kernel Waiter) (batch : List (Report EpollEvent)) : Prop :=
  ∀ fd d w r, loop.slot fd d = some w → loop.kernel.interest fd = some r →
    overlaps (loop.kernel.ready fd) (wanted d) = true →
      r.edgeTriggered = false ∨ r.armed = true ∨ Reported batch fd d

theorem includes_watched {r : Registration} {d : Direction}
    (included : Includes r.events (directionBit d)) : Includes r.watched (wanted d) := by
  have bit : Includes (r.events &&& ~~~EPOLLET) (directionBit d) := by
    have kept : ~~~EPOLLET &&& directionBit d = directionBit d := by cases d <;> decide
    rw [Includes, BitVec.and_assoc, kept]
    exact included
  have error : Includes (EPOLLERR ||| EPOLLHUP) (EPOLLERR ||| EPOLLHUP) := BitVec.and_self
  apply Includes.or
  · exact bit.or_left _
  · rw [Registration.watched, BitVec.or_comm]
    exact error.or_left _

theorem covers_of_wanted {events : EventMask} {d : Direction}
    (met : overlaps events (wanted d) = true) : covers events d = true := by
  simp only [wanted, overlaps_or, Bool.or_eq_true] at met
  simp only [covers, overlaps_or, Bool.or_eq_true]
  rcases met with bit | error | hangup
  · exact Or.inl bit
  · exact Or.inr (Or.inl (Or.inl error))
  · exact Or.inr (Or.inl (Or.inr hangup))

/-- An ADD or MOD that finds a waiter's descriptor ready arms its registration. -/
theorem armed_register {k : Kernel} {fd : Fd} {events : EventMask} {d : Direction}
    {r : Registration} (included : Includes events (directionBit d))
    (registered : (k.register fd events).interest fd = some r)
    (ready : overlaps (k.ready fd) (wanted d) = true) : r.armed = true := by
  rw [Kernel.interest_register_same, Option.some.injEq] at registered
  subst registered
  have watched : Includes (Registration.watched ⟨events, false⟩) (wanted d) :=
    includes_watched included
  exact watched.overlaps ready

theorem Served.update {loop loop' : EventLoop Kernel Waiter} {batch batch' : List (Report EpollEvent)}
    (served : Served loop batch) {fd : Fd}
    (slots : ∀ fd', fd' ≠ fd → ∀ d, loop'.slot fd' d = loop.slot fd' d)
    (ready : ∀ fd', fd' ≠ fd → loop'.kernel.ready fd' = loop.kernel.ready fd')
    (interest : ∀ fd', fd' ≠ fd → loop'.kernel.interest fd' = loop.kernel.interest fd')
    (reports : ∀ fd', fd' ≠ fd → ∀ d, Reported batch fd' d → Reported batch' fd' d)
    (here : ∀ d w r, loop'.slot fd d = some w → loop'.kernel.interest fd = some r →
      overlaps (loop'.kernel.ready fd) (wanted d) = true →
      r.edgeTriggered = false ∨ r.armed = true ∨ Reported batch' fd d) : Served loop' batch' := by
  intro fd' d w r stored registered met
  by_cases same : fd' = fd
  · subst same
    exact here d w r stored registered met
  · rw [slots fd' same] at stored
    rw [interest fd' same] at registered
    rw [ready fd' same] at met
    rcases served fd' d w r stored registered met with level | armed | reported
    · exact Or.inl level
    · exact Or.inr (Or.inl armed)
    · exact Or.inr (Or.inr (reports fd' same d reported))

theorem Served.deregister {loop loop' : EventLoop Kernel Waiter} {batch : List (Report EpollEvent)}
    (served : Served loop batch) {fd : Fd} (absent : loop'.kernel.interest fd = none)
    (slots : ∀ fd', fd' ≠ fd → ∀ d, loop'.slot fd' d = loop.slot fd' d)
    (ready : ∀ fd', fd' ≠ fd → loop'.kernel.ready fd' = loop.kernel.ready fd')
    (interest : ∀ fd', fd' ≠ fd → loop'.kernel.interest fd' = loop.kernel.interest fd') :
    Served loop' batch := by
  apply served.update slots ready interest
  · exact fun _ _ _ reported => reported
  · intro d w r _ registered
    rw [absent] at registered
    cases registered

theorem Served.wait {loop : EventLoop Kernel Waiter} {batch : List (Report EpollEvent)}
    (inStep : InStep loop) (served : Served loop batch) (fd : Fd) (d : Direction) (et : Bool)
    (w : Waiter) : Served ((awaiter fd d et).awaitSuspend api w loop).1 batch := by
  rcases inStep.wait_cases fd d et w with ⟨_, _, _, result⟩ | ⟨error, result⟩
  · rw [result]
    apply served.update
    · exact fun fd' different d' => EventLoop.slot_store_ne different _ _ d'
    · exact fun _ _ => rfl
    · exact fun fd' different => Kernel.interest_register_ne different _ _
    · exact fun _ _ _ reported => reported
    · intro d' _ r _ registered met
      exact Or.inr (Or.inl (armed_register ((includes_both d').or_left _) registered met))
  · rw [result]
    exact served

theorem Served.setReady {loop : EventLoop Kernel Waiter} {batch : List (Report EpollEvent)}
    (inStep : InStep loop) (served : Served loop batch) (fd : Fd) (bits : EventMask) :
    Served (loop.withKernel (loop.kernel.setReady fd bits)) batch := by
  apply served.update
  · exact fun _ _ _ => rfl
  · exact fun fd' different => Function.update_of_ne different ..
  · exact fun fd' different => Kernel.interest_setReady_ne different _ _
  · exact fun _ _ _ reported => reported
  · intro d w r stored registered met
    obtain ⟨_, before, found, included⟩ := inStep.registered stored
    simp only [EventLoop.kernel_withKernel, Kernel.interest_setReady_same, found, Option.map_some,
      Option.some.injEq] at registered
    subst registered
    have watched := includes_watched included
    cases old : overlaps (loop.kernel.ready fd) (wanted d) with
    | true =>
      rcases served fd d w before stored found old with level | armed | reported
      · exact Or.inl level
      · exact Or.inr (Or.inl (by simp only [armed, Bool.true_or]))
      · exact Or.inr (Or.inr reported)
    | false =>
      -- the bits that have just risen are a change inside the mask
      have risen : overlaps (loop.kernel.ready fd ^^^ bits) (wanted d) = true := by
        rw [overlaps_xor old]
        simpa [Kernel.setReady] using met
      exact Or.inr (Or.inl (by simp only [watched.overlaps risen, Bool.or_true]))

theorem Served.wake {loop : EventLoop Kernel Waiter} (inStep : InStep loop) (served : Served loop [])
    {reports : List (Report EpollEvent)} {k : Kernel} (woken : loop.kernel.wait reports = some k) :
    Served (loop.withKernel k) reports := by
  simp only [Kernel.wait, Option.ite_none_right_eq_some, Option.some.injEq] at woken
  obtain ⟨⟨_, pending⟩, rfl⟩ := woken
  intro fd d w r stored registered met
  obtain ⟨_, before, found, included⟩ := inStep.registered stored
  -- a reported registration is disarmed, and its waiter is in the batch instead
  by_cases member : fd ∈ reports.map (·.event.fd)
  · obtain ⟨report, listed, rfl⟩ := List.mem_map.mp member
    have may := pending report listed
    simp only [Kernel.mayReport, found, Option.any_some, Bool.and_eq_true, beq_iff_eq] at may
    refine Or.inr (Or.inr ⟨report, listed, rfl, ?_⟩)
    rw [← may.2]
    apply covers_of_wanted
    rw [Kernel.reported, (includes_watched included).overlaps_and]
    exact met
  · simp only [EventLoop.kernel_withKernel, if_neg member] at registered met
    rcases served fd d w r stored registered met with level | armed | ⟨report, listed, _⟩
    · exact Or.inl level
    · exact Or.inr (Or.inl armed)
    · cases listed

theorem Served.drop {loop : EventLoop Kernel Waiter} {report : Report EpollEvent}
    {rest : List (Report EpollEvent)} (served : Served loop (report :: rest))
    (absent : loop.states report.event.fd = none) : Served loop rest := by
  apply served.update
  · exact fun _ _ _ => rfl
  · exact fun _ _ => rfl
  · exact fun _ _ => rfl
  · exact fun fd different d reported => reported.tail different
  · intro d w r stored
    rw [EventLoop.slot, absent] at stored
    cases stored

theorem Served.dispatch {loop : EventLoop Kernel Waiter} {report : Report EpollEvent}
    {rest : List (Report EpollEvent)} (inStep : InStep loop) (served : Served loop (report :: rest)) :
    Served (dispatch api report.event loop).1 rest := by
  cases found : loop.states report.event.fd with
  | none =>
    rcases dispatch_absent found with result | ⟨_, result⟩
    · rw [result]
      exact served.drop found
    · rw [result]
      exact (served.drop found).setReady inStep _ _
  | some state =>
    rcases inStep.dispatch_cases found with ⟨_, result⟩ | ⟨_, result⟩
    · rw [result]
      apply served.update
      · exact fun fd different d => EventLoop.slot_erase_ne different _ d
      · exact fun fd _ => by simp
      · exact fun fd different => Kernel.interest_ctl_ne different _ _
      · exact fun fd different d reported => reported.tail different
      · intro d w r stored
        rw [EventLoop.slot_erase_same] at stored
        cases stored
    · rw [result]
      apply served.update
      · exact fun fd different d => EventLoop.slot_store_ne different _ _ d
      · exact fun _ _ => rfl
      · exact fun fd different => Kernel.interest_register_ne different _ _
      · exact fun fd different d reported => reported.tail different
      · -- the handle that stays is registered anew
        intro d w r stored registered met
        rw [EventLoop.slot_store_same] at stored
        have waiting : ((state.leave (covers report.event.events)).handle d).isSome = true := by
          rw [stored, Option.isSome_some]
        exact Or.inr (Or.inl (armed_register ((includes_activeEvents waiting).or_left _)
          registered met))

theorem Served.remove {loop : EventLoop Kernel Waiter} {batch : List (Report EpollEvent)}
    (inStep : InStep loop) (served : Served loop batch) {fd : Fd} (other : fd ≠ loop.wakeupFd) :
    Served (remove api fd loop) batch := by
  by_cases negative : fd < 0
  · rw [Linux.remove, if_pos negative]
    exact served
  · rw [Linux.remove, if_neg negative]
    apply served.deregister
    · exact inStep.deregistered other
    · exact fun fd' different d => EventLoop.slot_erase_ne different _ d
    · exact fun fd' _ => by simp [api]
    · exact fun fd' different => Kernel.interest_ctl_ne different _ _

theorem Served.closeFd {loop : EventLoop Kernel Waiter} {batch : List (Report EpollEvent)}
    (served : Served loop batch) (fd : Fd) :
    Served (loop.withKernel (loop.kernel.closeFd fd)) batch := by
  apply served.deregister
  · exact Function.update_self ..
  · exact fun _ _ _ => rfl
  · exact fun _ _ => rfl
  · exact fun fd' different => Function.update_of_ne different ..

theorem Served.openFd {loop : EventLoop Kernel Waiter} {batch : List (Report EpollEvent)}
    (served : Served loop batch) {fd : Fd} {k : Kernel}
    (opened : loop.kernel.openFd fd = some k) : Served (loop.withKernel k) batch := by
  simp only [Kernel.openFd, Option.ite_none_right_eq_some, Option.some.injEq] at opened
  obtain ⟨_, rfl⟩ := opened
  apply served.deregister
  · exact Function.update_self ..
  · exact fun _ _ _ => rfl
  · exact fun fd' different => Function.update_of_ne different ..
  · exact fun fd' different => Function.update_of_ne different ..

/-! ## Runs -/

theorem start_served {s : World Kernel EpollEvent} (start : Start epoll s) :
    Served s.loop s.batch := by
  intro fd d w r stored
  rw [EventLoop.slot, start.states] at stored
  cases stored

theorem step_served {s t : World Kernel EpollEvent} {a : Act EpollEvent Change} (shape : Shape s)
    (inStep : InStep s.loop) (served : Served s.loop s.batch) (faultFree : FaultFree a)
    (step : step epoll s a = some t) : Served t.loop t.batch := by
  cases step_effect epoll step with
  | none loop batch =>
    rw [loop, batch]
    exact served
  | wait f fd d et loop batch =>
    rw [loop, batch]
    exact served.wait inStep fd d et _
  | remove fd other loop batch =>
    rw [loop, batch]
    exact served.remove inStep other
  | close fd other loop batch =>
    rw [loop, batch]
    exact (served.remove inStep other).closeFd fd
  | closeServer fd other loop batch =>
    rw [loop, batch]
    have closed := (served.remove inStep other).closeFd fd
    rw [← remove_closed inStep.faultless fd] at closed
    exact closed
  | openFd fd k opened loop batch =>
    rw [loop, batch]
    exact served.openFd opened
  | change env k changed loop batch =>
    rw [loop, batch]
    cases env with
    | ready fd bits =>
      cases Option.some.inj changed
      exact served.setReady inStep fd bits
    | fault errno => exact faultFree.elim
  | wake reports k phase woken loop batch =>
    rw [shape.batch (Or.inr phase)] at served
    rw [loop, batch]
    exact served.wake inStep woken
  | dispatch report _ batch loop =>
    rw [batch] at served
    rw [loop]
    exact served.dispatch inStep

theorem reachable_served {s : World Kernel EpollEvent}
    (reached : (machine epoll).ReachableWhere (fun _ a => FaultFree a) s) :
    Shape s ∧ InStep s.loop ∧ Served s.loop s.batch := by
  have preserves : ∀ s a t, Shape s ∧ InStep s.loop ∧ Served s.loop s.batch → FaultFree a →
      (machine epoll).step s a = some t → Shape t ∧ InStep t.loop ∧ Served t.loop t.batch := by
    rintro s a t ⟨shape, inStep, served⟩ faultFree step
    exact ⟨step_shape shape step, step_inStep inStep faultFree step,
      step_served shape inStep served faultFree step⟩
  exact reached.invariant
    (fun _ start => ⟨start_shape start, start_inStep start, start_served start⟩) preserves

/-- While the loop blocks, a stored handle whose descriptor is ready for it, or in error,
has a report that epoll_wait may return and whose dispatch resumes it. -/
theorem no_readiness_lost {s : World Kernel EpollEvent}
    (reached : (machine epoll).ReachableWhere (fun _ a => FaultFree a) s)
    (blocking : s.phase = .waiting) {fd : Fd} {d : Direction} {w : Waiter}
    (stored : s.loop.slot fd d = some w)
    (ready : overlaps (s.loop.kernel.ready fd) (wanted d) = true) :
    ∃ report kernel, report.event.fd = fd ∧ s.loop.kernel.wait [report] = some kernel ∧
      w ∈ (dispatch api report.event (s.loop.withKernel kernel)).2.handles := by
  obtain ⟨shape, inStep, served⟩ := reachable_served reached
  rw [shape.batch (Or.inr blocking)] at served
  obtain ⟨isOpen, r, registered, included⟩ := inStep.registered stored
  obtain ⟨socket, numbered⟩ := Option.ne_none_iff_exists'.mp isOpen
  have watched := includes_watched included
  have met : overlaps (s.loop.kernel.reported fd r) (wanted d) = true := by
    rw [Kernel.reported, watched.overlaps_and]
    exact ready
  have nonzero : s.loop.kernel.reported fd r ≠ 0#32 := by
    intro zero
    rw [zero] at met
    simp [overlaps] at met
  -- nothing is in the batch while the loop blocks, so that the report is still to come
  have pending : r.edgeTriggered = false ∨ r.armed = true := by
    rcases served fd d w r stored registered ready with level | armed | ⟨_, listed, _⟩
    · exact Or.inl level
    · exact Or.inr armed
    · cases listed
  have may : s.loop.kernel.mayReport ⟨⟨s.loop.kernel.reported fd r, fd⟩, socket⟩ = true := by
    simp [Kernel.mayReport, Kernel.pending, registered, numbered, nonzero, pending]
  have woken : ∃ kernel,
      s.loop.kernel.wait [⟨⟨s.loop.kernel.reported fd r, fd⟩, socket⟩] = some kernel :=
    ⟨_, if_pos ⟨by simp, by simpa using may⟩⟩
  obtain ⟨kernel, woken⟩ := woken
  obtain ⟨state, found, handle⟩ := EventLoop.slot_eq_some.mp stored
  have present : (s.loop.withKernel kernel).states
      (EpollEvent.mk (s.loop.kernel.reported fd r) fd).fd = some state := found
  have taken : w ∈ state.taken (covers (s.loop.kernel.reported fd r)) :=
    FdState.mem_taken.mpr ⟨d, covers_of_wanted met, handle⟩
  refine ⟨_, kernel, rfl, woken, ?_⟩
  rcases (inStep.wake woken).dispatch_cases present with ⟨_, result⟩ | ⟨_, result⟩
  · rw [result]
    exact taken
  · rw [result]
    exact taken

/-- Two coroutines wait on one socket, level-triggered to read and edge-triggered to
write; both become possible while the loop blocks. -/
def mixedWaits : List (Act EpollEvent Change) :=
  [.openFd 5, .wait 0 5 .read false, .wait 1 5 .write true, .block,
    .change (.ready 5 (EPOLLIN ||| EPOLLOUT))]

theorem no_readiness_lost_mixedWaits : ∃ s, (machine epoll).exec epollBoot mixedWaits = some s ∧
    (∃ report kernel, s.loop.kernel.wait [report] = some kernel ∧ ⟨0, 0, 5, .read, some 1⟩ ∈
      (dispatch api report.event (s.loop.withKernel kernel)).2.handles) ∧
    ∃ report kernel, s.loop.kernel.wait [report] = some kernel ∧ ⟨1, 1, 5, .write, some 1⟩ ∈
      (dispatch api report.event (s.loop.withKernel kernel)).2.handles := by
  have run : ((machine epoll).exec epollBoot mixedWaits).map
      (fun s => (s.phase, s.loop.slot 5 .read, s.loop.slot 5 .write, s.loop.kernel.ready 5)) =
      some (.waiting, some ⟨0, 0, 5, .read, some 1⟩, some ⟨1, 1, 5, .write, some 1⟩,
        EPOLLIN ||| EPOLLOUT) := by decide
  have faultFree : (machine epoll).Each (fun _ a => FaultFree a) epollBoot mixedWaits := by decide
  obtain ⟨s, replay, final⟩ := Option.map_eq_some_iff.mp run
  simp only [Prod.mk.injEq] at final
  obtain ⟨blocking, reader, writer, ready⟩ := final
  have reached := Transition.Machine.ReachableWhere.exec (.start epollBoot_start) faultFree replay
  have readable : overlaps (s.loop.kernel.ready 5) (wanted .read) = true := by
    rw [ready]
    decide
  have writable : overlaps (s.loop.kernel.ready 5) (wanted .write) = true := by
    rw [ready]
    decide
  obtain ⟨toRead, afterRead, _, resumesReader⟩ :=
    no_readiness_lost reached blocking reader readable
  obtain ⟨toWrite, afterWrite, _, resumesWriter⟩ :=
    no_readiness_lost reached blocking writer writable
  exact ⟨s, replay, ⟨toRead, afterRead, resumesReader⟩, toWrite, afterWrite, resumesWriter⟩

end CoroEpoll.Reactor
