import CoroEpoll.EventLoop.Readiness

/-! Which socket a report is dispatched to. The loop looks the descriptor number up in
its table; the report may have been made for an older socket with the same number.
-/

set_option autoImplicit false

namespace CoroEpoll.Reactor

open Epoll Linux

/-- Every stored handle waits on the socket that its descriptor names now. -/
def Bound (loop : EventLoop Kernel Waiter) : Prop :=
  ∀ fd d w, loop.slot fd d = some w →
    0 ≤ fd ∧ loop.kernel.sockets fd ≠ none ∧ w.socket = loop.kernel.sockets fd

theorem Bound.subset {loop loop' : EventLoop Kernel Waiter} (bound : Bound loop)
    (slots : ∀ fd d w, loop'.slot fd d = some w → loop.slot fd d = some w)
    (sockets : loop'.kernel.sockets = loop.kernel.sockets) : Bound loop' := by
  intro fd d w stored
  rw [sockets]
  exact bound fd d w (slots fd d w stored)

theorem Bound.update {loop loop' : EventLoop Kernel Waiter} (bound : Bound loop) {fd : Fd}
    (slots : ∀ fd' d w, loop'.slot fd' d = some w → loop.slot fd' d = some w)
    (sockets : ∀ fd', fd' ≠ fd → loop'.kernel.sockets fd' = loop.kernel.sockets fd')
    (absent : ∀ d, loop'.slot fd d = none) : Bound loop' := by
  intro fd' d w stored
  have different : fd' ≠ fd := by
    rintro rfl
    rw [absent] at stored
    cases stored
  rw [sockets fd' different]
  exact bound fd' d w (slots fd' d w stored)

theorem sockets_remove (fd : Fd) (loop : EventLoop Kernel Waiter) :
    (remove api fd loop).kernel.sockets = loop.kernel.sockets := by
  unfold remove
  split
  · rfl
  · simp [api]

theorem slot_remove_some {fd fd' : Fd} {d : Direction} {w : Waiter}
    {loop : EventLoop Kernel Waiter} (stored : (remove api fd loop).slot fd' d = some w) :
    loop.slot fd' d = some w := by
  have slots : (remove api fd loop).slot fd' d = if fd' = fd ∧ 0 ≤ fd then none else loop.slot fd' d :=
    (linux_lawful api system).remove_slot fd loop fd' d
  rw [slots] at stored
  split at stored
  · cases stored
  · exact stored

theorem slot_removed {fd : Fd} {loop : EventLoop Kernel Waiter}
    (valid : ∀ d w, loop.slot fd d = some w → 0 ≤ fd) (d : Direction) :
    (remove api fd loop).slot fd d = none := by
  by_cases negative : 0 ≤ fd
  · exact ((linux_lawful api system).remove_slot fd loop fd d).trans (if_pos ⟨rfl, negative⟩)
  · cases stored : (remove api fd loop).slot fd d with
    | none => rfl
    | some w => exact absurd (valid d w (slot_remove_some stored)) negative

theorem sockets_dispatch (event : EpollEvent) (loop : EventLoop Kernel Waiter) :
    (dispatch api event loop).1.kernel.sockets = loop.kernel.sockets := by
  by_cases wakeup : event.fd = loop.wakeupFd
  · rw [dispatch_wakeup api wakeup]
    rfl
  · cases present : loop.states event.fd with
    | none => rw [dispatch_none api wakeup present]
    | some state =>
      rcases dispatch_cases api wakeup present with
        ⟨_, _, kernel, call, result⟩ | ⟨_, kernel, call, ⟨_, result⟩ | ⟨_, _, _, _, result⟩⟩ <;>
        rw [result] <;> exact (congrArg (·.2.sockets) call).symm.trans (Kernel.sockets_ctl ..)

theorem Bound.wait {loop : EventLoop Kernel Waiter} (bound : Bound loop) {fd : Fd} {w : Waiter}
    (socket : w.socket = loop.kernel.sockets fd) (d : Direction) (et : Bool) :
    Bound ((awaiter fd d et).awaitSuspend api w loop).1 := by
  rcases awaitSuspend_cases api fd d et w loop with
    ⟨_, error, result⟩ | ⟨_, kernel, error, call, result⟩ | ⟨valid, kernel, call, result⟩
  · rw [result]
    exact bound
  · rw [result]
    apply bound.subset
    · intro fd' d' w' stored
      rw [EventLoop.slot_erase] at stored
      split at stored
      · cases stored
      · exact stored
    · exact (congrArg (·.2.sockets) call).symm.trans (Kernel.sockets_ctl ..)
  · have sockets : kernel.sockets = loop.kernel.sockets :=
      (congrArg (·.2.sockets) call).symm.trans (Kernel.sockets_ctl ..)
    have isOpen : loop.kernel.sockets fd ≠ none := Kernel.open_of_ctl (congrArg (·.1) call)
    rw [result]
    intro fd' d' w' stored
    rw [EventLoop.slot_wait] at stored
    rw [EventLoop.kernel_store, EventLoop.kernel_withKernel, sockets]
    split at stored
    · rename_i slot
      cases Option.some.inj stored
      rw [slot.1]
      exact ⟨valid, isOpen, socket⟩
    · exact bound fd' d' w' stored

theorem step_bound {s t : World Kernel EpollEvent} {a : Act EpollEvent Change}
    (bound : Bound s.loop) (step : step epoll s a = some t) : Bound t.loop := by
  cases step_effect epoll step with
  | none loop _ =>
    rw [loop]
    exact bound
  | wait f fd d et loop _ =>
    rw [loop]
    exact bound.wait rfl d et
  | remove fd _ loop _ =>
    rw [loop]
    exact bound.subset (fun _ _ _ stored => slot_remove_some stored) (sockets_remove fd s.loop)
  | close fd _ loop _ =>
    rw [loop]
    apply bound.update
    · exact fun _ _ _ stored => slot_remove_some stored
    · intro fd' different
      exact (Function.update_of_ne different ..).trans (congrFun (sockets_remove fd s.loop) fd')
    · exact slot_removed fun d w stored => (bound fd d w stored).1
  | closeServer fd _ loop _ =>
    rw [loop]
    apply bound.update
    · intro fd' d w stored
      have before := slot_remove_some stored
      exact before
    · intro fd' different
      rw [show (epoll.remove fd _).kernel.sockets = _ from sockets_remove fd _]
      exact Function.update_of_ne different ..
    · exact slot_removed fun d w stored => (bound fd d w stored).1
  | openFd fd k opened loop _ =>
    change s.loop.kernel.openFd fd = some k at opened
    simp only [Kernel.openFd, Option.ite_none_right_eq_some, Option.some.injEq] at opened
    obtain ⟨⟨_, free⟩, rfl⟩ := opened
    rw [loop]
    apply bound.update
    · exact fun _ _ _ stored => stored
    · exact fun fd' different => Function.update_of_ne different ..
    · intro d
      cases stored : s.loop.slot fd d with
      | none => exact stored
      | some w => exact absurd free (bound fd d w stored).2.1
  | change env k changed loop _ =>
    rw [loop]
    cases env with
    | ready fd bits =>
      cases Option.some.inj changed
      exact bound.subset (fun _ _ _ stored => stored) rfl
    | fault errno =>
      cases Option.some.inj changed
      exact bound.subset (fun _ _ _ stored => stored) rfl
  | wake reports k _ woken loop _ =>
    change s.loop.kernel.wait reports = some k at woken
    simp only [Kernel.wait, Option.ite_none_right_eq_some, Option.some.injEq] at woken
    obtain ⟨_, rfl⟩ := woken
    rw [loop]
    exact bound.subset (fun _ _ _ stored => stored) rfl
  | dispatch report _ _ loop =>
    rw [loop]
    apply bound.subset
    · intro fd d w stored
      by_cases wakeup : report.event.fd = s.loop.wakeupFd
      · rw [((linux_lawful api system).dispatch_wakeup report.event s.loop wakeup).2] at stored
        exact stored
      · rw [(linux_lawful api system).dispatch_slot report.event s.loop wakeup] at stored
        split at stored
        · cases stored
        · exact stored
    · exact sockets_dispatch report.event s.loop

theorem start_bound {s : World Kernel EpollEvent} (start : Start epoll s) : Bound s.loop := by
  intro fd d w stored
  rw [EventLoop.slot, start.states] at stored
  cases stored

/-- Dispatching a report resumes only coroutines that wait on the socket it was made for. -/
def Matched (s : World Kernel EpollEvent) : Act EpollEvent Change → Prop
  | .dispatch => ∀ report ∈ s.batch.head?, ∀ w ∈ (dispatch api report.event s.loop).2.handles,
      w.socket = some report.socket
  | _ => True

/-- A report is dispatched to waiters only while its descriptor number still names the
socket it was made for. -/
def Current (s : World Kernel EpollEvent) : Act EpollEvent Change → Prop
  | .dispatch => ∀ report ∈ s.batch.head?,
      s.loop.taken report.event.fd (covers report.event.events) ≠ [] →
        s.loop.kernel.sockets report.event.fd = some report.socket
  | _ => True

theorem Bound.taken {loop : EventLoop Kernel Waiter} (bound : Bound loop) {fd : Fd}
    {covers : Direction → Bool} {w : Waiter} (member : w ∈ loop.taken fd covers) :
    w.socket = loop.kernel.sockets fd := by
  obtain ⟨d, _, stored⟩ := EventLoop.mem_taken.mp member
  exact (bound fd d w stored).2.2

theorem handles_dispatch {event : EpollEvent} {loop : EventLoop Kernel Waiter} {w : Waiter}
    (member : w ∈ (dispatch api event loop).2.handles) :
    w ∈ loop.taken event.fd (covers event.events) := by
  by_cases wakeup : event.fd = loop.wakeupFd
  · rw [dispatch_wakeup api wakeup] at member
    cases member
  · have result := (linux_lawful api system).dispatch_resume event loop wakeup
    change (dispatch api event loop).2 = .resume (loop.taken event.fd (covers event.events)) ∨
      ∃ error, (dispatch api event loop).2 = .threw error at result
    rcases result with resumes | ⟨error, threw⟩
    · rw [resumes] at member
      exact member
    · rw [threw] at member
      cases member

theorem matched_of_current {s : World Kernel EpollEvent} {a : Act EpollEvent Change}
    (bound : Bound s.loop) (current : Current s a) : Matched s a := by
  cases a with
  | dispatch =>
    intro report head w member
    have taken := handles_dispatch member
    rw [bound.taken taken]
    exact current report head (List.ne_nil_of_mem taken)
  | _ => trivial

theorem current_of_matched {s : World Kernel EpollEvent} {a : Act EpollEvent Change}
    (inStep : InStep s.loop) (bound : Bound s.loop) (matched : Matched s a) : Current s a := by
  cases a with
  | dispatch =>
    intro report head waited
    obtain ⟨w, taken⟩ := List.exists_mem_of_ne_nil _ waited
    rw [← bound.taken taken]
    exact matched report head w ((inStep.handles_dispatch report.event).symm ▸ taken)
  | _ => trivial

/-- Every report of a run is dispatched to the coroutines waiting on its own socket if no
report finds a waiter after its descriptor number has been reused, and only if, as long as
epoll_ctl does not fail. -/
theorem reports_matched_iff {s : World Kernel EpollEvent} (start : Start epoll s)
    (actions : List (Act EpollEvent Change)) :
    ((machine epoll).Each Current s actions → (machine epoll).Each Matched s actions) ∧
      ((machine epoll).Each (fun _ a => FaultFree a) s actions →
        (machine epoll).Each Matched s actions → (machine epoll).Each Current s actions) := by
  constructor
  · intro current
    have preserves : ∀ s a t, Bound s.loop → True → (machine epoll).step s a = some t →
        Bound t.loop := fun _ _ _ bound _ step => step_bound bound step
    exact .imp preserves (fun _ _ bound _ met => matched_of_current bound met) (start_bound start)
      (Transition.Machine.each_true s actions) current
  · intro faultFree matched
    have preserves : ∀ s a t, InStep s.loop ∧ Bound s.loop → FaultFree a →
        (machine epoll).step s a = some t → InStep t.loop ∧ Bound t.loop :=
      fun _ _ _ inv fine step => ⟨step_inStep inv.1 fine step, step_bound inv.2 step⟩
    exact .imp preserves (fun _ _ inv _ met => current_of_matched inv.1 inv.2 met)
      ⟨start_inStep start, start_bound start⟩ faultFree matched

instance (s : World Kernel EpollEvent) : ∀ a, Decidable (Matched s a)
  | .dispatch => inferInstanceAs (Decidable (∀ report ∈ s.batch.head?,
      ∀ w ∈ (dispatch api report.event s.loop).2.handles, w.socket = some report.socket))
  | .wait .. | .remove _ | .close _ | .closeServer _ | .openFd _ | .destroy _ | .change _ | .block
  | .wake _ | .interrupted | .resume | .suspend => isTrue trivial

instance (s : World Kernel EpollEvent) : ∀ a, Decidable (Current s a)
  | .dispatch => inferInstanceAs (Decidable (∀ report ∈ s.batch.head?,
      s.loop.taken report.event.fd (covers report.event.events) ≠ [] →
        s.loop.kernel.sockets report.event.fd = some report.socket))
  | .wait .. | .remove _ | .close _ | .closeServer _ | .openFd _ | .destroy _ | .change _ | .block
  | .wake _ | .interrupted | .resume | .suspend => isTrue trivial

/-- Coroutines 0 and 1 read from the sockets 5 and 6. One batch reports both; coroutine 0
closes socket 6, and the next socket gets its number. -/
def reusedNumber : List (Act EpollEvent Change) :=
  [.openFd 5, .openFd 6, .wait 0 5 .read false, .wait 1 6 .read false,
    .change (.ready 5 EPOLLIN), .change (.ready 6 (EPOLLIN ||| EPOLLOUT)), .block,
    .wake [⟨⟨EPOLLIN, 5⟩, 1⟩, ⟨⟨EPOLLIN ||| EPOLLOUT, 6⟩, 2⟩], .dispatch, .resume, .close 6,
    .openFd 6]

theorem reports_matched_reusedNumber : (machine epoll).Each Matched epollBoot
    (reusedNumber ++ [.suspend, .resume, .dispatch]) :=
  (reports_matched_iff epollBoot_start _).1 (by decide)

/-- A coroutine that waits for the new socket to connect is resumed by the old report. -/
theorem stale_report_resumes_connecting : ¬ ∀ actions,
    (machine epoll).Each (fun _ a => FaultFree a) epollBoot actions →
      (machine epoll).Each Matched epollBoot actions := by
  intro always
  have stale : ¬ (machine epoll).Each Matched epollBoot
      (reusedNumber ++ [.wait 2 6 .write false, .suspend, .resume, .dispatch]) := by decide
  exact stale (always _ (by decide))

end CoroEpoll.Reactor
