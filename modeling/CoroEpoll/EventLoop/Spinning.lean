import CoroEpoll.EventLoop.Readiness

/-! A loop that does not spin: a wait registers both directions of its descriptor, and the
first dispatch that finds nobody to resume narrows the registration to the waiters.
-/

set_option autoImplicit false

namespace CoroEpoll.Reactor

open Epoll Linux

def touches (fd : Fd) : Act EpollEvent Change → Bool
  | .wait _ fd' _ _ => fd' == fd
  | .remove fd' | .close fd' | .closeServer fd' => fd' == fd
  | _ => false

/-- A wait on the descriptor, or its removal while the batch still has a report for it. -/
def unsettles (fd : Fd) (s : World Kernel EpollEvent) : Act EpollEvent Change → Bool
  | .wait _ fd' _ _ => fd' == fd
  | .remove fd' | .close fd' | .closeServer fd' =>
    fd' == fd && s.batch.any fun report => report.event.fd == fd
  | _ => false

theorem unsettles_of_untouched {fd : Fd} {a : Act EpollEvent Change} (untouched : touches fd a = false)
    (s : World Kernel EpollEvent) : unsettles fd s a = false := by
  cases a with
  | wait f fd' d et => exact untouched
  | remove fd' | close fd' | closeServer fd' =>
    exact Bool.and_eq_false_imp.mpr fun same => by
      rw [touches, same] at untouched
      cases untouched
  | _ => rfl

def wakesNobody (fd : Fd) (s : World Kernel EpollEvent) : Act EpollEvent Change → Bool
  | .dispatch => s.phase == .batch && s.batch.head?.any fun report =>
      report.event.fd == fd && (dispatch api report.event s.loop).2.handles.isEmpty
  | _ => false

/-- The registration of a descriptor names the directions of its waiters and no others. -/
def Narrow (loop : EventLoop Kernel Waiter) (fd : Fd) : Prop :=
  ∀ state r, loop.states fd = some state → loop.kernel.interest fd = some r →
    r.events = activeEvents state ||| edgeBit state.edgeTrigger

/-- Every report for the descriptor, in the batch or to come, resumes a coroutine. -/
structure Quiet (loop : EventLoop Kernel Waiter) (batch : List (Report EpollEvent)) (fd : Fd) :
    Prop where
  narrow : Narrow loop fd
  reports : ∀ report ∈ batch, report.event.fd = fd →
    loop.taken fd (covers report.event.events) ≠ []

def Distinct (batch : List (Report EpollEvent)) : Prop := (batch.map (·.event.fd)).Nodup

theorem Narrow.rearm {loop loop' : EventLoop Kernel Waiter} {fd : Fd} (narrow : Narrow loop fd)
    (states : loop'.states fd = loop.states fd) {armed : Registration → Bool}
    (interest : loop'.kernel.interest fd =
      (loop.kernel.interest fd).map fun r => { r with armed := armed r }) : Narrow loop' fd := by
  intro state r found registered
  rw [interest] at registered
  obtain ⟨before, there, rfl⟩ := Option.map_eq_some_iff.mp registered
  exact narrow state before (states ▸ found) there

theorem Narrow.congr {loop loop' : EventLoop Kernel Waiter} {fd : Fd} (narrow : Narrow loop fd)
    (states : loop'.states fd = loop.states fd)
    (interest : loop'.kernel.interest fd = loop.kernel.interest fd) : Narrow loop' fd := by
  intro state r found registered
  exact narrow state r (states ▸ found) (interest ▸ registered)

theorem taken_congr {loop loop' : EventLoop Kernel Waiter} {fd : Fd}
    (states : loop'.states fd = loop.states fd) (covers : Direction → Bool) :
    loop'.taken fd covers = loop.taken fd covers := by
  simp only [EventLoop.taken, EventLoop.entry, states]

theorem Quiet.of_narrow {loop loop' : EventLoop Kernel Waiter}
    {batch batch' : List (Report EpollEvent)} {fd : Fd} (quiet : Quiet loop batch fd)
    (narrow : Narrow loop' fd) (states : loop'.states fd = loop.states fd)
    (reports : ∀ report ∈ batch', report.event.fd = fd → report ∈ batch) :
    Quiet loop' batch' fd := by
  refine ⟨narrow, fun report listed same => ?_⟩
  rw [taken_congr states]
  exact quiet.reports report (reports report listed same) same

theorem Quiet.congr {loop loop' : EventLoop Kernel Waiter} {batch : List (Report EpollEvent)}
    {fd : Fd} (quiet : Quiet loop batch fd) (states : loop'.states fd = loop.states fd)
    (interest : loop'.kernel.interest fd = loop.kernel.interest fd) : Quiet loop' batch fd :=
  quiet.of_narrow (quiet.narrow.congr states interest) states fun _ listed _ => listed

theorem watched_narrow (state : FdState Waiter) (armed : Bool) :
    Registration.watched ⟨activeEvents state ||| edgeBit state.edgeTrigger, armed⟩ =
      activeEvents state ||| (EPOLLERR ||| EPOLLHUP) := by
  rw [Registration.watched, activeEvents_eq]
  dsimp only
  cases state.readHandle.isSome <;> cases state.writeHandle.isSome <;>
    cases state.edgeTrigger <;> decide

theorem wanted_of_active {state : FdState Waiter} {events : EventMask}
    (waited : ∃ d, (state.handle d).isSome = true)
    (met : overlaps events (activeEvents state ||| (EPOLLERR ||| EPOLLHUP)) = true) :
    ∃ d, (state.handle d).isSome = true ∧ overlaps events (wanted d) = true := by
  -- an error or a hang-up concerns every waiter, a ready direction its own one
  rw [overlaps_or, Bool.or_eq_true] at met
  rcases met with active | failed
  · rw [activeEvents_eq, overlaps_or, Bool.or_eq_true] at active
    have named : ∀ d, overlaps events (if (state.handle d).isSome then directionBit d else 0#32) =
        true → (state.handle d).isSome = true ∧ overlaps events (wanted d) = true := by
      intro d bit
      split at bit
      · rename_i waiting
        exact ⟨waiting, by rw [wanted, overlaps_or, bit, Bool.true_or]⟩
      · simp [overlaps] at bit
    rcases active with read | write
    · exact ⟨.read, named .read read⟩
    · exact ⟨.write, named .write write⟩
  · obtain ⟨d, waiting⟩ := waited
    exact ⟨d, waiting, by rw [wanted, overlaps_or, failed, Bool.or_true]⟩

theorem Narrow.takes {loop : EventLoop Kernel Waiter} {fd : Fd} (narrow : Narrow loop fd)
    {state : FdState Waiter} {r : Registration} (found : loop.states fd = some state)
    (registered : loop.kernel.interest fd = some r) (serves : Serves r state)
    (nonzero : loop.kernel.reported fd r ≠ 0#32) :
    loop.taken fd (covers (loop.kernel.reported fd r)) ≠ [] := by
  have watched : r.watched = activeEvents state ||| (EPOLLERR ||| EPOLLHUP) := by
    rw [← watched_narrow state r.armed, ← narrow state r found registered]
  have met : overlaps (loop.kernel.ready fd) r.watched = true := bne_iff_ne.mpr nonzero
  rw [watched] at met
  obtain ⟨d, waiting, wants⟩ := wanted_of_active serves.waited met
  obtain ⟨w, stored⟩ := Option.isSome_iff_exists.mp waiting
  have included := includes_watched (serves.covered d waiting)
  have covered : covers (loop.kernel.reported fd r) d = true := by
    apply covers_of_wanted
    rw [Kernel.reported, included.overlaps_and]
    exact wants
  rw [EventLoop.taken_present found]
  exact List.ne_nil_of_mem (FdState.mem_taken.mpr ⟨d, covered, stored⟩)

/-! ## Steps -/

theorem Quiet.wake {loop : EventLoop Kernel Waiter} {batch : List (Report EpollEvent)} {fd : Fd}
    (inStep : InStep loop) (notWakeup : fd ≠ loop.wakeupFd) (quiet : Quiet loop batch fd)
    {reports : List (Report EpollEvent)} {k : Kernel} (woken : loop.kernel.wait reports = some k) :
    Quiet (loop.withKernel k) reports fd := by
  simp only [Kernel.wait, Option.ite_none_right_eq_some, Option.some.injEq] at woken
  obtain ⟨⟨_, pending⟩, rfl⟩ := woken
  constructor
  · by_cases member : fd ∈ reports.map (·.event.fd)
    · exact @Narrow.rearm _ _ fd quiet.narrow rfl (fun _ => false) (if_pos member)
    · exact quiet.narrow.congr rfl (if_neg member)
  · rintro report listed rfl
    have may := pending report listed
    simp only [Kernel.mayReport, Bool.and_eq_true, beq_iff_eq] at may
    -- a report has what is ready of the registration; one that is due has some of it
    obtain ⟨⟨due, _⟩, exactly⟩ := may
    cases registered : loop.kernel.interest report.event.fd with
    | none => simp [registered] at exactly
    | some r =>
      simp only [registered, Option.any_some, beq_iff_eq] at exactly
      simp only [Kernel.pending, registered, Bool.and_eq_true, bne_iff_ne] at due
      change loop.taken report.event.fd (covers report.event.events) ≠ []
      cases found : loop.states report.event.fd with
      | none =>
        have absent := inStep.entries _ notWakeup
        rw [found] at absent
        cases registered.symm.trans absent
      | some state =>
        obtain ⟨_, _, _, r', again, serves⟩ := inStep.present found
        cases registered.symm.trans again
        rw [← exactly]
        exact quiet.narrow.takes found registered serves due.1

theorem quiet_dispatched {loop : EventLoop Kernel Waiter} {report : Report EpollEvent}
    {rest : List (Report EpollEvent)} (inStep : InStep loop)
    (notWakeup : report.event.fd ≠ loop.wakeupFd) (distinct : Distinct (report :: rest)) :
    Quiet (dispatch api report.event loop).1 rest report.event.fd := by
  -- no report of the batch is left that was made for the registration before
  have only : ∀ later ∈ rest, later.event.fd ≠ report.event.fd := by
    intro later listed same
    have absent := (List.nodup_cons.mp distinct).1
    exact absent (List.mem_map.mpr ⟨later, listed, same⟩)
  refine ⟨?_, fun later listed same => absurd same (only later listed)⟩
  intro state r found registered
  cases before : loop.states report.event.fd with
  | none =>
    rw [dispatch_none api notWakeup before, before] at found
    cases found
  | some entry =>
    rcases inStep.dispatch_cases before with ⟨_, result⟩ | ⟨_, result⟩
    · rw [result, EventLoop.states_erase_same] at found
      cases found
    · rw [result, EventLoop.states_store_same] at found
      cases Option.some.inj found
      rw [result, EventLoop.kernel_store, EventLoop.kernel_withKernel,
        Kernel.interest_register_same] at registered
      cases Option.some.inj registered
      rfl

theorem wait_states_ne {loop : EventLoop Kernel Waiter} (inStep : InStep loop) {fd fd' : Fd}
    (different : fd ≠ fd') (d : Direction) (et : Bool) (w : Waiter) :
    ((awaiter fd' d et).awaitSuspend api w loop).1.states fd = loop.states fd ∧
      ((awaiter fd' d et).awaitSuspend api w loop).1.kernel.interest fd =
        loop.kernel.interest fd := by
  rcases inStep.wait_cases fd' d et w with ⟨_, _, _, result⟩ | ⟨error, result⟩
  · rw [result]
    exact ⟨EventLoop.states_store_ne different _ _, Kernel.interest_register_ne different _ _⟩
  · rw [result]
    exact ⟨rfl, rfl⟩

theorem remove_ne (loop : EventLoop Kernel Waiter) {fd fd' : Fd} (different : fd ≠ fd') :
    (Linux.remove api fd' loop).states fd = loop.states fd ∧
      (Linux.remove api fd' loop).kernel.interest fd = loop.kernel.interest fd := by
  unfold Linux.remove
  split
  · exact ⟨rfl, rfl⟩
  · exact ⟨EventLoop.states_erase_ne different _, Kernel.interest_ctl_ne different _ _⟩

theorem dispatch_ne {loop : EventLoop Kernel Waiter} (inStep : InStep loop) {event : EpollEvent}
    {fd : Fd} (different : fd ≠ event.fd) (notWakeup : fd ≠ loop.wakeupFd) :
    (dispatch api event loop).1.states fd = loop.states fd ∧
      (dispatch api event loop).1.kernel.interest fd = loop.kernel.interest fd := by
  cases found : loop.states event.fd with
  | none =>
    rcases dispatch_absent found with result | ⟨_, result⟩
    · rw [result]
      exact ⟨rfl, rfl⟩
    · rw [result]
      exact ⟨rfl, Kernel.interest_setReady_ne notWakeup _ _⟩
  | some state =>
    rcases inStep.dispatch_cases found with ⟨_, result⟩ | ⟨_, result⟩
    · rw [result]
      exact ⟨EventLoop.states_erase_ne different _, Kernel.interest_ctl_ne different _ _⟩
    · rw [result]
      exact ⟨EventLoop.states_store_ne different _ _, Kernel.interest_register_ne different _ _⟩

theorem step_distinct {s t : World Kernel EpollEvent} {a : Act EpollEvent Change}
    (distinct : Distinct s.batch) (step : step epoll s a = some t) : Distinct t.batch := by
  cases step_effect epoll step with
  | none _ batch | wait _ _ _ _ _ batch | remove _ _ _ batch | close _ _ _ batch
  | closeServer _ _ _ batch | openFd _ _ _ _ batch | change _ _ _ _ batch =>
    rw [batch]
    exact distinct
  | wake reports k _ woken _ batch =>
    change s.loop.kernel.wait reports = some k at woken
    simp only [Kernel.wait, Option.ite_none_right_eq_some, Option.some.injEq] at woken
    rw [batch]
    exact woken.1.1
  | dispatch report _ batch _ =>
    rw [batch] at distinct
    exact (List.nodup_cons.mp distinct).2

theorem step_quiet {s t : World Kernel EpollEvent} {a : Act EpollEvent Change} {fd : Fd}
    (inStep : InStep s.loop) (distinct : Distinct s.batch) (notWakeup : fd ≠ s.loop.wakeupFd)
    (faultFree : FaultFree a) (untouched : touches fd a = false)
    (quiet : Quiet s.loop s.batch fd) (step : step epoll s a = some t) :
    Quiet t.loop t.batch fd := by
  cases step_effect epoll step with
  | none loop batch =>
    rw [loop, batch]
    exact quiet
  | wait f fd' d et loop batch =>
    have different : fd ≠ fd' := fun same => by simp [touches, same] at untouched
    obtain ⟨states, interest⟩ := wait_states_ne inStep different d et (s.waiter epoll f fd' d)
    rw [loop, batch]
    exact quiet.congr states interest
  | remove fd' _ loop batch =>
    have different : fd ≠ fd' := fun same => by simp [touches, same] at untouched
    obtain ⟨states, interest⟩ := remove_ne s.loop different
    rw [loop, batch]
    exact quiet.congr states interest
  | close fd' _ loop batch =>
    have different : fd ≠ fd' := fun same => by simp [touches, same] at untouched
    obtain ⟨states, interest⟩ := remove_ne s.loop different
    rw [loop, batch]
    exact quiet.congr states ((Function.update_of_ne different ..).trans interest)
  | closeServer fd' _ loop batch =>
    have different : fd ≠ fd' := fun same => by simp [touches, same] at untouched
    obtain ⟨states, interest⟩ :=
      remove_ne (s.loop.withKernel (s.loop.kernel.closeFd fd')) different
    rw [loop, batch]
    exact quiet.congr states (interest.trans (Function.update_of_ne different ..))
  | openFd fd' k opened loop batch =>
    change s.loop.kernel.openFd fd' = some k at opened
    simp only [Kernel.openFd, Option.ite_none_right_eq_some, Option.some.injEq] at opened
    obtain ⟨_, rfl⟩ := opened
    rw [loop, batch]
    refine quiet.of_narrow ?_ rfl fun _ listed _ => listed
    by_cases same : fd = fd'
    · -- a new descriptor is not registered
      intro state r _ registered
      simp [same] at registered
    · exact quiet.narrow.congr rfl (Function.update_of_ne same ..)
  | change env k changed loop batch =>
    rw [loop, batch]
    cases env with
    | ready fd' bits =>
      cases Option.some.inj changed
      refine quiet.of_narrow ?_ rfl fun _ listed _ => listed
      by_cases same : fd = fd'
      · rw [same] at quiet ⊢
        exact quiet.narrow.rearm rfl (Kernel.interest_setReady_same ..)
      · exact quiet.narrow.congr rfl (Kernel.interest_setReady_ne same ..)
    | fault errno => exact faultFree.elim
  | wake reports k _ woken loop batch =>
    rw [loop, batch]
    exact quiet.wake inStep notWakeup woken
  | dispatch report _ batch loop =>
    rw [batch] at distinct quiet
    rw [loop]
    -- a dispatch for the descriptor itself narrows again
    by_cases same : fd = report.event.fd
    · rw [same] at notWakeup ⊢
      exact quiet_dispatched inStep notWakeup distinct
    · obtain ⟨states, interest⟩ := dispatch_ne inStep same notWakeup
      exact quiet.of_narrow (quiet.narrow.congr states interest) states
        fun _ listed _ => List.mem_cons_of_mem _ listed

theorem step_wakeupFd {s t : World Kernel EpollEvent} {a : Act EpollEvent Change}
    (step : step epoll s a = some t) : t.loop.wakeupFd = s.loop.wakeupFd := by
  have lawful := linux_lawful api system
  cases step_effect epoll step with
  | none loop => rw [loop]
  | wait f fd d et loop =>
    rw [loop]
    exact lawful.wait_wakeupFd ..
  | remove fd _ loop =>
    rw [loop]
    exact lawful.remove_wakeupFd ..
  | close fd _ loop =>
    rw [loop]
    exact lawful.remove_wakeupFd ..
  | closeServer fd _ loop =>
    rw [loop]
    exact lawful.remove_wakeupFd ..
  | openFd fd k _ loop => rw [loop, EventLoop.wakeupFd_withKernel]
  | change env k _ loop => rw [loop, EventLoop.wakeupFd_withKernel]
  | wake reports k _ _ loop => rw [loop, EventLoop.wakeupFd_withKernel]
  | dispatch report _ _ loop =>
    rw [loop]
    exact lawful.dispatch_wakeupFd ..

/-! ## Runs -/

structure Steady (wakeupFd : Fd) (s : World Kernel EpollEvent) : Prop where
  inStep : InStep s.loop
  distinct : Distinct s.batch
  wakeup : s.loop.wakeupFd = wakeupFd

theorem start_steady {s : World Kernel EpollEvent} (start : Start epoll s) :
    Steady s.loop.wakeupFd s where
  inStep := start_inStep start
  distinct := by
    rw [Distinct, start.batch]
    exact List.nodup_nil
  wakeup := rfl

theorem Steady.step {wakeupFd : Fd} {s t : World Kernel EpollEvent} {a : Act EpollEvent Change}
    (steady : Steady wakeupFd s) (faultFree : FaultFree a)
    (step : (machine epoll).step s a = some t) : Steady wakeupFd t where
  inStep := step_inStep steady.inStep faultFree step
  distinct := step_distinct steady.distinct step
  wakeup := (step_wakeupFd step).trans steady.wakeup

theorem reachable_steady {s : World Kernel EpollEvent}
    (reached : (machine epoll).ReachableWhere (fun _ a => FaultFree a) s) :
    Steady s.loop.wakeupFd s := by
  have preserves : ∀ s a t, Steady s.loop.wakeupFd s → FaultFree a →
      (machine epoll).step s a = some t → Steady t.loop.wakeupFd t := by
    intro s a t steady faultFree step
    have after := steady.step faultFree step
    rw [after.wakeup]
    exact after
  exact reached.invariant (fun _ start => start_steady start) preserves

theorem dispatched {s t : World Kernel EpollEvent} {report : Report EpollEvent}
    {rest : List (Report EpollEvent)} (batch : s.batch = report :: rest)
    (step : step epoll s .dispatch = some t) :
    t.loop = (dispatch api report.event s.loop).1 ∧ t.batch = rest := by
  obtain ⟨_, moves⟩ := Option.ite_none_right_eq_some.mp step
  rw [batch] at moves
  cases Option.some.inj moves
  rcases result : epoll.dispatch report.event s.loop with ⟨loop, next⟩
  have same : (dispatch api report.event s.loop).1 = loop := congrArg Prod.fst result
  rw [same]
  cases next <;> simp [World.dispatch, result]

theorem wakesNobody_cons {fd : Fd} {s : World Kernel EpollEvent} {report : Report EpollEvent}
    {rest : List (Report EpollEvent)} (inStep : InStep s.loop) (batch : s.batch = report :: rest) :
    wakesNobody fd s .dispatch = true ↔ s.phase = .batch ∧ report.event.fd = fd ∧
      s.loop.taken report.event.fd (covers report.event.events) = [] := by
  simp [wakesNobody, batch, inStep.handles_dispatch]

theorem Steady.quiet {wakeupFd fd : Fd} {s : World Kernel EpollEvent} (steady : Steady wakeupFd s)
    (quiet : Quiet s.loop s.batch fd) (a : Act EpollEvent Change) :
    wakesNobody fd s a = false := by
  cases a with
  | dispatch =>
    cases batch : s.batch with
    | nil => simp [wakesNobody, batch]
    | cons report rest =>
      rw [Bool.eq_false_iff, ne_eq, wakesNobody_cons steady.inStep batch]
      rintro ⟨_, rfl, nobody⟩
      exact quiet.reports report (batch ▸ List.mem_cons_self) rfl nobody
  | _ => rfl

theorem Steady.settles {wakeupFd fd : Fd} {s t : World Kernel EpollEvent}
    {a : Act EpollEvent Change} (steady : Steady wakeupFd s) (notWakeup : fd ≠ wakeupFd)
    (nobody : wakesNobody fd s a = true) (step : (machine epoll).step s a = some t) :
    Quiet t.loop t.batch fd := by
  cases a with
  | dispatch =>
    cases batch : s.batch with
    | nil => simp [wakesNobody, batch] at nobody
    | cons report rest =>
      obtain ⟨_, rfl, _⟩ := (wakesNobody_cons steady.inStep batch).mp nobody
      obtain ⟨loop, remaining⟩ := dispatched batch step
      have distinct := steady.distinct
      rw [batch] at distinct
      rw [loop, remaining]
      exact quiet_dispatched steady.inStep (steady.wakeup.symm ▸ notWakeup) distinct
  | _ => cases nobody

theorem quiet_of_absent {loop : EventLoop Kernel Waiter} {batch : List (Report EpollEvent)} {fd : Fd}
    (absent : loop.states fd = none)
    (unreported : (batch.any fun report => report.event.fd == fd) = false) : Quiet loop batch fd := by
  constructor
  · intro state r found
    rw [absent] at found
    cases found
  · intro report listed same
    have apart := List.any_eq_false.mp unreported report listed
    exact absurd (beq_iff_eq.mpr same) apart

theorem step_removed {s t : World Kernel EpollEvent} {a : Act EpollEvent Change} {fd : Fd}
    (inStep : InStep s.loop) (removes : a = .remove fd ∨ a = .close fd ∨ a = .closeServer fd)
    (step : step epoll s a = some t) : t.loop.states fd = none ∧ t.batch = s.batch := by
  rcases removes with rfl | rfl | rfl
  · simp only [Reactor.step, Option.ite_none_right_eq_some, Option.some.injEq] at step
    obtain ⟨_, rfl⟩ := step
    exact ⟨inStep.removed fd, rfl⟩
  · simp only [Reactor.step, Option.ite_none_right_eq_some, Option.some.injEq] at step
    obtain ⟨_, rfl⟩ := step
    exact ⟨inStep.removed fd, rfl⟩
  · simp only [Reactor.step, Option.ite_none_right_eq_some, Option.some.injEq] at step
    obtain ⟨_, rfl⟩ := step
    refine ⟨?_, rfl⟩
    change (Linux.remove api fd (s.loop.withKernel (s.loop.kernel.closeFd fd))).states fd = none
    rw [remove_closed inStep.faultless]
    exact inStep.removed fd

theorem Steady.keeps {wakeupFd fd : Fd} {s t : World Kernel EpollEvent} {a : Act EpollEvent Change}
    (steady : Steady wakeupFd s) (notWakeup : fd ≠ wakeupFd) (faultFree : FaultFree a)
    (quiet : Quiet s.loop s.batch fd) (settled : unsettles fd s a = false)
    (step : (machine epoll).step s a = some t) : Quiet t.loop t.batch fd := by
  have untouched : touches fd a = false → Quiet t.loop t.batch fd := fun untouched =>
    step_quiet steady.inStep steady.distinct (steady.wakeup.symm ▸ notWakeup) faultFree untouched
      quiet step
  have removed : a = .remove fd ∨ a = .close fd ∨ a = .closeServer fd →
      (s.batch.any fun report => report.event.fd == fd) = false → Quiet t.loop t.batch fd := by
    intro removes unreported
    obtain ⟨absent, batch⟩ := step_removed steady.inStep removes step
    exact quiet_of_absent absent (batch ▸ unreported)
  cases a with
  | wait f fd' d et => exact untouched settled
  | remove fd' | close fd' | closeServer fd' =>
    by_cases same : fd' = fd
    · subst same
      simp only [unsettles, beq_self_eq_true, Bool.true_and] at settled
      exact removed (by simp) settled
    · exact untouched (beq_false_of_ne same)
  | _ => exact untouched rfl

theorem Steady.prompt {wakeupFd fd : Fd} {s : World Kernel EpollEvent}
    {actions : List (Act EpollEvent Change)} (steady : Steady wakeupFd s)
    (notWakeup : fd ≠ wakeupFd) (quiet : Quiet s.loop s.batch fd)
    (each : (machine epoll).Each (fun _ a => FaultFree a ∧ touches fd a = false) s actions) :
    (machine epoll).Each (fun u a => wakesNobody fd u a = false) s actions := by
  have preserves : ∀ s a t, Steady wakeupFd s ∧ Quiet s.loop s.batch fd →
      FaultFree a ∧ touches fd a = false → (machine epoll).step s a = some t →
      Steady wakeupFd t ∧ Quiet t.loop t.batch fd := by
    rintro s a t ⟨steady, quiet⟩ ⟨faultFree, untouched⟩ step
    have settled := unsettles_of_untouched untouched s
    exact ⟨steady.step faultFree step, steady.keeps notWakeup faultFree quiet settled step⟩
  exact .imp preserves (fun _ a inv _ _ => inv.1.quiet inv.2 a) ⟨steady, quiet⟩ each
    (Transition.Machine.each_true s actions)

theorem Steady.thrifty {wakeupFd fd : Fd} {s : World Kernel EpollEvent}
    {actions : List (Act EpollEvent Change)} (steady : Steady wakeupFd s)
    (notWakeup : fd ≠ wakeupFd) (settled : Quiet s.loop s.batch fd)
    (each : (machine epoll).Each (fun _ a => FaultFree a) s actions) :
    (machine epoll).count (wakesNobody fd) s actions ≤
      (machine epoll).count (unsettles fd) s actions := by
  have preserves : ∀ s a t, Steady wakeupFd s → FaultFree a →
      (machine epoll).step s a = some t → Steady wakeupFd t :=
    fun _ _ _ steady faultFree step => steady.step faultFree step
  have quiet : ∀ s a, Steady wakeupFd s → Quiet s.loop s.batch fd → wakesNobody fd s a = false :=
    fun _ a steady quiet => steady.quiet quiet a
  -- one dispatch in vain makes the state quiet, and only what unsettles the descriptor ends that
  have settles : ∀ s a t, Steady wakeupFd s → FaultFree a → wakesNobody fd s a = true →
      (machine epoll).step s a = some t → Quiet t.loop t.batch fd :=
    fun _ _ _ steady _ nobody step => steady.settles notWakeup nobody step
  have keeps : ∀ s a t, Steady wakeupFd s → FaultFree a → Quiet s.loop s.batch fd →
      unsettles fd s a = false → (machine epoll).step s a = some t → Quiet t.loop t.batch fd :=
    fun _ _ _ steady faultFree quiet settled step =>
      steady.keeps notWakeup faultFree quiet settled step
  exact (Transition.Machine.count_le_count preserves quiet settles keeps steady each).2 settled

/-- The table and the epoll set are in step, and the loop does not spin. -/
structure RunsInStep (s : World Kernel EpollEvent) : Prop where
  /-- the wakeup descriptor is registered by the constructor and has no entry -/
  registered : ∀ fd, s.loop.kernel.interest fd ≠ none ↔
    fd = s.loop.wakeupFd ∨ s.loop.states fd ≠ none
  waited : ∀ fd state, s.loop.states fd = some state → ∃ d, (state.handle d).isSome = true
  covered : ∀ fd state r, s.loop.states fd = some state → s.loop.kernel.interest fd = some r →
    Includes r.events (activeEvents state)
  edgeTriggered : ∀ fd state r, s.loop.states fd = some state →
    s.loop.kernel.interest fd = some r → r.edgeTriggered = state.edgeTrigger
  /-- after a dispatch that resumes nobody each one resumes somebody, until the next wait on
  the descriptor or its removal -/
  prompt : ∀ fd t actions, fd ≠ s.loop.wakeupFd → wakesNobody fd s .dispatch = true →
    (machine epoll).step s .dispatch = some t →
    (machine epoll).Each (fun _ a => FaultFree a ∧ touches fd a = false) t actions →
      (machine epoll).Each (fun u a => wakesNobody fd u a = false) t actions

theorem includes_active {state : FdState Waiter} {r : Registration} (serves : Serves r state) :
    Includes r.events (activeEvents state) := by
  have named : ∀ d, Includes r.events (if (state.handle d).isSome then directionBit d else 0#32) := by
    intro d
    split
    · rename_i waiting
      exact serves.covered d waiting
    · exact BitVec.and_zero
  rw [activeEvents_eq]
  exact (named .read).or (named .write)

theorem reachable_runsInStep {s : World Kernel EpollEvent}
    (reached : (machine epoll).ReachableWhere (fun _ a => FaultFree a) s) : RunsInStep s := by
  have steady := reachable_steady reached
  have inStep := steady.inStep
  have serves : ∀ fd state r, s.loop.states fd = some state →
      s.loop.kernel.interest fd = some r → Serves r state := by
    intro fd state r found registered
    obtain ⟨_, _, _, r', again, serves⟩ := inStep.present found
    cases registered.symm.trans again
    exact serves
  constructor
  case registered =>
    intro fd
    by_cases wakeup : fd = s.loop.wakeupFd
    · rw [wakeup]
      exact iff_of_true inStep.wakeup_registered (Or.inl rfl)
    · have met := inStep.entries fd wakeup
      cases found : s.loop.states fd with
      | none =>
        rw [found] at met
        simp [wakeup, show s.loop.kernel.interest fd = none from met]
      | some state =>
        obtain ⟨_, _, _, r, registered, _⟩ := inStep.present found
        simp [registered]
  case waited =>
    intro fd state found
    obtain ⟨_, _, _, r, _, serves⟩ := inStep.present found
    exact serves.waited
  case covered => exact fun fd state r found registered => includes_active (serves fd state r found registered)
  case edgeTriggered => exact fun fd state r found registered => (serves fd state r found registered).edgeTriggered
  case prompt =>
    intro fd t actions notWakeup nobody step each
    have quiet := steady.settles notWakeup nobody step
    have after := steady.step (a := .dispatch) trivial step
    exact after.prompt notWakeup quiet each

theorem start_quiet {s : World Kernel EpollEvent} (start : Start epoll s) (fd : Fd) :
    Quiet s.loop s.batch fd := by
  apply quiet_of_absent (start.states fd)
  rw [start.batch]
  rfl

/-- In every run in which epoll_ctl has the resources it needs the table and the epoll set stay
in step, and no more dispatches for a descriptor resume nobody than there are waits on it and
removals that leave a report for it in the batch. -/
theorem runs_in_step {s t : World Kernel EpollEvent} {actions : List (Act EpollEvent Change)}
    (start : Start epoll s) (each : (machine epoll).Each (fun _ a => FaultFree a) s actions)
    (replay : (machine epoll).exec s actions = some t) :
    RunsInStep t ∧ ∀ fd, fd ≠ s.loop.wakeupFd →
      (machine epoll).count (wakesNobody fd) s actions ≤
        (machine epoll).count (unsettles fd) s actions := by
  refine ⟨reachable_runsInStep (.exec (.start start) each replay), fun fd notWakeup => ?_⟩
  exact (start_steady start).thrifty notWakeup (start_quiet start fd) each

def alwaysWritable : List (Act EpollEvent Change) :=
  [.openFd 5, .change (.ready 5 EPOLLOUT), .wait 0 5 .read false, .block,
    .wake [⟨⟨EPOLLOUT, 5⟩, 1⟩], .dispatch]

theorem runs_in_step_alwaysWritable : ∃ s, (machine epoll).exec epollBoot alwaysWritable = some s ∧
    RunsInStep s ∧ (machine epoll).count (wakesNobody 5) epollBoot alwaysWritable = 1 ∧
    1 ≤ (machine epoll).count (unsettles 5) epollBoot alwaysWritable := by
  have run : ((machine epoll).exec epollBoot alwaysWritable).isSome = true := by decide
  have faultFree : (machine epoll).Each (fun _ a => FaultFree a) epollBoot alwaysWritable := by
    decide
  have once : (machine epoll).count (wakesNobody 5) epollBoot alwaysWritable = 1 := by decide
  obtain ⟨s, replay⟩ := Option.isSome_iff_exists.mp run
  obtain ⟨inStep, thrifty⟩ := runs_in_step epollBoot_start faultFree replay
  exact ⟨s, replay, inStep, once, once ▸ thrifty 5 (by decide)⟩

def waitsOn (fd : Fd) : Act EpollEvent Change → Bool
  | .wait _ fd' _ _ => fd' == fd
  | _ => false

/-- Coroutine 1 waits to read from 6, which can be written to: a first dispatch resumes nobody.
Then 5 and 6 have something to read, and the coroutine resumed for 5 removes 6, so that the
report for 6 is dispatched in vain too. -/
def staleReport : List (Act EpollEvent Change) :=
  [.openFd 5, .openFd 6, .wait 0 5 .read false, .wait 1 6 .read false,
    .change (.ready 6 EPOLLOUT), .block, .wake [⟨⟨EPOLLOUT, 6⟩, 2⟩], .dispatch, .resume, .dispatch,
    .change (.ready 5 EPOLLIN), .change (.ready 6 EPOLLIN), .block,
    .wake [⟨⟨EPOLLIN, 5⟩, 1⟩, ⟨⟨EPOLLIN, 6⟩, 2⟩], .dispatch, .resume, .remove 6, .suspend, .resume,
    .dispatch]

/-- The wakeup descriptor is registered and has no entry, and one wait can cost two dispatches
that resume nobody. -/
theorem wakeup_registered_and_stale_report :
    (¬ ∀ s, (machine epoll).ReachableWhere (fun _ a => FaultFree a) s →
      ∀ fd, s.loop.kernel.interest fd ≠ none ↔ s.loop.states fd ≠ none) ∧
    ¬ ∀ actions s, (machine epoll).Each (fun _ a => FaultFree a) epollBoot actions →
      (machine epoll).exec epollBoot actions = some s → ∀ fd, fd ≠ s.loop.wakeupFd →
        (machine epoll).count (wakesNobody fd) epollBoot actions ≤
          (machine epoll).count (fun _ => waitsOn fd) epollBoot actions := by
  constructor
  · intro always
    have registered := (always epollBoot (.start epollBoot_start) 4).mp
    exact registered (by decide) rfl
  · intro always
    have run : ((machine epoll).exec epollBoot staleReport).map (fun s => s.loop.wakeupFd) =
        some 4 := by decide
    have twice : (machine epoll).count (wakesNobody 6) epollBoot staleReport = 2 := by decide
    have once : (machine epoll).count (fun _ => waitsOn 6) epollBoot staleReport = 1 := by decide
    obtain ⟨s, replay, wakeup⟩ := Option.map_eq_some_iff.mp run
    have bound := always staleReport s (by decide) replay 6 (by rw [wakeup]; decide)
    rw [twice, once] at bound
    exact absurd bound (by decide)

end CoroEpoll.Reactor
