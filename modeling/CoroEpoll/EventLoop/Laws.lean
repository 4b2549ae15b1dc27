import CoroEpoll.EventLoop.Reactor

/-! What every operation does to the slots of the waiter table, for both back ends.

The results about whole runs use these laws and never open a back end.
-/

set_option autoImplicit false

namespace CoroEpoll

variable {K Ev Env H : Type}

namespace EventLoop

def taken (loop : EventLoop K H) (fd : Fd) (covers : Direction → Bool) : List H :=
  (loop.entry fd).taken covers

theorem mem_taken {loop : EventLoop K H} {fd : Fd} {covers : Direction → Bool} {h : H} :
    h ∈ loop.taken fd covers ↔ ∃ d, covers d = true ∧ loop.slot fd d = some h := by
  simp only [taken, FdState.mem_taken, handle_entry]

theorem taken_present {loop : EventLoop K H} {fd : Fd} {state : FdState H}
    (present : loop.states fd = some state) (covers : Direction → Bool) :
    loop.taken fd covers = state.taken covers := by
  simp only [taken, entry, present, Option.getD_some]

theorem taken_absent {loop : EventLoop K H} {fd : Fd} (absent : loop.states fd = none)
    (covers : Direction → Bool) : loop.taken fd covers = [] := by
  rw [List.eq_nil_iff_forall_not_mem]
  intro h member
  obtain ⟨d, _, stored⟩ := mem_taken.mp member
  simp [slot, absent] at stored

def waiters (loop : EventLoop K H) (fd : Fd) : List H := loop.taken fd fun _ => true

theorem mem_waiters {loop : EventLoop K H} {fd : Fd} {h : H} :
    h ∈ loop.waiters fd ↔ ∃ d, loop.slot fd d = some h := by
  simp only [waiters, mem_taken, true_and]

theorem slot_store (fd fd' : Fd) (state : FdState H) (loop : EventLoop K H) (d : Direction) :
    (loop.store fd state).slot fd' d = if fd' = fd then state.handle d else loop.slot fd' d := by
  by_cases same : fd' = fd
  · subst fd'; simp only [slot_store_same, if_true]
  · simp only [slot_store_ne same, if_neg same]

theorem slot_erase (fd fd' : Fd) (loop : EventLoop K H) (d : Direction) :
    (loop.erase fd).slot fd' d = if fd' = fd then none else loop.slot fd' d := by
  by_cases same : fd' = fd
  · subst fd'; simp only [slot_erase_same, if_true]
  · simp only [slot_erase_ne same, if_neg same]

theorem slot_wait (fd fd' : Fd) (d d' : Direction) (et : Bool) (h : H) (loop : EventLoop K H)
    (kernel : K) :
    ((loop.withKernel kernel).store fd
      ((loop.entry fd).enter d h et)).slot fd' d' =
      if fd' = fd ∧ d' = d then some h else loop.slot fd' d' := by
  rw [slot_store]
  by_cases same : fd' = fd
  · subst fd'
    simp only [if_true, true_and, FdState.handle_enter, handle_entry]
  · simp only [same, if_false, false_and, slot_withKernel]

end EventLoop

structure Backend.Lawful (B : Backend K Ev Env) : Prop where
  wait_wakeupFd : ∀ fd d et w loop, (B.awaitSuspend fd d et w loop).1.wakeupFd = loop.wakeupFd
  wait_slot : ∀ fd d et w loop, (B.awaitSuspend fd d et w loop).2 = none →
    0 ≤ fd ∧ ∀ fd' d', (B.awaitSuspend fd d et w loop).1.slot fd' d' =
      if fd' = fd ∧ d' = d then some w else loop.slot fd' d'
  wait_threw : ∀ fd d et w loop error, (B.awaitSuspend fd d et w loop).2 = some error →
    ∀ fd' d' w', (B.awaitSuspend fd d et w loop).1.slot fd' d' = some w' →
      loop.slot fd' d' = some w' ∨
        B.keepsFailed = true ∧ (loop.states fd).isSome = true ∧ 0 ≤ fd ∧
          fd' = fd ∧ d' = d ∧ w' = w
  wait_frame : ∀ fd d et w loop fd' d', fd' ≠ fd →
    (B.awaitSuspend fd d et w loop).1.slot fd' d' = loop.slot fd' d'
  dispatch_wakeupFd : ∀ event loop, (B.dispatch event loop).1.wakeupFd = loop.wakeupFd
  dispatch_wakeup : ∀ event loop, B.eventFd event = loop.wakeupFd →
    (B.dispatch event loop).2 = .drain ∧
      ∀ fd d, (B.dispatch event loop).1.slot fd d = loop.slot fd d
  dispatch_slot : ∀ event loop, B.eventFd event ≠ loop.wakeupFd →
    ∀ fd d, (B.dispatch event loop).1.slot fd d =
      if fd = B.eventFd event ∧ B.covers event d = true then none else loop.slot fd d
  dispatch_resume : ∀ event loop, B.eventFd event ≠ loop.wakeupFd →
    (B.dispatch event loop).2 = .resume (loop.taken (B.eventFd event) (B.covers event)) ∨
      ∃ error, (B.dispatch event loop).2 = .threw error
  remove_wakeupFd : ∀ fd loop, (B.remove fd loop).wakeupFd = loop.wakeupFd
  remove_slot : ∀ fd loop fd' d, (B.remove fd loop).slot fd' d =
    if fd' = fd ∧ 0 ≤ fd then none else loop.slot fd' d

/-- The slots after the entry of a descriptor has lost its covered handles, whether
the entry stays or, being empty, is erased. -/
private theorem slot_leave {loop : EventLoop K H} {fd : Fd} {state : FdState H}
    (present : loop.states fd = some state) (covers : Direction → Bool) (kernel : K) (fd' : Fd)
    (d : Direction) :
    ((loop.withKernel kernel).store fd (state.leave covers)).slot fd' d =
      if fd' = fd ∧ covers d = true then none else loop.slot fd' d := by
  rw [EventLoop.slot_store]
  by_cases same : fd' = fd
  · subst fd'
    simp only [if_true, FdState.handle_leave, true_and, EventLoop.slot, present, Option.bind_some]
  · simp only [same, if_false, false_and, EventLoop.slot_withKernel]

private theorem slot_leave_empty {loop : EventLoop K H} {fd : Fd} {state : FdState H}
    (present : loop.states fd = some state) (covers : Direction → Bool)
    (empty : ∀ d, (state.leave covers).handle d = none) (kernel : K) (fd' : Fd) (d : Direction) :
    ((loop.withKernel kernel).erase fd).slot fd' d =
      if fd' = fd ∧ covers d = true then none else loop.slot fd' d := by
  rw [← slot_leave present covers kernel, EventLoop.slot_erase, EventLoop.slot_store]
  by_cases same : fd' = fd
  · simp only [same, if_true, empty]
  · simp only [same, if_false]

private theorem slot_absent {loop : EventLoop K H} {fd : Fd} (absent : loop.states fd = none)
    (covers : Direction → Bool) (fd' : Fd) (d : Direction) :
    loop.slot fd' d = if fd' = fd ∧ covers d = true then none else loop.slot fd' d := by
  split
  · rename_i covered
    rw [covered.1, EventLoop.slot, absent]
    rfl
  · rfl

theorem linux_lawful (api : EpollApi K) (system : System K EpollEvent Env) :
    (linux api system).Lawful where
  wait_wakeupFd fd d et w loop := by
    rcases Linux.awaitSuspend_cases api fd d et w loop with
      ⟨_, error, result⟩ | ⟨_, kernel, error, _, result⟩ | ⟨_, kernel, _, result⟩ <;>
      simp only [linux, result, EventLoop.wakeupFd_erase, EventLoop.wakeupFd_store,
        EventLoop.wakeupFd_withKernel]
  wait_slot fd d et w loop succeeded := by
    rcases Linux.awaitSuspend_cases api fd d et w loop with
      ⟨_, error, result⟩ | ⟨_, kernel, error, _, result⟩ | ⟨valid, kernel, _, result⟩
    · simp [linux, result] at succeeded
    · simp [linux, result] at succeeded
    · simp only [linux, result]
      exact ⟨valid, fun fd' d' => EventLoop.slot_wait fd fd' d d' et w loop kernel⟩
  wait_threw fd d et w loop error _ fd' d' w' stored := by
    rcases Linux.awaitSuspend_cases api fd d et w loop with
      ⟨_, error, result⟩ | ⟨_, kernel, error, _, result⟩ | ⟨_, kernel, _, result⟩
    · simp only [linux, result] at stored
      exact Or.inl stored
    · simp only [linux, result, EventLoop.slot_erase] at stored
      split at stored
      · cases stored
      · exact Or.inl stored
    · simp_all [linux]
  wait_frame fd d et w loop fd' d' different := by
    rcases Linux.awaitSuspend_cases api fd d et w loop with
      ⟨_, error, result⟩ | ⟨_, kernel, error, _, result⟩ | ⟨_, kernel, _, result⟩ <;>
      simp only [linux, result, EventLoop.slot_erase_ne different,
        EventLoop.slot_store_ne different, EventLoop.slot_withKernel]
  dispatch_wakeupFd event loop := by
    by_cases wakeup : event.fd = loop.wakeupFd
    · simp only [linux, Linux.dispatch_wakeup api wakeup, EventLoop.wakeupFd_withKernel]
    · cases present : loop.states event.fd with
      | none => simp only [linux, Linux.dispatch_none api wakeup present]
      | some state =>
        rcases Linux.dispatch_cases api wakeup present with
          ⟨_, _, kernel, _, result⟩ | ⟨_, kernel, _, ⟨_, result⟩ | ⟨_, _, _, _, result⟩⟩ <;>
          simp only [linux, result, EventLoop.wakeupFd_erase, EventLoop.wakeupFd_store,
            EventLoop.wakeupFd_withKernel]
  dispatch_wakeup event loop wakeup := by
    simp only [linux] at wakeup
    simp only [linux, Linux.dispatch_wakeup api wakeup, EventLoop.slot_withKernel, implies_true,
      and_self]
  dispatch_slot event loop other fd d := by
    change event.fd ≠ loop.wakeupFd at other
    change (Linux.dispatch api event loop).1.slot fd d =
      if fd = event.fd ∧ Linux.covers event.events d = true then none else loop.slot fd d
    cases present : loop.states event.fd with
    | none =>
      rw [Linux.dispatch_none api other present]
      exact slot_absent present _ fd d
    | some state =>
      rcases Linux.dispatch_cases api other present with
        ⟨empty, _, kernel, _, result⟩ | ⟨_, kernel, _, ⟨_, result⟩ | ⟨_, _, _, _, result⟩⟩
      · rw [result]
        exact slot_leave_empty present _ empty kernel fd d
      · rw [result]
        exact slot_leave present _ kernel fd d
      · rw [result]
        exact slot_leave present _ kernel fd d
  dispatch_resume event loop other := by
    simp only [linux] at other ⊢
    cases present : loop.states event.fd with
    | none =>
      rw [Linux.dispatch_none api other present, EventLoop.taken_absent present]
      exact Or.inl rfl
    | some state =>
      rcases Linux.dispatch_cases api other present with
        ⟨_, _, kernel, _, result⟩ | ⟨_, kernel, _, ⟨_, result⟩ | ⟨_, _, _, _, result⟩⟩
      · rw [result, EventLoop.taken_present present]
        exact Or.inl rfl
      · rw [result, EventLoop.taken_present present]
        exact Or.inl rfl
      · rw [result]
        exact Or.inr ⟨_, rfl⟩
  remove_wakeupFd fd loop := by
    simp only [linux, Linux.remove]
    split <;> simp
  remove_slot fd loop fd' d := by
    simp only [linux, Linux.remove]
    by_cases negative : fd < 0
    · simp only [if_pos negative, Int.not_le.mpr negative, and_false, if_false]
    · simp only [if_neg negative, Int.not_lt.mp negative, and_true, EventLoop.slot_erase,
        EventLoop.slot_withKernel]

theorem macOS_lawful (api : KqueueApi K) (system : System K Kevent Env) :
    (macOS api system).Lawful where
  wait_wakeupFd fd d et w loop := by
    rcases MacOS.awaitSuspend_cases api fd d et w loop with
      ⟨_, error, result⟩ | ⟨valid, kernel, error, result⟩ | ⟨_, kernel, result⟩
    · simp only [macOS, result]
    · simp only [macOS, result]
      split <;> rfl
    · simp only [macOS, result, EventLoop.wakeupFd_store, EventLoop.wakeupFd_withKernel]
  wait_slot fd d et w loop succeeded := by
    rcases MacOS.awaitSuspend_cases api fd d et w loop with
      ⟨_, error, result⟩ | ⟨_, kernel, error, result⟩ | ⟨valid, kernel, result⟩
    · simp [macOS, result] at succeeded
    · simp [macOS, result] at succeeded
    · simp only [macOS, result]
      exact ⟨valid, fun fd' d' => EventLoop.slot_wait fd fd' d d' et w loop kernel⟩
  wait_threw fd d et w loop error _ fd' d' w' stored := by
    rcases MacOS.awaitSuspend_cases api fd d et w loop with
      ⟨_, error, result⟩ | ⟨valid, kernel, error, result⟩ | ⟨_, kernel, result⟩
    · simp only [macOS, result] at stored
      exact Or.inl stored
    · simp only [macOS, result] at stored
      cases present : loop.states fd with
      | none =>
        simp only [present, Option.isNone_none, if_true, EventLoop.slot_erase] at stored
        split at stored
        · cases stored
        · exact Or.inl stored
      | some state =>
        simp only [present, Option.isNone_some, Bool.false_eq_true, if_false] at stored
        have slots := EventLoop.slot_wait fd fd' d d' (loop.entry fd).edgeTrigger w loop kernel
        have unchanged : (loop.entry fd).enter d w (loop.entry fd).edgeTrigger =
            (loop.entry fd).setHandle d (some w) := by
          cases d <;> rfl
        rw [unchanged, stored] at slots
        split at slots
        · rename_i slot
          exact Or.inr ⟨rfl, rfl, valid, slot.1, slot.2, Option.some.inj slots⟩
        · exact Or.inl slots.symm
    · simp_all [macOS]
  wait_frame fd d et w loop fd' d' different := by
    rcases MacOS.awaitSuspend_cases api fd d et w loop with
      ⟨_, error, result⟩ | ⟨valid, kernel, error, result⟩ | ⟨_, kernel, result⟩
    · simp only [macOS, result]
    · simp only [macOS, result]
      split <;> simp only [EventLoop.slot_erase_ne different, EventLoop.slot_store_ne different,
        EventLoop.slot_withKernel]
    · simp only [macOS, result, EventLoop.slot_store_ne different, EventLoop.slot_withKernel]
  dispatch_wakeupFd event loop := by
    by_cases wakeup : event.ident = loop.wakeupFd
    · simp only [macOS, MacOS.dispatch_wakeup api wakeup, EventLoop.wakeupFd_withKernel]
    · cases present : loop.states event.ident with
      | none => simp only [macOS, MacOS.dispatch_none api wakeup present]
      | some state =>
        rcases MacOS.dispatch_cases api wakeup present with
          ⟨_, kernel, result⟩ | ⟨kernel, result | ⟨_, result⟩⟩ <;>
          simp only [macOS, result, EventLoop.wakeupFd_erase, EventLoop.wakeupFd_store,
            EventLoop.wakeupFd_withKernel]
  dispatch_wakeup event loop wakeup := by
    simp only [macOS] at wakeup
    simp only [macOS, MacOS.dispatch_wakeup api wakeup, EventLoop.slot_withKernel, implies_true,
      and_self]
  dispatch_slot event loop other fd d := by
    change event.ident ≠ loop.wakeupFd at other
    change (MacOS.dispatch api event loop).1.slot fd d =
      if fd = event.ident ∧ MacOS.covers event d = true then none else loop.slot fd d
    cases present : loop.states event.ident with
    | none =>
      rw [MacOS.dispatch_none api other present]
      exact slot_absent present _ fd d
    | some state =>
      rcases MacOS.dispatch_cases api other present with
        ⟨empty, kernel, result⟩ | ⟨kernel, result | ⟨_, result⟩⟩
      · rw [result]
        exact slot_leave_empty present _ empty kernel fd d
      · rw [result]
        exact slot_leave present _ kernel fd d
      · rw [result]
        exact slot_leave present _ kernel fd d
  dispatch_resume event loop other := by
    simp only [macOS] at other ⊢
    cases present : loop.states event.ident with
    | none =>
      rw [MacOS.dispatch_none api other present, EventLoop.taken_absent present]
      exact Or.inl rfl
    | some state =>
      rcases MacOS.dispatch_cases api other present with
        ⟨_, kernel, result⟩ | ⟨kernel, result | ⟨_, result⟩⟩
      · rw [result, EventLoop.taken_present present]
        exact Or.inl rfl
      · rw [result, EventLoop.taken_present present]
        exact Or.inl rfl
      · rw [result]
        exact Or.inr ⟨_, rfl⟩
  remove_wakeupFd fd loop := by
    simp only [macOS, MacOS.remove, MacOS.deleteKqueueFilter]
    split <;> simp
  remove_slot fd loop fd' d := by
    simp only [macOS, MacOS.remove, MacOS.deleteKqueueFilter]
    by_cases negative : fd < 0
    · simp only [if_pos negative, Int.not_le.mpr negative, and_false, if_false]
    · simp only [if_neg negative, Int.not_lt.mp negative, and_true, EventLoop.slot_erase,
        EventLoop.slot_withKernel]

theorem Implemented.lawful {B : Backend K Ev Env} (code : Implemented B) : B.Lawful := by
  cases code with
  | linux api system => exact linux_lawful api system
  | macOS api system => exact macOS_lawful api system

/-! ## Entries -/

def EventLoop.hasEntry (loop : EventLoop K H) (fd : Fd) : Prop := loop.states fd ≠ none

/-- Only a wait makes an entry, on its own descriptor, and `remove` leaves none. -/
structure Backend.KeepsEntries (B : Backend K Ev Env) : Prop where
  wait : ∀ fd d et w loop fd', (B.awaitSuspend fd d et w loop).1.hasEntry fd' →
    fd' = fd ∨ loop.hasEntry fd'
  dispatch : ∀ event loop fd, (B.dispatch event loop).1.hasEntry fd → loop.hasEntry fd
  remove : ∀ fd loop fd', (B.remove fd loop).hasEntry fd' → loop.hasEntry fd'
  removed : ∀ fd loop, 0 ≤ fd → ¬ (B.remove fd loop).hasEntry fd

namespace EventLoop

theorem hasEntry_store {fd fd' : Fd} {state : FdState H} {loop : EventLoop K H} :
    (loop.store fd state).hasEntry fd' ↔ fd' = fd ∨ loop.hasEntry fd' := by
  unfold hasEntry
  by_cases same : fd' = fd
  · simp [same]
  · simp [same]

theorem hasEntry_erase {fd fd' : Fd} {loop : EventLoop K H} :
    (loop.erase fd).hasEntry fd' ↔ fd' ≠ fd ∧ loop.hasEntry fd' := by
  unfold hasEntry
  by_cases same : fd' = fd
  · simp [same]
  · simp [same]

end EventLoop

theorem linux_keepsEntries (api : EpollApi K) (system : System K EpollEvent Env) :
    (linux api system).KeepsEntries where
  wait fd d et w loop fd' entry := by
    simp only [linux] at entry
    rcases Linux.awaitSuspend_cases api fd d et w loop with
      ⟨_, error, result⟩ | ⟨_, kernel, error, _, result⟩ | ⟨_, kernel, _, result⟩
    · rw [result] at entry
      exact Or.inr entry
    · rw [result, EventLoop.hasEntry_erase] at entry
      exact Or.inr entry.2
    · rw [result, EventLoop.hasEntry_store] at entry
      exact entry
  dispatch event loop fd entry := by
    simp only [linux] at entry
    by_cases wakeup : event.fd = loop.wakeupFd
    · rw [Linux.dispatch_wakeup api wakeup] at entry
      exact entry
    cases present : loop.states event.fd with
    | none =>
      rw [Linux.dispatch_none api wakeup present] at entry
      exact entry
    | some state =>
      have there : loop.hasEntry event.fd := by simp [EventLoop.hasEntry, present]
      rcases Linux.dispatch_cases api wakeup present with
        ⟨_, result, kernel, _, equal⟩ |
          ⟨result, kernel, _, ⟨_, equal⟩ | ⟨errno, _, _, _, equal⟩⟩
      · rw [equal, EventLoop.hasEntry_erase] at entry
        exact entry.2
      all_goals
        rw [equal, EventLoop.hasEntry_store] at entry
        rcases entry with same | entry
        · exact same ▸ there
        · exact entry
  remove fd loop fd' entry := by
    simp only [linux, Linux.remove] at entry
    split at entry
    · exact entry
    · exact (EventLoop.hasEntry_erase.mp entry).2
  removed fd loop valid entry := by
    simp only [linux, Linux.remove, Int.not_lt.mpr valid, if_false] at entry
    exact (EventLoop.hasEntry_erase.mp entry).1 rfl

theorem macOS_keepsEntries (api : KqueueApi K) (system : System K Kevent Env) :
    (macOS api system).KeepsEntries where
  wait fd d et w loop fd' entry := by
    simp only [macOS] at entry
    rcases MacOS.awaitSuspend_cases api fd d et w loop with
      ⟨_, error, result⟩ | ⟨_, kernel, error, result⟩ | ⟨_, kernel, result⟩
    · rw [result] at entry
      exact Or.inr entry
    · rw [result] at entry
      split at entry
      · exact Or.inr (EventLoop.hasEntry_erase.mp entry).2
      · exact EventLoop.hasEntry_store.mp entry
    · rw [result, EventLoop.hasEntry_store] at entry
      exact entry
  dispatch event loop fd entry := by
    simp only [macOS] at entry
    by_cases wakeup : event.ident = loop.wakeupFd
    · rw [MacOS.dispatch_wakeup api wakeup] at entry
      exact entry
    cases present : loop.states event.ident with
    | none =>
      rw [MacOS.dispatch_none api wakeup present] at entry
      exact entry
    | some state =>
      have there : loop.hasEntry event.ident := by simp [EventLoop.hasEntry, present]
      rcases MacOS.dispatch_cases api wakeup present with
        ⟨_, kernel, equal⟩ | ⟨kernel, equal | ⟨error, equal⟩⟩
      · rw [equal, EventLoop.hasEntry_erase] at entry
        exact entry.2
      all_goals
        rw [equal, EventLoop.hasEntry_store] at entry
        rcases entry with same | entry
        · exact same ▸ there
        · exact entry
  remove fd loop fd' entry := by
    simp only [macOS, MacOS.remove, MacOS.deleteKqueueFilter] at entry
    split at entry
    · exact entry
    · exact (EventLoop.hasEntry_erase.mp entry).2
  removed fd loop valid entry := by
    simp only [macOS, MacOS.remove, Int.not_lt.mpr valid, if_false] at entry
    exact (EventLoop.hasEntry_erase.mp entry).1 rfl

theorem Implemented.keepsEntries {B : Backend K Ev Env} (code : Implemented B) :
    B.KeepsEntries := by
  cases code with
  | linux api system => exact linux_keepsEntries api system
  | macOS api system => exact macOS_keepsEntries api system

end CoroEpoll
