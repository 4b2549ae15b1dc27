import CoroEpoll.System.Interface

/-! The waiter table of an event loop: at most one suspended coroutine for each
descriptor and direction. Handles are opaque to the loop, which copies, clears and
resumes them; the table is generic in their type.
-/

set_option autoImplicit false

namespace CoroEpoll

variable {K H : Type}

structure FdState (H : Type) where
  readHandle : Option H := none
  writeHandle : Option H := none
  edgeTrigger : Bool := false
  deriving DecidableEq, Repr

namespace FdState

def handle (state : FdState H) : Direction → Option H
  | .read => state.readHandle
  | .write => state.writeHandle

def setHandle (state : FdState H) (d : Direction) (h : Option H) : FdState H :=
  match d with
  | .read => { state with readHandle := h }
  | .write => { state with writeHandle := h }

def enter (state : FdState H) (d : Direction) (h : H) (et : Bool) : FdState H :=
  { state.setHandle d (some h) with edgeTrigger := et }

def leave (state : FdState H) (covers : Direction → Bool) : FdState H :=
  { state with
    readHandle := if covers .read then none else state.readHandle
    writeHandle := if covers .write then none else state.writeHandle }

/-- The handles exchanged out of the covered directions, in the order in which
they are resumed. -/
def taken (state : FdState H) (covers : Direction → Bool) : List H :=
  (if covers .read then state.readHandle else none).toList ++
    (if covers .write then state.writeHandle else none).toList

@[simp] theorem handle_empty (d : Direction) : ({} : FdState H).handle d = none := by
  cases d <;> rfl

@[simp] theorem handle_setHandle_same (state : FdState H) (d : Direction) (h : Option H) :
    (state.setHandle d h).handle d = h := by
  cases d <;> rfl

@[simp] theorem handle_setHandle_other (state : FdState H) (d : Direction) (h : Option H) :
    (state.setHandle d h).handle d.other = state.handle d.other := by
  cases d <;> rfl

@[simp] theorem handle_enter (state : FdState H) (d d' : Direction) (h : H) (et : Bool) :
    (state.enter d h et).handle d' = if d' = d then some h else state.handle d' := by
  cases d <;> cases d' <;> rfl

@[simp] theorem edgeTrigger_enter (state : FdState H) (d : Direction) (h : H) (et : Bool) :
    (state.enter d h et).edgeTrigger = et := rfl

@[simp] theorem handle_leave (state : FdState H) (covers : Direction → Bool) (d : Direction) :
    (state.leave covers).handle d = if covers d then none else state.handle d := by
  cases d <;> rfl

@[simp] theorem edgeTrigger_leave (state : FdState H) (covers : Direction → Bool) :
    (state.leave covers).edgeTrigger = state.edgeTrigger := rfl

theorem mem_taken {state : FdState H} {covers : Direction → Bool} {h : H} :
    h ∈ state.taken covers ↔ ∃ d, covers d = true ∧ state.handle d = some h := by
  constructor
  · intro member
    rcases List.mem_append.mp member with left | right
    · refine ⟨.read, ?_⟩
      by_cases covered : covers .read = true <;> simp_all [handle, Option.mem_toList]
    · refine ⟨.write, ?_⟩
      by_cases covered : covers .write = true <;> simp_all [handle, Option.mem_toList]
  · rintro ⟨d, covered, stored⟩
    cases d <;> simp_all [taken, handle, Option.mem_toList]

end FdState

/-- The part of an event loop that waits on descriptors, with the kernel state it
acts on. -/
structure EventLoop (K H : Type) where
  kernel : K
  wakeupFd : Fd
  states : Fd → Option (FdState H)

namespace EventLoop

def withKernel (kernel : K) (loop : EventLoop K H) : EventLoop K H := { loop with kernel }

def store (fd : Fd) (state : FdState H) (loop : EventLoop K H) : EventLoop K H :=
  { loop with states := Function.update loop.states fd (some state) }

/-- `states_.erase(fd)` -/
def erase (fd : Fd) (loop : EventLoop K H) : EventLoop K H :=
  { loop with states := Function.update loop.states fd none }

def slot (loop : EventLoop K H) (fd : Fd) (d : Direction) : Option H :=
  (loop.states fd).bind (·.handle d)

/-- The entry `try_emplace` finds or creates. -/
def entry (loop : EventLoop K H) (fd : Fd) : FdState H := (loop.states fd).getD {}

@[simp] theorem kernel_withKernel (k : K) (loop : EventLoop K H) : (loop.withKernel k).kernel = k := rfl
@[simp] theorem states_withKernel (k : K) (loop : EventLoop K H) :
    (loop.withKernel k).states = loop.states := rfl
@[simp] theorem wakeupFd_withKernel (k : K) (loop : EventLoop K H) :
    (loop.withKernel k).wakeupFd = loop.wakeupFd := rfl
@[simp] theorem slot_withKernel (k : K) (loop : EventLoop K H) (fd : Fd) (d : Direction) :
    (loop.withKernel k).slot fd d = loop.slot fd d := rfl

@[simp] theorem kernel_store (fd : Fd) (state : FdState H) (loop : EventLoop K H) :
    (loop.store fd state).kernel = loop.kernel := rfl
@[simp] theorem wakeupFd_store (fd : Fd) (state : FdState H) (loop : EventLoop K H) :
    (loop.store fd state).wakeupFd = loop.wakeupFd := rfl
@[simp] theorem kernel_erase (fd : Fd) (loop : EventLoop K H) : (loop.erase fd).kernel = loop.kernel := rfl
@[simp] theorem wakeupFd_erase (fd : Fd) (loop : EventLoop K H) :
    (loop.erase fd).wakeupFd = loop.wakeupFd := rfl

@[simp] theorem states_store_same (fd : Fd) (state : FdState H) (loop : EventLoop K H) :
    (loop.store fd state).states fd = some state := Function.update_self ..

@[simp] theorem states_store_ne {fd other : Fd} (different : other ≠ fd) (state : FdState H)
    (loop : EventLoop K H) : (loop.store fd state).states other = loop.states other :=
  Function.update_of_ne different ..

@[simp] theorem states_erase_same (fd : Fd) (loop : EventLoop K H) :
    (loop.erase fd).states fd = none := Function.update_self ..

@[simp] theorem states_erase_ne {fd other : Fd} (different : other ≠ fd) (loop : EventLoop K H) :
    (loop.erase fd).states other = loop.states other := Function.update_of_ne different ..

@[simp] theorem slot_store_same (fd : Fd) (state : FdState H) (loop : EventLoop K H) (d : Direction) :
    (loop.store fd state).slot fd d = state.handle d := by
  simp only [slot, states_store_same, Option.bind_some]

@[simp] theorem slot_store_ne {fd other : Fd} (different : other ≠ fd) (state : FdState H)
    (loop : EventLoop K H) (d : Direction) :
    (loop.store fd state).slot other d = loop.slot other d := by
  simp only [slot, states_store_ne different]

@[simp] theorem slot_erase_same (fd : Fd) (loop : EventLoop K H) (d : Direction) :
    (loop.erase fd).slot fd d = none := by
  simp only [slot, states_erase_same, Option.bind_none]

@[simp] theorem slot_erase_ne {fd other : Fd} (different : other ≠ fd) (loop : EventLoop K H)
    (d : Direction) : (loop.erase fd).slot other d = loop.slot other d := by
  simp only [slot, states_erase_ne different]

@[simp] theorem store_store (fd : Fd) (first second : FdState H) (loop : EventLoop K H) :
    (loop.store fd first).store fd second = loop.store fd second := by
  simp only [store, Function.update_idem]

@[simp] theorem erase_store (fd : Fd) (state : FdState H) (loop : EventLoop K H) :
    (loop.store fd state).erase fd = loop.erase fd := by
  simp only [store, erase, Function.update_idem]

@[simp] theorem store_withKernel (fd : Fd) (state : FdState H) (k : K) (loop : EventLoop K H) :
    (loop.store fd state).withKernel k = (loop.withKernel k).store fd state := rfl

theorem withKernel_self (loop : EventLoop K H) : loop.withKernel loop.kernel = loop := rfl

theorem erase_absent {loop : EventLoop K H} {fd : Fd} (absent : loop.states fd = none) :
    loop.erase fd = loop := by
  rw [erase, ← absent, Function.update_eq_self]

theorem handle_entry (loop : EventLoop K H) (fd : Fd) (d : Direction) :
    (loop.entry fd).handle d = loop.slot fd d := by
  unfold entry slot
  cases loop.states fd <;> simp

theorem slot_eq_some {loop : EventLoop K H} {fd : Fd} {d : Direction} {h : H} :
    loop.slot fd d = some h ↔ ∃ state, loop.states fd = some state ∧ state.handle d = some h :=
  Option.bind_eq_some_iff

end EventLoop

inductive Dispatched (H : Type) where
  /-- the wakeup branch: run the posted callbacks, then compact the tasks -/
  | drain
  /-- resume these handles one after the other -/
  | resume (handles : List H)
  /-- an exception left it before any handle was resumed -/
  | threw (error : Exception)
  deriving DecidableEq, Repr

def Dispatched.handles : Dispatched H → List H
  | .resume handles => handles
  | .drain | .threw _ => []

def Dispatched.failed : Dispatched H → Bool
  | .threw _ => true
  | .drain | .resume _ => false

end CoroEpoll
