import CoroEpoll.EventLoop.States
import CoroEpoll.System.Kqueue

/-! Waiting on descriptors over kqueue: one filter for each direction, and two
kernel calls where epoll needs one. -/

set_option autoImplicit false

namespace CoroEpoll.MacOS

variable {K H : Type} (api : KqueueApi K)

def updateKqueueFilterImpl (fd : Fd) (filter : Filter) (active et : Bool) (loop : EventLoop K H) :
    EventLoop K H × Option Exception :=
  let flags :=
    if active then EV_ADD ||| EV_ENABLE ||| (if et then EV_CLEAR else 0#16) else EV_DELETE
  let answer := api.kevent ⟨fd, filter, flags⟩ loop.kernel
  let loop := loop.withKernel answer.2
  match answer.1 with
  | none => (loop, none)
  | some errno =>
    if !active ∧ errno = .ENOENT then (loop, none)
    else (loop, some (.std (.systemError errno (if active then "kevent add" else "kevent delete"))))

-- Errors are ignored and an interrupted call is repeated, so one call of the
-- arbitrary kernel stands for the last.
def deleteKqueueFilter (fd : Fd) (filter : Filter) (loop : EventLoop K H) : EventLoop K H :=
  loop.withKernel (api.kevent ⟨fd, filter, EV_DELETE⟩ loop.kernel).2

def updateOrRemoveImpl (fd : Fd) (state : FdState H) (et : Bool) (loop : EventLoop K H) :
    EventLoop K H × Option Exception :=
  if state.readHandle.isNone ∧ state.writeHandle.isNone then
    let loop := deleteKqueueFilter api fd EVFILT_READ loop
    let loop := deleteKqueueFilter api fd EVFILT_WRITE loop
    (loop.erase fd, none)
  else
    match updateKqueueFilterImpl api fd EVFILT_READ state.readHandle.isSome et loop with
    | (loop, some error) => (loop, some error)
    | (loop, none) => updateKqueueFilterImpl api fd EVFILT_WRITE state.writeHandle.isSome et loop

def updateOrRemove (fd : Fd) (state : FdState H) (loop : EventLoop K H) :
    EventLoop K H × Option Exception :=
  updateOrRemoveImpl api fd state state.edgeTrigger loop

def addInterestImpl (fd : Fd) (event : Filter) (handle : H) (et : Bool) (loop : EventLoop K H) :
    EventLoop K H × Option Exception :=
  if fd < 0 then
    (loop, some (.std (.invalidArgument "cannot wait on an invalid file descriptor")))
  else
    let inserted := (loop.states fd).isNone
    let state := loop.entry fd
    let loop := loop.store fd state
    let register (state : FdState H) : EventLoop K H × Option Exception :=
      match updateOrRemoveImpl api fd state et (loop.store fd state) with
      | (loop, some error) => (if inserted then loop.erase fd else loop, some error)
      | (loop, none) => (loop.store fd { state with edgeTrigger := et }, none)
    if event = EVFILT_READ then register { state with readHandle := some handle }
    else if event = EVFILT_WRITE then register { state with writeHandle := some handle }
    else (loop, some (.std (.invalidArgument "unsupported kqueue event interest")))

def addInterest (fd : Fd) (event : Filter) (handle : H) (loop : EventLoop K H) :
    EventLoop K H × Option Exception :=
  addInterestImpl api fd event handle false loop

def addInterestEt (fd : Fd) (event : Filter) (handle : H) (loop : EventLoop K H) :
    EventLoop K H × Option Exception :=
  addInterestImpl api fd event handle true loop

structure ReadinessAwaiter where
  fd : Fd
  edgeTrigger : Bool
  event : Filter

def readable (fd : Fd) : ReadinessAwaiter := ⟨fd, false, EVFILT_READ⟩
def writable (fd : Fd) : ReadinessAwaiter := ⟨fd, false, EVFILT_WRITE⟩
def readableEt (fd : Fd) : ReadinessAwaiter := ⟨fd, true, EVFILT_READ⟩
def writableEt (fd : Fd) : ReadinessAwaiter := ⟨fd, true, EVFILT_WRITE⟩

def ReadinessAwaiter.awaitSuspend (awaiter : ReadinessAwaiter) (handle : H) (loop : EventLoop K H) :
    EventLoop K H × Option Exception :=
  if awaiter.edgeTrigger then addInterestEt api awaiter.fd awaiter.event handle loop
  else addInterest api awaiter.fd awaiter.event handle loop

def awaiter (fd : Fd) : Direction → Bool → ReadinessAwaiter
  | .read, false => readable fd
  | .write, false => writable fd
  | .read, true => readableEt fd
  | .write, true => writableEt fd

def remove (fd : Fd) (loop : EventLoop K H) : EventLoop K H :=
  if fd < 0 then loop
  else
    let loop := deleteKqueueFilter api fd EVFILT_READ loop
    let loop := deleteKqueueFilter api fd EVFILT_WRITE loop
    loop.erase fd

-- `dispatch` up to its first resume, as on Linux.
def dispatch (event : Kevent) (loop : EventLoop K H) : EventLoop K H × Dispatched H :=
  let fd := event.ident
  if fd = loop.wakeupFd then
    (loop.withKernel (api.drain loop.wakeupFd loop.kernel), .drain)
  else
    match loop.states fd with
    | none => (loop, .resume [])
    | some state =>
      let hasError := (event.flags &&& (EV_ERROR ||| EV_EOF)) != 0#16
      let takeRead := event.filter == EVFILT_READ || hasError
      let readHandle := if takeRead then state.readHandle else none
      let state := if takeRead then { state with readHandle := none } else state
      let takeWrite := event.filter == EVFILT_WRITE || hasError
      let writeHandle := if takeWrite then state.writeHandle else none
      let state := if takeWrite then { state with writeHandle := none } else state
      match updateOrRemove api fd state (loop.store fd state) with
      | (loop, some error) => (loop, .threw error)
      | (loop, none) => (loop, .resume (readHandle.toList ++ writeHandle.toList))

/-! ## What each function can do -/

def directionFilter : Direction → Filter
  | .read => EVFILT_READ
  | .write => EVFILT_WRITE

def covers (event : Kevent) (d : Direction) : Bool :=
  event.filter == directionFilter d || (event.flags &&& (EV_ERROR ||| EV_EOF)) != 0#16

theorem updateKqueueFilterImpl_kernel (fd : Fd) (filter : Filter) (active et : Bool)
    (loop : EventLoop K H) :
    ∃ kernel thrown, updateKqueueFilterImpl api fd filter active et loop =
      (loop.withKernel kernel, thrown) := by
  unfold updateKqueueFilterImpl
  dsimp only
  split
  · exact ⟨_, _, rfl⟩
  · split <;> exact ⟨_, _, rfl⟩

theorem updateOrRemoveImpl_active {state : FdState H} {d : Direction} {h : H}
    (stored : state.handle d = some h) (fd : Fd) (et : Bool) (loop : EventLoop K H) :
    ∃ kernel thrown, updateOrRemoveImpl api fd state et loop = (loop.withKernel kernel, thrown) := by
  have active : ¬ (state.readHandle.isNone ∧ state.writeHandle.isNone) := by
    cases d <;> simp_all [FdState.handle]
  obtain ⟨kernel, thrown, first⟩ :=
    updateKqueueFilterImpl_kernel api fd EVFILT_READ state.readHandle.isSome et loop
  unfold updateOrRemoveImpl
  rw [if_neg active, first]
  cases thrown with
  | some error => exact ⟨kernel, some error, rfl⟩
  | none =>
    obtain ⟨last, thrown, second⟩ := updateKqueueFilterImpl_kernel api fd EVFILT_WRITE
      state.writeHandle.isSome et (loop.withKernel kernel)
    exact ⟨last, thrown, second⟩

theorem updateOrRemoveImpl_inactive {state : FdState H} (empty : ∀ d, state.handle d = none)
    (fd : Fd) (et : Bool) (loop : EventLoop K H) :
    ∃ kernel, updateOrRemoveImpl api fd state et loop = ((loop.withKernel kernel).erase fd, none) := by
  have read := empty .read
  have write := empty .write
  simp only [FdState.handle] at read write
  unfold updateOrRemoveImpl
  rw [if_pos (by simp [read, write])]
  exact ⟨_, rfl⟩

/-- A wait fails on the descriptor, fails in one of its two kernel calls or registers.
The second failure leaves the handle behind when the entry was there before. -/
theorem awaitSuspend_cases (fd : Fd) (d : Direction) (et : Bool) (h : H) (loop : EventLoop K H) :
    (fd < 0 ∧ ∃ error, (awaiter fd d et).awaitSuspend api h loop = (loop, some error)) ∨
    (0 ≤ fd ∧ ∃ kernel error, (awaiter fd d et).awaitSuspend api h loop =
      (if (loop.states fd).isNone then (loop.withKernel kernel).erase fd
        else (loop.withKernel kernel).store fd ((loop.entry fd).setHandle d (some h)), some error)) ∨
    (0 ≤ fd ∧ ∃ kernel, (awaiter fd d et).awaitSuspend api h loop =
      ((loop.withKernel kernel).store fd
        ((loop.entry fd).enter d h et), none)) := by
  by_cases negative : fd < 0
  · refine Or.inl ⟨negative, .std (.invalidArgument "cannot wait on an invalid file descriptor"), ?_⟩
    cases d <;> cases et <;>
      simp [awaiter, readable, writable, readableEt, writableEt, ReadinessAwaiter.awaitSuspend,
        addInterest, addInterestEt, addInterestImpl, negative]
  · have distinct : EVFILT_WRITE ≠ EVFILT_READ := by decide
    have unfolded : (awaiter fd d et).awaitSuspend api h loop =
        match updateOrRemoveImpl api fd ((loop.entry fd).setHandle d (some h)) et
          (loop.store fd ((loop.entry fd).setHandle d (some h))) with
        | (after, some error) =>
          (if (loop.states fd).isNone then after.erase fd else after, some error)
        | (after, none) =>
          (after.store fd ((loop.entry fd).enter d h et), none) := by
      cases d <;> cases et <;>
        simp only [awaiter, readable, writable, readableEt, writableEt,
          ReadinessAwaiter.awaitSuspend, addInterest, addInterestEt, addInterestImpl, negative,
          distinct, if_true, if_false, Bool.false_eq_true, EventLoop.store_store,
          FdState.setHandle] <;> rfl
    obtain ⟨kernel, thrown, call⟩ := updateOrRemoveImpl_active api
      (FdState.handle_setHandle_same (loop.entry fd) d (some h)) fd et
      (loop.store fd ((loop.entry fd).setHandle d (some h)))
    rw [unfolded, call]
    cases thrown with
    | some error =>
      refine Or.inr (Or.inl ⟨Int.not_lt.mp negative, kernel, error, ?_⟩)
      simp only [EventLoop.store_withKernel, EventLoop.erase_store]
    | none =>
      refine Or.inr (Or.inr ⟨Int.not_lt.mp negative, kernel, ?_⟩)
      simp only [EventLoop.store_withKernel, EventLoop.store_store]

theorem dispatch_wakeup {event : Kevent} {loop : EventLoop K H} (wakeup : event.ident = loop.wakeupFd) :
    dispatch api event loop = (loop.withKernel (api.drain loop.wakeupFd loop.kernel), .drain) := by
  simp only [dispatch, wakeup, if_true]

theorem dispatch_none {event : Kevent} {loop : EventLoop K H}
    (other : event.ident ≠ loop.wakeupFd) (absent : loop.states event.ident = none) :
    dispatch api event loop = (loop, .resume []) := by
  simp only [dispatch, other, if_false, absent]

theorem dispatch_some {event : Kevent} {loop : EventLoop K H} {state : FdState H}
    (other : event.ident ≠ loop.wakeupFd) (present : loop.states event.ident = some state) :
    dispatch api event loop =
      match updateOrRemove api event.ident (state.leave (covers event))
        (loop.store event.ident (state.leave (covers event))) with
      | (loop, some error) => (loop, .threw error)
      | (loop, none) => (loop, .resume (state.taken (covers event))) := by
  simp only [dispatch, other, if_false, present, FdState.leave, FdState.taken, covers,
    directionFilter]
  by_cases read : (event.filter == EVFILT_READ ||
      (event.flags &&& (EV_ERROR ||| EV_EOF)) != 0#16) = true <;>
    by_cases write : (event.filter == EVFILT_WRITE ||
      (event.flags &&& (EV_ERROR ||| EV_EOF)) != 0#16) = true <;>
    simp only [read, write, if_true, if_false, Bool.false_eq_true]

theorem dispatch_cases {event : Kevent} {loop : EventLoop K H} {state : FdState H}
    (other : event.ident ≠ loop.wakeupFd) (present : loop.states event.ident = some state) :
    ((∀ d, (state.leave (covers event)).handle d = none) ∧ ∃ kernel,
      dispatch api event loop = ((loop.withKernel kernel).erase event.ident,
        .resume (state.taken (covers event)))) ∨
    (∃ kernel, dispatch api event loop =
        ((loop.withKernel kernel).store event.ident (state.leave (covers event)),
          .resume (state.taken (covers event))) ∨
      ∃ error, dispatch api event loop =
        ((loop.withKernel kernel).store event.ident (state.leave (covers event)), .threw error)) := by
  rw [dispatch_some api other present]
  unfold updateOrRemove
  by_cases empty : ∀ d, (state.leave (covers event)).handle d = none
  · obtain ⟨kernel, call⟩ := updateOrRemoveImpl_inactive api empty event.ident
      (state.leave (covers event)).edgeTrigger
      (loop.store event.ident (state.leave (covers event)))
    refine Or.inl ⟨empty, kernel, ?_⟩
    rw [call]
    simp only [EventLoop.store_withKernel, EventLoop.erase_store]
  · obtain ⟨d, stored⟩ := not_forall.mp empty
    obtain ⟨h, stored⟩ := Option.ne_none_iff_exists'.mp stored
    obtain ⟨kernel, thrown, call⟩ := updateOrRemoveImpl_active api stored event.ident
      (state.leave (covers event)).edgeTrigger
      (loop.store event.ident (state.leave (covers event)))
    refine Or.inr ⟨kernel, ?_⟩
    rw [call]
    cases thrown with
    | some error => exact Or.inr ⟨error, rfl⟩
    | none => exact Or.inl rfl

end CoroEpoll.MacOS
