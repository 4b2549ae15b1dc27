import CoroEpoll.EventLoop.States
import CoroEpoll.System.Epoll

/-! Waiting on descriptors over epoll. -/

set_option autoImplicit false

namespace CoroEpoll.Linux

variable {K H : Type} (api : EpollApi K)

def edgeBit (et : Bool) : EventMask := if et then EPOLLET else 0#32

def activeEvents (state : FdState H) : EventMask :=
  let events := 0#32
  let events := if state.readHandle.isSome then events ||| EPOLLIN else events
  let events := if state.writeHandle.isSome then events ||| EPOLLOUT else events
  if events = EPOLLRDHUP then 0#32 else events

def updateOrRemoveImpl (fd : Fd) (state : FdState H) (et : Bool) (loop : EventLoop K H) :
    EventLoop K H × Option Exception :=
  let events := activeEvents state
  if events = 0#32 then
    ((loop.withKernel (api.ctl .del fd loop.kernel).2).erase fd, none)
  else
    let answer := api.ctl (.mod (events ||| edgeBit et)) fd loop.kernel
    let loop := loop.withKernel answer.2
    match answer.1 with
    | none => (loop, none)
    | some errno =>
      if errno ≠ .EBADF ∧ errno ≠ .ENOENT then
        (loop, some (.std (.systemError errno "epoll_ctl mod")))
      else (loop, none)

def updateOrRemove (fd : Fd) (state : FdState H) (loop : EventLoop K H) :
    EventLoop K H × Option Exception :=
  updateOrRemoveImpl api fd state state.edgeTrigger loop

def addInterestImpl (fd : Fd) (event : EventMask) (handle : H) (et : Bool) (loop : EventLoop K H) :
    EventLoop K H × Option Exception :=
  if fd < 0 then
    (loop, some (.std (.invalidArgument "cannot wait on an invalid file descriptor")))
  else
    let inserted := (loop.states fd).isNone
    let state := loop.entry fd
    let loop := loop.store fd state
    let register (state : FdState H) : EventLoop K H × Option Exception :=
      let loop := loop.store fd state
      let events := EPOLLIN ||| EPOLLOUT ||| edgeBit et
      let operation := if inserted then CtlOp.add events else CtlOp.mod events
      let answer := api.ctl operation fd loop.kernel
      let loop := loop.withKernel answer.2
      match answer.1 with
      | some errno => (loop.erase fd, some (.std (.systemError errno "epoll_ctl")))
      | none => (loop.store fd { state with edgeTrigger := et }, none)
    if event = EPOLLIN then register { state with readHandle := some handle }
    else if event = EPOLLOUT then register { state with writeHandle := some handle }
    else (loop, some (.std (.invalidArgument "unsupported epoll event interest")))

def addInterest (fd : Fd) (event : EventMask) (handle : H) (loop : EventLoop K H) :
    EventLoop K H × Option Exception :=
  addInterestImpl api fd event handle false loop

def addInterestEt (fd : Fd) (event : EventMask) (handle : H) (loop : EventLoop K H) :
    EventLoop K H × Option Exception :=
  addInterestImpl api fd event handle true loop

structure ReadinessAwaiter where
  fd : Fd
  edgeTrigger : Bool
  event : EventMask

def readable (fd : Fd) : ReadinessAwaiter := ⟨fd, false, EPOLLIN⟩
def writable (fd : Fd) : ReadinessAwaiter := ⟨fd, false, EPOLLOUT⟩
def readableEt (fd : Fd) : ReadinessAwaiter := ⟨fd, true, EPOLLIN⟩
def writableEt (fd : Fd) : ReadinessAwaiter := ⟨fd, true, EPOLLOUT⟩

def ReadinessAwaiter.awaitSuspend (awaiter : ReadinessAwaiter) (handle : H) (loop : EventLoop K H) :
    EventLoop K H × Option Exception :=
  if awaiter.edgeTrigger then addInterestEt api awaiter.fd awaiter.event handle loop
  else addInterest api awaiter.fd awaiter.event handle loop

def awaiter (fd : Fd) : Direction → Bool → ReadinessAwaiter
  | .read, false => readable fd
  | .write, false => writable fd
  | .read, true => readableEt fd
  | .write, true => writableEt fd

def remove (fd : Fd) (loop : EventLoop K H) : EventLoop K H :=
  if fd < 0 then loop
  else (loop.withKernel (api.ctl .del fd loop.kernel).2).erase fd

-- `dispatch` up to its first resume; the callbacks and coroutines that it then
-- runs re-enter this table.
def dispatch (event : EpollEvent) (loop : EventLoop K H) : EventLoop K H × Dispatched H :=
  let fd := event.fd
  if fd = loop.wakeupFd then
    (loop.withKernel (api.drain loop.wakeupFd loop.kernel), .drain)
  else
    match loop.states fd with
    | none => (loop, .resume [])
    | some state =>
      let hasError := overlaps event.events (EPOLLERR ||| EPOLLHUP ||| EPOLLRDHUP)
      let takeRead := overlaps event.events EPOLLIN || hasError
      let readHandle := if takeRead then state.readHandle else none
      let state := if takeRead then { state with readHandle := none } else state
      let takeWrite := overlaps event.events EPOLLOUT || hasError
      let writeHandle := if takeWrite then state.writeHandle else none
      let state := if takeWrite then { state with writeHandle := none } else state
      match updateOrRemove api fd state (loop.store fd state) with
      | (loop, some error) => (loop, .threw error)
      | (loop, none) => (loop, .resume (readHandle.toList ++ writeHandle.toList))

/-! ## What each function can do -/

def directionBit : Direction → EventMask
  | .read => EPOLLIN
  | .write => EPOLLOUT

def covers (events : EventMask) (d : Direction) : Bool :=
  overlaps events (directionBit d) || overlaps events (EPOLLERR ||| EPOLLHUP ||| EPOLLRDHUP)

theorem activeEvents_eq (state : FdState H) :
    activeEvents state =
      (if state.readHandle.isSome then EPOLLIN else 0#32) |||
        (if state.writeHandle.isSome then EPOLLOUT else 0#32) := by
  unfold activeEvents
  cases state.readHandle.isSome <;> cases state.writeHandle.isSome <;> decide

theorem activeEvents_eq_zero {state : FdState H} :
    activeEvents state = 0#32 ↔ ∀ d, state.handle d = none := by
  rw [activeEvents_eq]
  constructor
  · intro zero d
    cases read : state.readHandle <;> cases write : state.writeHandle <;>
      simp_all [EPOLLIN, EPOLLOUT]
    cases d <;> simp [FdState.handle, read, write]
  · intro none
    have read := none .read
    have write := none .write
    simp only [FdState.handle] at read write
    simp [read, write]

def waitOp (fd : Fd) (et : Bool) (loop : EventLoop K H) : CtlOp :=
  if (loop.states fd).isNone then .add (EPOLLIN ||| EPOLLOUT ||| edgeBit et)
  else .mod (EPOLLIN ||| EPOLLOUT ||| edgeBit et)

theorem awaitSuspend_negative {fd : Fd} (negative : fd < 0) (d : Direction) (et : Bool) (h : H)
    (loop : EventLoop K H) :
    (awaiter fd d et).awaitSuspend api h loop =
      (loop, some (.std (.invalidArgument "cannot wait on an invalid file descriptor"))) := by
  cases d <;> cases et <;>
    simp [awaiter, readable, writable, readableEt, writableEt, ReadinessAwaiter.awaitSuspend,
      addInterest, addInterestEt, addInterestImpl, negative]

theorem awaitSuspend_eq {fd : Fd} (valid : ¬ fd < 0) (d : Direction) (et : Bool) (h : H)
    (loop : EventLoop K H) :
    (awaiter fd d et).awaitSuspend api h loop =
      let answer := api.ctl (waitOp fd et loop) fd loop.kernel
      match answer.1 with
      | some errno =>
        ((loop.withKernel answer.2).erase fd, some (.std (.systemError errno "epoll_ctl")))
      | none =>
        ((loop.withKernel answer.2).store fd
          ((loop.entry fd).enter d h et), none) := by
  have distinct : EPOLLOUT ≠ EPOLLIN := by decide
  cases d <;> cases et <;>
    simp only [awaiter, readable, writable, readableEt, writableEt, ReadinessAwaiter.awaitSuspend,
      addInterest, addInterestEt, addInterestImpl, waitOp, valid, distinct, if_true, if_false,
      Bool.false_eq_true, EventLoop.store_store, EventLoop.erase_store, EventLoop.store_withKernel,
      EventLoop.kernel_store] <;> rfl

theorem awaitSuspend_cases (fd : Fd) (d : Direction) (et : Bool) (h : H) (loop : EventLoop K H) :
    (fd < 0 ∧ ∃ error, (awaiter fd d et).awaitSuspend api h loop = (loop, some error)) ∨
    (∃ errno kernel error, api.ctl (waitOp fd et loop) fd loop.kernel = (some errno, kernel) ∧
      (awaiter fd d et).awaitSuspend api h loop =
        ((loop.withKernel kernel).erase fd, some error)) ∨
    (0 ≤ fd ∧ ∃ kernel, api.ctl (waitOp fd et loop) fd loop.kernel = (none, kernel) ∧
      (awaiter fd d et).awaitSuspend api h loop =
        ((loop.withKernel kernel).store fd
          ((loop.entry fd).enter d h et), none)) := by
  by_cases negative : fd < 0
  · exact Or.inl ⟨negative, _, awaitSuspend_negative api negative d et h loop⟩
  · rw [awaitSuspend_eq api negative]
    rcases call : api.ctl (waitOp fd et loop) fd loop.kernel with ⟨result, kernel⟩
    cases result with
    | some errno => exact Or.inr (Or.inl ⟨errno, kernel, _, rfl, rfl⟩)
    | none => exact Or.inr (Or.inr ⟨Int.not_lt.mp negative, kernel, rfl, rfl⟩)

theorem dispatch_wakeup {event : EpollEvent} {loop : EventLoop K H}
    (wakeup : event.fd = loop.wakeupFd) :
    dispatch api event loop = (loop.withKernel (api.drain loop.wakeupFd loop.kernel), .drain) := by
  simp only [dispatch, wakeup, if_true]

theorem dispatch_none {event : EpollEvent} {loop : EventLoop K H}
    (other : event.fd ≠ loop.wakeupFd) (absent : loop.states event.fd = none) :
    dispatch api event loop = (loop, .resume []) := by
  simp only [dispatch, other, if_false, absent]

theorem dispatch_some {event : EpollEvent} {loop : EventLoop K H} {state : FdState H}
    (other : event.fd ≠ loop.wakeupFd) (present : loop.states event.fd = some state) :
    dispatch api event loop =
      match updateOrRemove api event.fd (state.leave (covers event.events))
        (loop.store event.fd (state.leave (covers event.events))) with
      | (loop, some error) => (loop, .threw error)
      | (loop, none) => (loop, .resume (state.taken (covers event.events))) := by
  simp only [dispatch, other, if_false, present, FdState.leave, FdState.taken, covers, directionBit]
  by_cases read : (overlaps event.events EPOLLIN ||
      overlaps event.events (EPOLLERR ||| EPOLLHUP ||| EPOLLRDHUP)) = true <;>
    by_cases write : (overlaps event.events EPOLLOUT ||
      overlaps event.events (EPOLLERR ||| EPOLLHUP ||| EPOLLRDHUP)) = true <;>
    simp only [read, write, if_true, if_false, Bool.false_eq_true]

/-- On a descriptor with waiters, `dispatch` erases the entry when it takes all its
handles and re-registers it otherwise; only the latter can throw. -/
theorem dispatch_cases {event : EpollEvent} {loop : EventLoop K H} {state : FdState H}
    (other : event.fd ≠ loop.wakeupFd) (present : loop.states event.fd = some state) :
    ((∀ d, (state.leave (covers event.events)).handle d = none) ∧
      ∃ result kernel, api.ctl .del event.fd loop.kernel = (result, kernel) ∧
        dispatch api event loop = ((loop.withKernel kernel).erase event.fd,
          .resume (state.taken (covers event.events)))) ∨
    (∃ result kernel, api.ctl (.mod (activeEvents (state.leave (covers event.events)) |||
        edgeBit state.edgeTrigger)) event.fd loop.kernel = (result, kernel) ∧
      ((result = none ∨ result = some .EBADF ∨ result = some .ENOENT) ∧
        dispatch api event loop =
          ((loop.withKernel kernel).store event.fd (state.leave (covers event.events)),
            .resume (state.taken (covers event.events))) ∨
        ∃ errno, result = some errno ∧ errno ≠ .EBADF ∧ errno ≠ .ENOENT ∧
          dispatch api event loop =
            ((loop.withKernel kernel).store event.fd (state.leave (covers event.events)),
              .threw (.std (.systemError errno "epoll_ctl mod"))))) := by
  rw [dispatch_some api other present]
  simp only [updateOrRemove, updateOrRemoveImpl, EventLoop.kernel_store, FdState.edgeTrigger_leave]
  by_cases zero : activeEvents (state.leave (covers event.events)) = 0#32
  · refine Or.inl ⟨activeEvents_eq_zero.mp zero, _, _, rfl, ?_⟩
    simp only [zero, if_true, EventLoop.store_withKernel, EventLoop.erase_store]
  · rcases call : api.ctl (.mod (activeEvents (state.leave (covers event.events)) |||
      edgeBit state.edgeTrigger)) event.fd loop.kernel with ⟨result, kernel⟩
    refine Or.inr ⟨result, kernel, rfl, ?_⟩
    simp only [zero, if_false, EventLoop.store_withKernel]
    cases result with
    | none => exact Or.inl ⟨Or.inl rfl, rfl⟩
    | some errno =>
      by_cases hard : errno ≠ .EBADF ∧ errno ≠ .ENOENT
      · exact Or.inr ⟨errno, rfl, hard.1, hard.2, by simp only [if_pos hard]⟩
      · refine Or.inl ⟨?_, by simp only [if_neg hard]⟩
        have tolerated : errno = .EBADF ∨ errno = .ENOENT := by
          by_contra neither
          exact hard (not_or.mp neither)
        rcases tolerated with rfl | rfl
        · exact Or.inr (Or.inl rfl)
        · exact Or.inr (Or.inr rfl)

end CoroEpoll.Linux
