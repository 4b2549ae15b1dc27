import CoroEpoll.EventLoop.Linux
import CoroEpoll.EventLoop.MacOS
import CoroEpoll.Library.Transition

/-! One thread running an event loop: `run()`, the coroutines it resumes, which
re-enter the waiter table, and the kernel around them.

A coroutine is a frame number. A handle in the table carries the suspension it was
made for; the loop never looks inside.
-/

set_option autoImplicit false

namespace CoroEpoll

structure Waiter where
  frame : Nat
  serial : Nat
  fd : Fd
  direction : Direction
  /-- the open file the descriptor named when the wait was registered -/
  socket : Option Nat
  deriving DecidableEq, Repr

/-- One of the two implementations of the table, over a kernel. -/
structure Backend (K Ev Env : Type) extends System K Ev Env where
  awaitSuspend : Fd → Direction → Bool → Waiter → EventLoop K Waiter →
    EventLoop K Waiter × Option Exception
  dispatch : Ev → EventLoop K Waiter → EventLoop K Waiter × Dispatched Waiter
  remove : Fd → EventLoop K Waiter → EventLoop K Waiter
  eventFd : Ev → Fd
  covers : Ev → Direction → Bool
  /-- a failed wait leaves its handle in an entry that was there before -/
  keepsFailed : Bool

def linux {K Env : Type} (api : EpollApi K) (system : System K EpollEvent Env) :
    Backend K EpollEvent Env where
  toSystem := system
  awaitSuspend fd d et w loop := (Linux.awaiter fd d et).awaitSuspend api w loop
  dispatch := Linux.dispatch api
  remove := Linux.remove api
  eventFd event := event.fd
  covers event := Linux.covers event.events
  keepsFailed := false

def macOS {K Env : Type} (api : KqueueApi K) (system : System K Kevent Env) :
    Backend K Kevent Env where
  toSystem := system
  awaitSuspend fd d et w loop := (MacOS.awaiter fd d et).awaitSuspend api w loop
  dispatch := MacOS.dispatch api
  remove := MacOS.remove api
  eventFd event := event.ident
  covers := MacOS.covers
  keepsFailed := true

inductive Implemented {K Env : Type} : {Ev : Type} → Backend K Ev Env → Prop where
  | linux (api : EpollApi K) (system : System K EpollEvent Env) : Implemented (linux api system)
  | macOS (api : KqueueApi K) (system : System K Kevent Env) : Implemented (macOS api system)

inductive Frame where
  /-- not suspended on a descriptor -/
  | active
  /-- suspended on a descriptor; whether `remove` was called on it since -/
  | suspended (w : Waiter) (removed : Bool)
  | destroyed
  deriving DecidableEq, Repr

def Frame.deregister (fd : Fd) : Frame → Frame
  | .suspended w removed => .suspended w (removed || w.fd == fd)
  | frame => frame

/-- A frame its owner may destroy: one that is not suspended on a descriptor, or
whose descriptor has been passed to `remove` first. -/
def Frame.mayDestroy : Frame → Bool
  | .active => true
  | .suspended _ removed => removed
  | .destroyed => false

namespace Reactor

inductive Phase where
  /-- before the wait: posted callbacks and freshly spawned coroutines run -/
  | drain
  /-- in epoll_wait -/
  | waiting
  /-- between two events of a batch -/
  | batch
  /-- in `dispatch`, between two resumes -/
  | resuming
  /-- in a coroutine resumed by `dispatch`, or in a callback run by it -/
  | running
  /-- a handle was resumed whose frame is gone or suspended elsewhere -/
  | faulted
  deriving DecidableEq, Repr

structure World (K Ev : Type) where
  loop : EventLoop K Waiter
  phase : Phase
  /-- reports of the current batch still to be dispatched -/
  batch : List (Report Ev)
  /-- handles the dispatch in progress has taken and still has to resume -/
  hand : List Waiter
  frames : Nat → Frame
  /-- every handle passed to add_interest so far -/
  passed : List Waiter
  resumed : List Waiter

inductive Act (Ev Env : Type) where
  | wait (frame : Nat) (fd : Fd) (d : Direction) (et : Bool)
  | remove (fd : Fd)
  /-- `TcpSocket::close` and `UdpSocket::close`: remove, then `::close` -/
  | close (fd : Fd)
  /-- `TcpServer::close`: `::close`, then remove -/
  | closeServer (fd : Fd)
  | openFd (fd : Fd)
  | destroy (frame : Nat)
  | change (env : Env)
  | block
  | wake (reports : List (Report Ev))
  | interrupted
  | dispatch
  | resume
  | suspend
  deriving DecidableEq, Repr

variable {K Ev Env : Type}

def World.userCode (s : World K Ev) : Bool := s.phase == .drain || s.phase == .running

def World.withKernel (kernel : K) (s : World K Ev) : World K Ev :=
  { s with loop := s.loop.withKernel kernel }

section
variable (B : Backend K Ev Env)

def World.deregister (fd : Fd) (s : World K Ev) : World K Ev :=
  { s with
    loop := B.remove fd s.loop
    frames := fun f => (s.frames f).deregister fd }

def World.closeFd (fd : Fd) (s : World K Ev) : World K Ev :=
  s.withKernel (B.closeFd fd s.loop.kernel)

def World.waiter (f : Nat) (fd : Fd) (d : Direction) (s : World K Ev) : Waiter :=
  ⟨f, s.passed.length, fd, d, B.sockets s.loop.kernel fd⟩

def World.wait (f : Nat) (fd : Fd) (d : Direction) (et : Bool) (s : World K Ev) : World K Ev :=
  let w := s.waiter B f fd d
  let s := { s with passed := s.passed ++ [w] }
  match B.awaitSuspend fd d et w s.loop with
  | (loop, none) => { s with loop, frames := Function.update s.frames f (.suspended w false) }
  -- an exception leaving await_suspend is thrown into the coroutine, which runs on
  | (loop, some _) => { s with loop }

def World.dispatch (event : Ev) (s : World K Ev) : World K Ev :=
  match B.dispatch event s.loop with
  | (loop, .drain) => { s with loop, phase := .running }
  | (loop, .resume handles) => { s with loop, phase := .resuming, hand := handles }
  -- run() logs the exception and goes on with the batch
  | (loop, .threw _) => { s with loop }

def World.resume (w : Waiter) (s : World K Ev) : World K Ev :=
  match s.frames w.frame with
  | .suspended current _ =>
    if current = w then
      { s with
        phase := .running
        frames := Function.update s.frames w.frame .active
        resumed := s.resumed ++ [w] }
    else { s with phase := .faulted }
  | _ => { s with phase := .faulted }

def step (s : World K Ev) : Act Ev Env → Option (World K Ev)
  | .wait f fd d et => if s.userCode ∧ s.frames f = .active then some (s.wait B f fd d et) else none
  -- the wakeup descriptor is private to the loop: no caller removes or closes it
  | .remove fd => if s.userCode ∧ fd ≠ s.loop.wakeupFd then some (s.deregister B fd) else none
  | .close fd =>
    if s.userCode ∧ fd ≠ s.loop.wakeupFd then some ((s.deregister B fd).closeFd B fd) else none
  | .closeServer fd =>
    if s.userCode ∧ fd ≠ s.loop.wakeupFd then some ((s.closeFd B fd).deregister B fd) else none
  | .openFd fd => if s.userCode then (B.openFd fd s.loop.kernel).map s.withKernel else none
  | .destroy f =>
    if s.userCode ∧ (s.frames f).mayDestroy then
      some { s with frames := Function.update s.frames f .destroyed }
    else none
  | .change env => (B.change env s.loop.kernel).map s.withKernel
  | .block => if s.phase = .drain then some { s with phase := .waiting } else none
  | .wake reports =>
    if s.phase = .waiting ∧ reports.length ≤ 128 then
      (B.wait reports s.loop.kernel).map fun kernel =>
        { s.withKernel kernel with phase := .batch, batch := reports }
    else none
  | .interrupted => if s.phase = .waiting then some { s with phase := .drain } else none
  | .dispatch =>
    if s.phase = .batch then
      match s.batch with
      | [] => some { s with phase := .drain }
      | report :: rest => some ({ s with batch := rest }.dispatch B report.event)
    else none
  | .resume =>
    if s.phase = .resuming then
      match s.hand with
      | [] => some { s with phase := .batch }
      | w :: rest => some ({ s with hand := rest }.resume w)
    else none
  | .suspend => if s.phase = .running then some { s with phase := .resuming } else none

structure Start (s : World K Ev) : Prop where
  phase : s.phase = .drain
  batch : s.batch = []
  hand : s.hand = []
  frames : ∀ f, s.frames f = .active
  passed : s.passed = []
  resumed : s.resumed = []
  states : ∀ fd, s.loop.states fd = none
  fresh : B.fresh s.loop.wakeupFd s.loop.kernel

def machine : Transition.Machine (World K Ev) (Act Ev Env) where
  start := Start B
  step := step B

def World.boot (wakeupFd : Fd) (kernel : K) : World K Ev where
  loop := ⟨kernel, wakeupFd, fun _ => none⟩
  phase := .drain
  batch := []
  hand := []
  frames _ := .active
  passed := []
  resumed := []

/-- What one step does to the table, the kernel and the batch. -/
inductive Effect (s : World K Ev) (t : World K Ev) : Act Ev Env → Prop where
  | none {a : Act Ev Env} : t.loop = s.loop → t.batch = s.batch → Effect s t a
  | wait (f : Nat) (fd : Fd) (d : Direction) (et : Bool) :
      t.loop = (B.awaitSuspend fd d et (s.waiter B f fd d) s.loop).1 → t.batch = s.batch →
      Effect s t (.wait f fd d et)
  | remove (fd : Fd) : fd ≠ s.loop.wakeupFd → t.loop = B.remove fd s.loop → t.batch = s.batch →
      Effect s t (.remove fd)
  | close (fd : Fd) : fd ≠ s.loop.wakeupFd →
      t.loop = (B.remove fd s.loop).withKernel (B.closeFd fd (B.remove fd s.loop).kernel) →
      t.batch = s.batch → Effect s t (.close fd)
  | closeServer (fd : Fd) : fd ≠ s.loop.wakeupFd →
      t.loop = B.remove fd (s.loop.withKernel (B.closeFd fd s.loop.kernel)) →
      t.batch = s.batch → Effect s t (.closeServer fd)
  | openFd (fd : Fd) (k : K) : B.openFd fd s.loop.kernel = some k → t.loop = s.loop.withKernel k →
      t.batch = s.batch → Effect s t (.openFd fd)
  | change (env : Env) (k : K) : B.change env s.loop.kernel = some k →
      t.loop = s.loop.withKernel k → t.batch = s.batch → Effect s t (.change env)
  | wake (reports : List (Report Ev)) (k : K) : s.phase = .waiting →
      B.wait reports s.loop.kernel = some k → t.loop = s.loop.withKernel k → t.batch = reports →
      Effect s t (.wake reports)
  | dispatch (report : Report Ev) : s.phase = .batch → s.batch = report :: t.batch →
      t.loop = (B.dispatch report.event s.loop).1 → Effect s t .dispatch

theorem step_effect {s t : World K Ev} {a : Act Ev Env} (step : step B s a = some t) :
    Effect B s t a := by
  cases a with
  | wait f fd d et =>
    simp only [Reactor.step, Option.ite_none_right_eq_some, Option.some.injEq] at step
    obtain ⟨_, rfl⟩ := step
    rcases result : B.awaitSuspend fd d et (s.waiter B f fd d) s.loop with ⟨loop, thrown⟩
    cases thrown <;> exact .wait f fd d et (by simp [World.wait, result]) (by simp [World.wait, result])
  | remove fd =>
    simp only [Reactor.step, Option.ite_none_right_eq_some, Option.some.injEq] at step
    obtain ⟨⟨_, other⟩, rfl⟩ := step
    exact .remove fd other rfl rfl
  | close fd =>
    simp only [Reactor.step, Option.ite_none_right_eq_some, Option.some.injEq] at step
    obtain ⟨⟨_, other⟩, rfl⟩ := step
    exact .close fd other rfl rfl
  | closeServer fd =>
    simp only [Reactor.step, Option.ite_none_right_eq_some, Option.some.injEq] at step
    obtain ⟨⟨_, other⟩, rfl⟩ := step
    exact .closeServer fd other rfl rfl
  | openFd fd =>
    simp only [Reactor.step, Option.ite_none_right_eq_some, Option.map_eq_some_iff] at step
    obtain ⟨_, kernel, opened, rfl⟩ := step
    exact .openFd fd kernel opened rfl rfl
  | change env =>
    simp only [Reactor.step, Option.map_eq_some_iff] at step
    obtain ⟨kernel, changed, rfl⟩ := step
    exact .change env kernel changed rfl rfl
  | destroy f | block | interrupted | suspend =>
    simp only [Reactor.step, Option.ite_none_right_eq_some, Option.some.injEq] at step
    obtain ⟨_, rfl⟩ := step
    exact .none rfl rfl
  | wake reports =>
    simp only [Reactor.step, Option.ite_none_right_eq_some, Option.map_eq_some_iff] at step
    obtain ⟨⟨phase, _⟩, kernel, woken, rfl⟩ := step
    exact .wake reports kernel phase woken rfl rfl
  | dispatch =>
    simp only [Reactor.step, Option.ite_none_right_eq_some] at step
    obtain ⟨phase, step⟩ := step
    cases batch : s.batch with
    | nil =>
      simp only [batch, Option.some.injEq] at step
      subst step
      exact .none rfl batch.symm
    | cons report rest =>
      simp only [batch, Option.some.injEq] at step
      subst step
      rcases result : B.dispatch report.event s.loop with ⟨loop, next⟩
      cases next <;> exact .dispatch report phase (by simp [World.dispatch, result, batch])
        (by simp [World.dispatch, result])
  | resume =>
    simp only [Reactor.step, Option.ite_none_right_eq_some] at step
    obtain ⟨phase, step⟩ := step
    cases hand : s.hand with
    | nil =>
      simp only [hand, Option.some.injEq] at step
      subst step
      exact .none rfl rfl
    | cons w rest =>
      simp only [hand, Option.some.injEq] at step
      subst step
      unfold World.resume
      dsimp only
      split
      · split <;> exact .none rfl rfl
      · exact .none rfl rfl

theorem boot_start {wakeupFd : Fd} {kernel : K} (fresh : B.fresh wakeupFd kernel) :
    Start B (World.boot wakeupFd kernel) where
  phase := rfl
  batch := rfl
  hand := rfl
  frames _ := rfl
  passed := rfl
  resumed := rfl
  states _ := rfl
  fresh := fresh

end

abbrev epoll : Backend Epoll.Kernel EpollEvent Epoll.Change := linux Epoll.api Epoll.system

def epollBoot : World Epoll.Kernel EpollEvent := World.boot 4 (Epoll.Kernel.boot 4)

theorem epollBoot_start : Start epoll epollBoot :=
  boot_start epoll (Epoll.Kernel.boot_fresh 4)

theorem epollBoot_replay {s : World Epoll.Kernel EpollEvent}
    {actions : List (Act EpollEvent Epoll.Change)}
    (replay : (machine epoll).exec epollBoot actions = some s) : (machine epoll).Reachable s :=
  Transition.Machine.ReachableWhere.replay (.start epollBoot_start) replay

end Reactor

end CoroEpoll
