import CoroEpoll.Library.Holdings
import CoroEpoll.Sockets.SetUp

/-! The constructor and the destructor of `EventLoop`: the descriptors they open and close,
when any number of loops are constructed and destroyed on any threads.
-/

set_option autoImplicit false

namespace CoroEpoll.Construction

inductive Answer where
  | done
  | descriptor (fd : Fd)
  /-- of `pipe`: the end to read from and the end to write to -/
  | descriptors (read write : Fd)
  | failed (errno : Errno)
  deriving DecidableEq, Repr

def Answer.opened : Answer → List Fd
  | .descriptor fd => [fd]
  | .descriptors read write => [read, write]
  | .done | .failed _ => []

inductive Next (S : Type) where
  /-- a system call of the constructor -/
  | calls (call : S)
  | built
  /-- `::close`, on one descriptor after the other; then the exception, or the end of the
  destructor -/
  | closing (left : List Fd) (thrown : Option Exception)
  | gone (thrown : Option Exception)
  deriving DecidableEq

/-- The code of one platform: `S` are the system calls of the constructor and `F` the data
members that are descriptors. -/
structure Code (S F : Type) where
  /-- the default member initializers -/
  initial : F
  first : S
  /-- what the constructor does on the answer to a call -/
  answer : S → Answer → F → Option (F × Next S)
  /-- what the destructor looks at, in order -/
  members : F → List Fd

def thrown (errno : Errno) (what : String) : Option Exception :=
  some (.std (.systemError errno what))

/-! ## Linux -/

structure LinuxFds where
  epollFd : Fd
  wakeupFd : Fd
  deriving DecidableEq

inductive LinuxCall where
  | epollCreate1 | eventfd
  /-- in `add_wakeup_fd` -/
  | epollCtl
  deriving DecidableEq

def LinuxCall.answer : LinuxCall → Answer → LinuxFds → Option (LinuxFds × Next LinuxCall)
  | .epollCreate1, .descriptor fd, own => some ({ own with epollFd := fd }, .calls .eventfd)
  | .epollCreate1, .failed errno, own =>
    some ({ own with epollFd := -1 }, .gone (thrown errno "epoll_create1"))
  | .eventfd, .descriptor fd, own => some ({ own with wakeupFd := fd }, .calls .epollCtl)
  | .eventfd, .failed errno, own =>
    some (⟨-1, -1⟩, .closing [own.epollFd] (thrown errno "eventfd"))
  | .epollCtl, .done, own => some (own, .built)
  | .epollCtl, .failed errno, own =>
    some (⟨-1, -1⟩, .closing [own.wakeupFd, own.epollFd] (thrown errno "epoll_ctl wakeup fd"))
  | _, _, _ => none

def linux : Code LinuxCall LinuxFds where
  initial := ⟨-1, -1⟩
  first := .epollCreate1
  answer := LinuxCall.answer
  members own := [own.wakeupFd, own.epollFd]

/-! ## macOS -/

structure MacFds where
  kqueueFd : Fd
  /-- `wakeup_pipe_` -/
  wakeupRead : Fd
  wakeupWrite : Fd
  deriving DecidableEq

inductive PipeEnd where
  | read | write
  deriving DecidableEq

inductive SetUpCall where
  | fcntl (fd : PipeEnd) (command : FcntlCommand)
  /-- in `add_wakeup_fd` -/
  | kevent
  deriving DecidableEq

def SetUpCall.what : SetUpCall → String
  | .fcntl _ .F_GETFL => "fcntl F_GETFL"
  | .fcntl _ .F_SETFL => "fcntl F_SETFL"
  | .fcntl _ .F_GETFD => "fcntl F_GETFD"
  | .fcntl _ .F_SETFD => "fcntl F_SETFD"
  | .kevent => "kevent wakeup fd"

def nonBlockingCalls (fd : PipeEnd) : List SetUpCall := [.fcntl fd .F_GETFL, .fcntl fd .F_SETFL]

def closeOnExecCalls (fd : PipeEnd) : List SetUpCall := [.fcntl fd .F_GETFD, .fcntl fd .F_SETFD]

inductive MacCall where
  | kqueue | pipe
  /-- the call, and those of the `try` block that follow -/
  | setUp (call : SetUpCall) (left : List SetUpCall)
  deriving DecidableEq

def MacCall.afterSetUp : List SetUpCall → Next MacCall
  | [] => .built
  | call :: left => .calls (.setUp call left)

def MacCall.answer : MacCall → Answer → MacFds → Option (MacFds × Next MacCall)
  | .kqueue, .descriptor fd, own => some ({ own with kqueueFd := fd }, .calls .pipe)
  | .kqueue, .failed errno, own =>
    some ({ own with kqueueFd := -1 }, .gone (thrown errno "kqueue"))
  | .pipe, .descriptors read write, own =>
    some ({ own with wakeupRead := read, wakeupWrite := write },
      afterSetUp (nonBlockingCalls .read ++ nonBlockingCalls .write ++ closeOnExecCalls .read ++
        closeOnExecCalls .write ++ [.kevent]))
  | .pipe, .failed errno, own =>
    some ({ own with kqueueFd := -1 }, .closing [own.kqueueFd] (thrown errno "pipe"))
  | .setUp _ left, .done, own => some (own, afterSetUp left)
  -- `kqueue_fd_` is set to -1 and not closed
  | .setUp call _, .failed errno, own =>
    some (⟨-1, -1, -1⟩, .closing [own.wakeupRead, own.wakeupWrite] (thrown errno call.what))
  | _, _, _ => none

def macOS : Code MacCall MacFds where
  initial := ⟨-1, -1, -1⟩
  first := .kqueue
  answer := MacCall.answer
  members own := [own.wakeupRead, own.wakeupWrite, own.kqueueFd]

/-! ## Loops in a process -/

variable {S F K : Type}

def Code.valid (code : Code S F) (own : F) : List Fd :=
  (code.members own).filter fun fd => decide (0 ≤ fd)

structure Loop (S F : Type) where
  own : F
  next : Next S

def Loop.held (code : Code S F) (loop : Loop S F) : List Fd :=
  match loop.next with
  | .calls _ | .built => code.valid loop.own
  | .closing left _ => left
  | .gone _ => []

structure World (S F K : Type) where
  process : Process K
  /-- the loops, by their identities, that have been under construction -/
  loops : Nat → Option (Loop S F)
  /-- the descriptors of the rest of the program -/
  others : List Fd

inductive Act where
  | construct (id : Nat)
  | answer (id : Nat) (answer : Answer)
  | close (id : Nat)
  | finish (id : Nat)
  | destroy (id : Nat)
  /-- the rest of the program opens a descriptor -/
  | openOther (fd : Fd)
  | closeOther (fd : Fd)
  deriving DecidableEq

namespace World

def put (id : Nat) (loop : Loop S F) (s : World S F K) : World S F K :=
  { s with loops := Function.update s.loops id (some loop) }

/-- The system hands out numbers that are not in use. -/
def grants (answer : Answer) (s : World S F K) : Bool :=
  answer.opened.all (fun fd => s.process.free fd) && decide answer.opened.Nodup

def openAll (fds : List Fd) (s : World S F K) : World S F K :=
  { s with process := fds.foldl (fun p fd => p.openFd fd) s.process }

def IsOpen (s : World S F K) (fd : Fd) : Prop := (s.process.files fd).isSome = true

end World

variable (code : Code S F)

def step (s : World S F K) : Act → Option (World S F K)
  | .construct id =>
    match s.loops id with
    | none => some (s.put id ⟨code.initial, .calls code.first⟩)
    | some _ => none
  | .answer id answer =>
    match s.loops id with
    | some ⟨own, .calls call⟩ =>
      if s.grants answer then
        (code.answer call answer own).map fun (own, next) =>
          (s.openAll answer.opened).put id ⟨own, next⟩
      else none
    | _ => none
  | .close id =>
    match s.loops id with
    | some ⟨own, .closing (fd :: left) thrown⟩ =>
      some ({ s with process := s.process.closeFd fd }.put id ⟨own, .closing left thrown⟩)
    | _ => none
  | .finish id =>
    match s.loops id with
    | some ⟨own, .closing [] thrown⟩ => some (s.put id ⟨own, .gone thrown⟩)
    | _ => none
  | .destroy id =>
    match s.loops id with
    | some ⟨own, .built⟩ => some (s.put id ⟨own, .closing (code.valid own) none⟩)
    | _ => none
  | .openOther fd =>
    if s.process.free fd then some { s.openAll [fd] with others := fd :: s.others } else none
  | .closeOther fd =>
    if fd ∈ s.others then
      some { s with process := s.process.closeFd fd, others := s.others.erase fd }
    else none

structure Start (s : World S F K) : Prop where
  files : ∀ fd, s.process.files fd = none
  opened : s.process.opened = 0
  closings : s.process.closings = []
  loops : ∀ id, s.loops id = none
  others : s.others = []

abbrev machine (code : Code S F) : Transition.Machine (World S F K) Act := ⟨Start, step code⟩

def World.held (s : World S F K) : Option Nat → List Fd
  | none => s.others
  | some id => ((s.loops id).map (Loop.held code)).getD []

/-- Each open descriptor is held by a loop that will close it or by the rest of the program,
and by one of them only. -/
def World.Kept (s : World S F K) : Prop :=
  ∀ fd, s.IsOpen fd → ∃! holder, fd ∈ s.held code holder

def World.InUse (s : World S F K) : Prop :=
  Holdings.Safe s.IsOpen (s.held code)

def MacCall.tidy : MacCall → Answer → Bool
  | .setUp _ _, .failed _ => false
  | _, _ => true

def Tidy (tidy : S → Answer → Bool) (s : World S F K) : Act → Bool
  | .answer id answer =>
    match s.loops id with
    | some ⟨_, .calls call⟩ => tidy call answer
    | _ => true
  | _ => true

/-! ## What the constructors do with their descriptors -/

/-- At each call of the constructor the members are as `Ready` says. What is opened is held,
unless the answer is not tidy; then some descriptor is lost. -/
structure Lawful (Ready : S → F → Prop) (tidy : S → Answer → Bool) : Prop where
  initial : Ready code.first code.initial
  holdsNone : code.valid code.initial = []
  ready : ∀ {call answer own own' call'}, Ready call own → (∀ fd ∈ answer.opened, 0 ≤ fd) →
    code.answer call answer own = some (own', .calls call') → Ready call' own'
  keeps : ∀ {call answer own own' next}, Ready call own → (∀ fd ∈ answer.opened, 0 ≤ fd) →
    code.answer call answer own = some (own', next) → tidy call answer = true →
    (Loop.held code ⟨own', next⟩).Perm (code.valid own ++ answer.opened)
  loses : ∀ {call answer own own' next}, Ready call own →
    code.answer call answer own = some (own', next) → tidy call answer = false →
    answer.opened = [] ∧ ∃ lost, lost ≠ [] ∧
      (code.valid own).Perm (Loop.held code ⟨own', next⟩ ++ lost)

def LinuxCall.Ready : LinuxCall → LinuxFds → Prop
  | .epollCreate1, own => own = ⟨-1, -1⟩
  | .eventfd, own => 0 ≤ own.epollFd ∧ own.wakeupFd = -1
  | .epollCtl, own => 0 ≤ own.epollFd ∧ 0 ≤ own.wakeupFd

def MacCall.Ready : MacCall → MacFds → Prop
  | .kqueue, own => own = ⟨-1, -1, -1⟩
  | .pipe, own => 0 ≤ own.kqueueFd ∧ own.wakeupRead = -1 ∧ own.wakeupWrite = -1
  | .setUp _ _, own => 0 ≤ own.kqueueFd ∧ 0 ≤ own.wakeupRead ∧ 0 ≤ own.wakeupWrite

theorem linux_lawful : Lawful linux LinuxCall.Ready fun _ _ => true where
  initial := rfl
  holdsNone := rfl
  ready {call answer own own' call'} ready valid answers := by
    cases call with
    | epollCreate1 =>
      cases answer with
      | descriptor fd =>
        cases answers
        exact ⟨valid fd List.mem_cons_self, congrArg LinuxFds.wakeupFd ready⟩
      | done | descriptors | failed => cases answers
    | eventfd =>
      cases answer with
      | descriptor fd =>
        cases answers
        exact ⟨ready.1, valid fd List.mem_cons_self⟩
      | done | descriptors | failed => cases answers
    | epollCtl => cases answer <;> cases answers
  keeps {call answer own own' next} ready valid answers _ := by
    cases call with
    | epollCreate1 =>
      cases ready
      cases answer with
      | descriptor fd =>
        cases answers
        simpa [Loop.held, Code.valid, linux, Answer.opened] using valid
      | failed errno =>
        cases answers
        simp [Loop.held, Code.valid, linux, Answer.opened]
      | done | descriptors => cases answers
    | eventfd =>
      obtain ⟨epoll, wakeup⟩ := ready
      cases answer with
      | descriptor fd =>
        cases answers
        have opened : 0 ≤ fd := valid fd List.mem_cons_self
        simpa [Loop.held, Code.valid, linux, Answer.opened, epoll, wakeup, opened] using
          List.Perm.swap own.epollFd fd []
      | failed errno =>
        cases answers
        simp [Loop.held, Code.valid, linux, Answer.opened, epoll, wakeup]
      | done | descriptors => cases answers
    | epollCtl =>
      obtain ⟨epoll, wakeup⟩ := ready
      cases answer with
      | done | failed =>
        cases answers
        simp [Loop.held, Code.valid, linux, Answer.opened, epoll, wakeup]
      | descriptor | descriptors => cases answers
  loses _ _ untidy := by cases untidy

theorem held_afterSetUp (own : MacFds) (left : List SetUpCall) :
    Loop.held macOS ⟨own, MacCall.afterSetUp left⟩ = macOS.valid own := by
  cases left <;> rfl

theorem macOS_lawful : Lawful macOS MacCall.Ready MacCall.tidy where
  initial := rfl
  holdsNone := rfl
  ready {call answer own own' call'} ready valid answers := by
    cases call with
    | kqueue =>
      cases ready
      cases answer with
      | descriptor fd =>
        cases answers
        exact ⟨valid fd List.mem_cons_self, rfl, rfl⟩
      | done | descriptors | failed => cases answers
    | pipe =>
      cases answer with
      | descriptors read write =>
        cases answers
        exact ⟨ready.1, valid read (by simp [Answer.opened]), valid write (by simp [Answer.opened])⟩
      | done | descriptor | failed => cases answers
    | setUp call left =>
      cases answer with
      | done =>
        cases left <;> cases answers
        exact ready
      | descriptor | descriptors | failed => cases answers
  keeps {call answer own own' next} ready valid answers tidy := by
    cases call with
    | kqueue =>
      cases ready
      cases answer with
      | descriptor fd =>
        cases answers
        simpa [Loop.held, Code.valid, macOS, Answer.opened] using valid
      | failed errno =>
        cases answers
        simp [Loop.held, Code.valid, macOS, Answer.opened]
      | done | descriptors => cases answers
    | pipe =>
      obtain ⟨kqueue, noRead, noWrite⟩ := ready
      cases answer with
      | descriptors read write =>
        cases answers
        have opened : 0 ≤ read ∧ 0 ≤ write := by simpa [Answer.opened] using valid
        rw [held_afterSetUp]
        simpa [Code.valid, macOS, Answer.opened, kqueue, noRead, noWrite, opened] using
          List.perm_append_singleton own.kqueueFd [read, write]
      | failed errno =>
        cases answers
        simp [Loop.held, Code.valid, macOS, Answer.opened, kqueue, noRead, noWrite]
      | done | descriptor => cases answers
    | setUp call left =>
      cases answer with
      | done =>
        cases answers
        rw [held_afterSetUp]
        simp [Answer.opened]
      | failed errno => cases tidy
      | descriptor | descriptors => cases answers
  loses {call answer own own' next} ready answers untidy := by
    cases call with
    | setUp call left =>
      obtain ⟨kqueue, read, write⟩ := ready
      cases answer with
      | failed errno =>
        cases answers
        refine ⟨rfl, [own.kqueueFd], by simp, ?_⟩
        simp [Loop.held, Code.valid, macOS, kqueue, read, write]
      | done | descriptor | descriptors => cases untidy
    | kqueue | pipe => cases untidy

end CoroEpoll.Construction
