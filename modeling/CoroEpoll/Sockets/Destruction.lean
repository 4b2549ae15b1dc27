import CoroEpoll.Sockets.Process

/-! `~EventLoop`: the descriptors it closes, then its members in the reverse order of their
declaration, and with them the coroutine frames and the callbacks, whose sockets call `remove`.
-/

set_option autoImplicit false

namespace CoroEpoll.Destruction

inductive Member where
  | epollFd | wakeupFd | stopped | states | tasks | pendingMutex | pendingTasks
  deriving DecidableEq, Repr

def Member.all : List Member :=
  [.epollFd, .wakeupFd, .stopped, .states, .tasks, .pendingMutex, .pendingTasks]

structure Call where
  fd : Fd
  isOpen : Bool
  /-- the members that live when it is made -/
  alive : List Member
  deriving DecidableEq, Repr

/-- The epoll or kqueue descriptor of a loop, in a process that may give its number to
another instance once it is closed. -/
structure Descriptor (K : Type) where
  /-- the instance of the loop -/
  kernel : K
  isOpen : Bool
  /-- the instance that has received the number since -/
  reused : Option K
  /-- the members of the loop that live -/
  alive : List Member
  calls : List Call

namespace Descriptor

variable {K : Type}

-- A number that names no instance is answered with an errno, which `remove` ignores.
def request (answer : K → Option Errno × K) (fd : Fd) (d : Descriptor K) :
    Option Errno × Descriptor K :=
  let logged := { d with calls := d.calls ++ [⟨fd, d.isOpen, d.alive⟩] }
  if d.isOpen then ((answer d.kernel).1, { logged with kernel := (answer d.kernel).2 })
  else
    match d.reused with
    | some other => ((answer other).1, { logged with reused := some (answer other).2 })
    | none => (some .EBADF, logged)

def epoll (api : EpollApi K) : EpollApi (Descriptor K) where
  ctl op fd := request (api.ctl op fd) fd
  drain fd d := { d with kernel := api.drain fd d.kernel }

def kqueue (api : KqueueApi K) : KqueueApi (Descriptor K) where
  kevent change := request (api.kevent change) change.ident
  drain fd d := { d with kernel := api.drain fd d.kernel }

def system {Ev Env : Type} (system : System K Ev Env) : System (Descriptor K) Ev Env where
  fresh fd d := system.fresh fd d.kernel
  sockets d := system.sockets d.kernel
  wait reports d := (system.wait reports d.kernel).map fun kernel => { d with kernel }
  change env d := (system.change env d.kernel).map fun kernel => { d with kernel }
  openFd fd d := (system.openFd fd d.kernel).map fun kernel => { d with kernel }
  closeFd fd d := { d with kernel := system.closeFd fd d.kernel }

structure Intact (d : Descriptor K) : Prop where
  isOpen : d.isOpen = true
  alive : d.alive = Member.all
  calls : d.calls = []

end Descriptor

inductive Destructible {K Env : Type} : {Ev : Type} → Backend (Descriptor K) Ev Env → Prop where
  | linux (api : EpollApi K) (system : System K EpollEvent Env) :
      Destructible (linux (Descriptor.epoll api) (Descriptor.system system))
  | macOS (api : KqueueApi K) (system : System K Kevent Env) :
      Destructible (macOS (Descriptor.kqueue api) (Descriptor.system system))

/-! ## What the members own -/

inductive Socket where
  | tcp (socket : TcpSocket)
  | udp (socket : UdpSocket)
  | server (socket : TcpServer)
  deriving DecidableEq, Repr

namespace Socket

def loop : Socket → Option Nat
  | .tcp socket => socket.loop
  | .udp socket => socket.loop
  | .server socket => socket.loop

def fd : Socket → Fd
  | .tcp socket => socket.fd
  | .udp socket => socket.fd
  | .server socket => socket.fd

def uses (l : Nat) (socket : Socket) : Bool := decide (0 ≤ socket.fd) && socket.loop == some l

/-- `~TcpSocket`, `~UdpSocket` and `~TcpServer` -/
def destroy {K Ev Env : Type} (B : Backend K Ev Env) (p : Process K) : Socket → Process K
  | .tcp socket => (socket.close B p).2
  | .udp socket => (socket.close B p).2
  | .server socket => (socket.close B p).2

end Socket

/-- What a coroutine frame or the captures of a callback own, in the order in which it is
destroyed: sockets, and tasks with a frame of their own. -/
inductive Owned where
  | nothing
  | socket (socket : Socket) (rest : Owned)
  | task (frame rest : Owned)
  deriving DecidableEq, Repr

namespace Owned

def uses (l : Nat) : Owned → Bool
  | .nothing => false
  | .socket owned rest => owned.uses l || rest.uses l
  | .task frame rest => frame.uses l || rest.uses l

def destroy {K Ev Env : Type} (B : Backend K Ev Env) (p : Process K) : Owned → Process K
  | .nothing => p
  | .socket owned rest => rest.destroy B (owned.destroy B p)
  | .task frame rest => rest.destroy B (frame.destroy B p)

end Owned

/-- The elements of `tasks_` and `pending_tasks_`, in the order in which the containers
destroy them, which the language leaves open. -/
structure Contents where
  tasks : List Owned
  pending : List Owned

namespace Contents

-- `states_` does not own the coroutines of its handles.
def of (contents : Contents) : Member → List Owned
  | .tasks => contents.tasks
  | .pendingTasks => contents.pending
  | _ => []

def uses (l : Nat) (contents : Contents) : Bool :=
  contents.tasks.any (·.uses l) || contents.pending.any (·.uses l)

theorem any_members (l : Nat) (contents : Contents) :
    (Member.all.reverse.any fun member => (contents.of member).any (·.uses l)) =
      contents.uses l := by
  simp [Member.all, of, uses, Bool.or_comm]

end Contents

/-! ## The destructor -/

section
variable {K Ev Env : Type} (B : Backend (Descriptor K) Ev Env) (l : Nat)

/-- The body of `~EventLoop`. A constructed loop has valid numbers, which its checks see. -/
def closeDescriptors (reused : Option K) (loop : EventLoop (Descriptor K) Waiter) :
    EventLoop (Descriptor K) Waiter :=
  let loop := loop.withKernel (B.closeFd loop.wakeupFd loop.kernel)
  -- `epoll_fd_` and `kqueue_fd_` keep the number, so `delete_kqueue_filter` goes on using it
  loop.withKernel { loop.kernel with isOpen := false, reused }

def endLifetime (member : Member) (loop : EventLoop (Descriptor K) Waiter) :
    EventLoop (Descriptor K) Waiter :=
  loop.withKernel { loop.kernel with alive := loop.kernel.alive.filter (· ≠ member) }

def destroyAll (owned : List Owned) (p : Process (Descriptor K)) : Process (Descriptor K) :=
  owned.foldl (fun p owned => owned.destroy B p) p

def destroyMember (contents : Contents) (p : Process (Descriptor K)) (member : Member) :
    Process (Descriptor K) :=
  destroyAll B (contents.of member) (p.onLoop l (endLifetime member))

def destroyMembers (contents : Contents) (members : List Member) (p : Process (Descriptor K)) :
    Process (Descriptor K) :=
  members.foldl (destroyMember B l contents) p

/-- `~EventLoop` of the loop `l`, after which the members are destroyed. -/
def destroy (reused : Option K) (contents : Contents) (p : Process (Descriptor K)) :
    Process (Descriptor K) :=
  destroyMembers B l contents Member.all.reverse (p.onLoop l (closeDescriptors B reused))

end

/-- Every call is made on the open descriptor while `states_` lives, and the instance that
has received the number is as it was. -/
structure InOrder {K : Type} (reused : Option K) (d : Descriptor K) : Prop where
  before : ∀ call ∈ d.calls, call.isOpen = true
  states : ∀ call ∈ d.calls, Member.states ∈ call.alive
  untouched : d.reused = reused

/-! ## The calls of a part of the destructor -/

structure Continues {K : Type} (gone : List Member) (used : Bool) (d d' : Descriptor K) : Prop where
  isOpen : d'.isOpen = d.isOpen
  alive : d'.alive = d.alive.filter (· ∉ gone)
  calls : ∃ more, d'.calls = d.calls ++ more ∧ (used = false ↔ more = []) ∧
    ∀ call ∈ more, call.isOpen = d.isOpen ∧ d'.alive ⊆ call.alive
  reused : used = false → d'.reused = d.reused

namespace Continues

variable {K : Type} {d d' d'' : Descriptor K} {gone gone' : List Member} {used used' : Bool}

theorem refl (d : Descriptor K) : Continues [] false d d where
  isOpen := rfl
  alive := by simp
  calls := ⟨[], by simp⟩
  reused _ := rfl

theorem call {fd : Fd} (isOpen : d'.isOpen = d.isOpen) (alive : d'.alive = d.alive)
    (calls : d'.calls = d.calls ++ [⟨fd, d.isOpen, d.alive⟩]) : Continues [] true d d' where
  isOpen := isOpen
  alive := by simpa using alive
  calls := ⟨[⟨fd, d.isOpen, d.alive⟩], by simp [calls, alive]⟩
  reused := by simp

theorem trans (first : Continues gone used d d') (second : Continues gone' used' d' d'') :
    Continues (gone ++ gone') (used || used') d d'' := by
  obtain ⟨more, calls, none, made⟩ := first.calls
  obtain ⟨more', calls', none', made'⟩ := second.calls
  have fewer : d''.alive ⊆ d'.alive := by
    rw [second.alive]
    exact List.filter_subset_self ..
  constructor
  · rw [second.isOpen, first.isOpen]
  · rw [second.alive, first.alive, List.filter_filter]
    congr 1
    funext member
    simp [Bool.and_comm]
  · refine ⟨more ++ more', by rw [calls', calls, List.append_assoc], ?_, ?_⟩
    · rw [Bool.or_eq_false_iff, List.append_eq_nil_iff, none, none']
    · intro call member
      rcases List.mem_append.mp member with member | member
      · exact ⟨(made call member).1, List.Subset.trans fewer (made call member).2⟩
      · exact ⟨(made' call member).1.trans first.isOpen, (made' call member).2⟩
  · intro unused
    rw [Bool.or_eq_false_iff] at unused
    rw [second.reused unused.2, first.reused unused.1]

end Continues

section
variable {K Ev Env : Type}

theorem request_continues (answer : K → Option Errno × K) (fd : Fd) (d : Descriptor K) :
    Continues [] true d (d.request answer fd).2 := by
  unfold Descriptor.request
  split
  · exact .call rfl rfl rfl
  · split
    · exact .call rfl rfl rfl
    · exact .call rfl rfl rfl

structure Requests (B : Backend (Descriptor K) Ev Env) : Prop where
  remove : ∀ fd loop, Continues [] (decide (0 ≤ fd)) loop.kernel (B.remove fd loop).kernel
  closeFd : ∀ fd d, ∃ kernel, B.closeFd fd d = { d with kernel }

theorem linux_requests (api : EpollApi K) (system : System K EpollEvent Env) :
    Requests (linux (Descriptor.epoll api) (Descriptor.system system)) where
  remove fd loop := by
    by_cases valid : 0 ≤ fd
    · simp only [linux, Linux.remove, Int.not_lt.mpr valid, if_false, valid, decide_true]
      exact request_continues (api.ctl .del fd) fd loop.kernel
    · simp only [linux, Linux.remove, Int.not_le.mp valid, if_true, valid, decide_false]
      exact .refl loop.kernel
  closeFd _ _ := ⟨_, rfl⟩

theorem macOS_requests (api : KqueueApi K) (system : System K Kevent Env) :
    Requests (macOS (Descriptor.kqueue api) (Descriptor.system system)) where
  remove fd loop := by
    by_cases valid : 0 ≤ fd
    · simp only [macOS, MacOS.remove, Int.not_lt.mpr valid, if_false, valid, decide_true]
      have read := request_continues (api.kevent ⟨fd, EVFILT_READ, EV_DELETE⟩) fd loop.kernel
      exact read.trans (request_continues (api.kevent ⟨fd, EVFILT_WRITE, EV_DELETE⟩) fd _)
    · simp only [macOS, MacOS.remove, Int.not_le.mp valid, if_true, valid, decide_false]
      exact .refl loop.kernel
  closeFd _ _ := ⟨_, rfl⟩

theorem Destructible.requests {B : Backend (Descriptor K) Ev Env} (code : Destructible B) :
    Requests B := by
  cases code with
  | linux api system => exact linux_requests api system
  | macOS api system => exact macOS_requests api system

variable {B : Backend (Descriptor K) Ev Env} (code : Destructible B) (l : Nat)
include code

theorem remove_continues (loop : Option Nat) (fd : Fd) (p : Process (Descriptor K)) :
    Continues [] (decide (0 ≤ fd) && loop == some l) (p.loops l).kernel
      ((p.remove B loop fd).loops l).kernel := by
  cases loop with
  | none => simpa [Process.remove] using Continues.refl (p.loops l).kernel
  | some l' =>
    simp only [Process.remove, Process.loops_onLoop]
    by_cases same : l = l'
    · subst same
      simpa using code.requests.remove fd (p.loops l)
    · have other : (some l' == some l) = false := by simpa using fun h => same h.symm
      rw [if_neg same, other, Bool.and_false]
      exact .refl (p.loops l).kernel

theorem Socket.destroy_continues (socket : Socket) (p : Process (Descriptor K)) :
    Continues [] (socket.uses l) (p.loops l).kernel ((socket.destroy B p).loops l).kernel := by
  by_cases valid : 0 ≤ socket.fd
  · have removed := remove_continues code l socket.loop socket.fd p
    cases socket with
    | tcp socket =>
      simpa [Socket.destroy, TcpSocket.close, Socket.fd, Socket.loop, Socket.uses,
        show 0 ≤ socket.fd from valid] using removed
    | udp socket =>
      simpa [Socket.destroy, UdpSocket.close, Socket.fd, Socket.loop, Socket.uses,
        show 0 ≤ socket.fd from valid] using removed
    | server socket =>
      -- it closes first, which the loops do not see
      have removed := remove_continues code l socket.loop socket.fd (p.closeFd socket.fd)
      simpa [Socket.destroy, TcpServer.close, Socket.fd, Socket.loop, Socket.uses,
        show 0 ≤ socket.fd from valid] using removed
  · have unused : socket.uses l = false := by simp [Socket.uses, valid]
    have same : socket.destroy B p = p := by
      cases socket with
      | tcp socket => exact congrArg Prod.snd (if_neg valid)
      | udp socket => exact congrArg Prod.snd (if_neg valid)
      | server socket => exact congrArg Prod.snd (if_neg valid)
    rw [unused, same]
    exact .refl (p.loops l).kernel

theorem Owned.destroy_continues (owned : Owned) (p : Process (Descriptor K)) :
    Continues [] (owned.uses l) (p.loops l).kernel ((owned.destroy B p).loops l).kernel := by
  induction owned generalizing p with
  | nothing => exact .refl (p.loops l).kernel
  | socket socket rest rest_ih =>
    exact (socket.destroy_continues code l p).trans (rest_ih (socket.destroy B p))
  | task frame rest frame_ih rest_ih =>
    exact (frame_ih p).trans (rest_ih (frame.destroy B p))

theorem destroyAll_continues (owned : List Owned) (p : Process (Descriptor K)) :
    Continues [] (owned.any (·.uses l)) (p.loops l).kernel
      ((destroyAll B owned p).loops l).kernel := by
  induction owned generalizing p with
  | nil => exact .refl (p.loops l).kernel
  | cons first rest ih =>
    exact (first.destroy_continues code l p).trans (ih (first.destroy B p))

omit code in
theorem endLifetime_continues (member : Member) (loop : EventLoop (Descriptor K) Waiter) :
    Continues [member] false loop.kernel (endLifetime member loop).kernel where
  isOpen := rfl
  alive := by simp [endLifetime]
  calls := ⟨[], by simp [endLifetime]⟩
  reused _ := rfl

theorem destroyMember_continues (contents : Contents) (member : Member)
    (p : Process (Descriptor K)) :
    Continues [member] ((contents.of member).any (·.uses l)) (p.loops l).kernel
      ((destroyMember B l contents p member).loops l).kernel := by
  have ended := endLifetime_continues member (p.loops l)
  have destroyed := destroyAll_continues code l (contents.of member)
    (p.onLoop l (endLifetime member))
  rw [Process.loops_onLoop, if_pos rfl] at destroyed
  exact ended.trans destroyed

theorem destroyMembers_continues (contents : Contents) (members : List Member)
    (p : Process (Descriptor K)) :
    Continues members (members.any fun member => (contents.of member).any (·.uses l))
      (p.loops l).kernel ((destroyMembers B l contents members p).loops l).kernel := by
  induction members generalizing p with
  | nil => exact .refl (p.loops l).kernel
  | cons member rest ih =>
    exact (destroyMember_continues code l contents member p).trans
      (ih (destroyMember B l contents p member))

theorem closeDescriptors_kernel (reused : Option K) (loop : EventLoop (Descriptor K) Waiter) :
    ∃ kernel, (closeDescriptors B reused loop).kernel =
      { loop.kernel with kernel, isOpen := false, reused } := by
  obtain ⟨kernel, closed⟩ := code.requests.closeFd loop.wakeupFd loop.kernel
  refine ⟨kernel, ?_⟩
  simp only [closeDescriptors, EventLoop.kernel_withKernel, closed]

/-! ## The whole destructor -/

/-- Every call that the destructor makes is made on the closed descriptor, and it makes one
if and only if a task or a callback owns a socket of the loop. -/
theorem destroy_calls {p : Process (Descriptor K)} (intact : (p.loops l).kernel.Intact)
    (reused : Option K) (contents : Contents) :
    let d := ((destroy B l reused contents p).loops l).kernel
    (contents.uses l = false ↔ d.calls = []) ∧ (∀ call ∈ d.calls, call.isOpen = false) ∧
      (contents.uses l = false → d.reused = reused) := by
  obtain ⟨kernel, closed⟩ := closeDescriptors_kernel code reused (p.loops l)
  have whole := destroyMembers_continues code l contents Member.all.reverse
    (p.onLoop l (closeDescriptors B reused))
  rw [Process.loops_onLoop, if_pos rfl, closed, Contents.any_members] at whole
  obtain ⟨more, calls, none, made⟩ := whole.calls
  rw [intact.calls, List.nil_append] at calls
  dsimp only [destroy]
  rw [calls]
  exact ⟨none, fun call member => (made call member).1, whole.reused⟩

/-- `states_` lives at every call: it is declared before `tasks_` and `pending_tasks_`. -/
theorem states_alive {p : Process (Descriptor K)} (intact : (p.loops l).kernel.Intact)
    (reused : Option K) (contents : Contents) :
    ∀ call ∈ ((destroy B l reused contents p).loops l).kernel.calls, .states ∈ call.alive := by
  obtain ⟨kernel, closed⟩ := closeDescriptors_kernel code reused (p.loops l)
  have owners := destroyMembers_continues code l contents
    [.pendingTasks, .pendingMutex, .tasks] (p.onLoop l (closeDescriptors B reused))
  have others := destroyMembers_continues code l contents
    [.states, .stopped, .wakeupFd, .epollFd]
    (destroyMembers B l contents [.pendingTasks, .pendingMutex, .tasks]
      (p.onLoop l (closeDescriptors B reused)))
  rw [Process.loops_onLoop, if_pos rfl, closed] at owners
  obtain ⟨more, calls, _, made⟩ := owners.calls
  obtain ⟨more', calls', none', _⟩ := others.calls
  have alive := owners.alive
  rw [intact.alive] at alive
  rw [none'.mp rfl, List.append_nil, calls, intact.calls, List.nil_append] at calls'
  intro call member
  have member : call ∈ more := calls' ▸ member
  apply (made call member).2
  rw [alive]
  decide

/-- The destructor keeps the order if and only if no task and no callback owns a socket that
waits on the loop. -/
theorem inOrder_iff {p : Process (Descriptor K)} (intact : (p.loops l).kernel.Intact)
    (reused : Option K) (contents : Contents) :
    InOrder reused ((destroy B l reused contents p).loops l).kernel ↔
      contents.uses l = false := by
  obtain ⟨none, closed, same⟩ := destroy_calls code l intact reused contents
  constructor
  · intro inOrder
    rw [none, List.eq_nil_iff_forall_not_mem]
    intro call member
    have before := inOrder.before call member
    rw [closed call member] at before
    cases before
  · intro unused
    have empty := none.mp unused
    constructor
    · simp [empty]
    · simp [empty]
    · exact same unused

end

/-! ## One unfinished task -/

def oneLoop : Process (Descriptor Epoll.Kernel) where
  loops _ := ⟨⟨.boot 4, true, none, Member.all, []⟩, 4, fun _ => none⟩
  files := Function.update (fun _ => none) 7 (some 0)
  opened := 1
  closings := []

theorem oneLoop_intact (l : Nat) : (oneLoop.loops l).kernel.Intact :=
  ⟨rfl, rfl, rfl⟩

def otherInstance : Epoll.Kernel :=
  { (Epoll.Kernel.boot 4) with
    sockets := Function.update (fun _ => some 0) 7 (some 1)
    interest := Function.update (fun _ => none) 7 (some ⟨EPOLLIN, false⟩) }

abbrev lifetimeEpoll : Backend (Descriptor Epoll.Kernel) EpollEvent Epoll.Change :=
  linux (Descriptor.epoll Epoll.api) (Descriptor.system Epoll.system)

def oneTask : Contents := ⟨[.socket (.tcp ⟨some 0, 7⟩) .nothing], []⟩

theorem guest_inOrder :
    InOrder (some otherInstance)
      ((destroy lifetimeEpoll 1 (some otherInstance) oneTask oneLoop).loops 1).kernel :=
  (inOrder_iff (.linux Epoll.api Epoll.system) 1 (oneLoop_intact 1) (some otherInstance)
    oneTask).mpr rfl

/-- Its socket is removed from the instance that has received the number. -/
theorem oneTask_late :
    ¬ InOrder (some otherInstance)
      ((destroy lifetimeEpoll 0 (some otherInstance) oneTask oneLoop).loops 0).kernel := by
  intro inOrder
  have untouched := congrArg (fun k => k.map fun k => k.interest 7) inOrder.untouched
  revert untouched
  decide

end CoroEpoll.Destruction
