import CoroEpoll.EventLoop.Laws
import CoroEpoll.Library.Table
import CoroEpoll.Tcp.Accept
import CoroEpoll.Udp.Receive

/-! The descriptors of a process, the event loops its sockets wait on, and how each class
closes its descriptor.
-/

set_option autoImplicit false

namespace CoroEpoll

structure Closing where
  fd : Fd
  /-- the open file that the number named -/
  file : Option Nat
  /-- which loops had an entry in `states_` for the number -/
  registered : Nat → Bool

structure Process (K : Type) where
  /-- the event loops, by their identities -/
  loops : Nat → EventLoop K Waiter
  /-- the open file behind each descriptor of a socket -/
  files : Fd → Option Nat
  /-- number of files opened so far -/
  opened : Nat
  /-- the calls of `::close` so far -/
  closings : List Closing

namespace Process

variable {K Ev Env : Type}

def free (fd : Fd) (p : Process K) : Bool := decide (0 ≤ fd) && (p.files fd).isNone

def openFd (fd : Fd) (p : Process K) : Process K :=
  { p with files := Function.update p.files fd (some p.opened), opened := p.opened + 1 }

def closeFd (fd : Fd) (p : Process K) : Process K :=
  { p with
    files := Function.update p.files fd none
    closings := p.closings ++ [⟨fd, p.files fd, fun l => ((p.loops l).states fd).isSome⟩] }

def onLoop (l : Nat) (change : EventLoop K Waiter → EventLoop K Waiter) (p : Process K) :
    Process K :=
  { p with loops := Function.update p.loops l (change (p.loops l)) }

/-- `loop->remove(fd)`, unless `loop` is null. -/
def remove (B : Backend K Ev Env) (loop : Option Nat) (fd : Fd) (p : Process K) : Process K :=
  match loop with
  | some l => p.onLoop l (B.remove fd)
  | none => p

def closed (p : Process K) : List Nat := p.closings.filterMap (·.file)

theorem free_iff {fd : Fd} {p : Process K} : p.free fd = true ↔ 0 ≤ fd ∧ p.files fd = none := by
  simp [free]

@[simp] theorem files_onLoop (l : Nat) (change : EventLoop K Waiter → EventLoop K Waiter)
    (p : Process K) : (p.onLoop l change).files = p.files := rfl
@[simp] theorem opened_onLoop (l : Nat) (change : EventLoop K Waiter → EventLoop K Waiter)
    (p : Process K) : (p.onLoop l change).opened = p.opened := rfl
@[simp] theorem closings_onLoop (l : Nat) (change : EventLoop K Waiter → EventLoop K Waiter)
    (p : Process K) : (p.onLoop l change).closings = p.closings := rfl
@[simp] theorem closed_onLoop (l : Nat) (change : EventLoop K Waiter → EventLoop K Waiter)
    (p : Process K) : (p.onLoop l change).closed = p.closed := rfl

theorem loops_onLoop (l l' : Nat) (change : EventLoop K Waiter → EventLoop K Waiter)
    (p : Process K) :
    (p.onLoop l change).loops l' = if l' = l then change (p.loops l) else p.loops l' := by
  exact Function.update_apply ..

section
variable (B : Backend K Ev Env) (loop : Option Nat) (fd : Fd) (p : Process K)

@[simp] theorem files_remove : (p.remove B loop fd).files = p.files := by
  cases loop <;> rfl

@[simp] theorem opened_remove : (p.remove B loop fd).opened = p.opened := by
  cases loop <;> rfl

@[simp] theorem closings_remove : (p.remove B loop fd).closings = p.closings := by
  cases loop <;> rfl

@[simp] theorem closed_remove : (p.remove B loop fd).closed = p.closed := by
  cases loop <;> rfl

end

@[simp] theorem opened_openFd (fd : Fd) (p : Process K) : (p.openFd fd).opened = p.opened + 1 := rfl
@[simp] theorem loops_openFd (fd : Fd) (p : Process K) : (p.openFd fd).loops = p.loops := rfl
@[simp] theorem closings_openFd (fd : Fd) (p : Process K) :
    (p.openFd fd).closings = p.closings := rfl
@[simp] theorem closed_openFd (fd : Fd) (p : Process K) : (p.openFd fd).closed = p.closed := rfl

@[simp] theorem opened_closeFd (fd : Fd) (p : Process K) : (p.closeFd fd).opened = p.opened := rfl
@[simp] theorem loops_closeFd (fd : Fd) (p : Process K) : (p.closeFd fd).loops = p.loops := rfl

theorem files_openFd (fd fd' : Fd) (p : Process K) :
    (p.openFd fd).files fd' = if fd' = fd then some p.opened else p.files fd' :=
  Function.update_apply ..

theorem files_closeFd (fd fd' : Fd) (p : Process K) :
    (p.closeFd fd).files fd' = if fd' = fd then none else p.files fd' :=
  Function.update_apply ..

theorem open_openFd {fd fd' : Fd} {p : Process K} {n : Nat} : (p.openFd fd).files fd' = some n ↔
    fd' = fd ∧ p.opened = n ∨ fd' ≠ fd ∧ p.files fd' = some n :=
  Table.enter_eq_some

theorem open_closeFd {fd fd' : Fd} {p : Process K} {n : Nat} :
    (p.closeFd fd).files fd' = some n ↔ fd' ≠ fd ∧ p.files fd' = some n :=
  Table.clear_eq_some

theorem closed_closeFd (fd : Fd) (p : Process K) :
    (p.closeFd fd).closed = p.closed ++ (p.files fd).toList := by
  unfold closed closeFd
  rw [List.filterMap_append]
  cases p.files fd <;> rfl

/-- Each file has one number while it is open, and has been passed to `::close` once
otherwise. -/
structure Sound (p : Process K) : Prop where
  numbered : ∀ fd n, p.files fd = some n → n < p.opened
  distinct : ∀ fd fd' n, p.files fd = some n → p.files fd' = some n → fd = fd'
  once : p.closed.Nodup
  gone : ∀ n, n ∈ p.closed ↔ n < p.opened ∧ ∀ fd, p.files fd ≠ some n

namespace Sound

variable {p : Process K}

theorem onLoop (sound : p.Sound) (l : Nat) (change : EventLoop K Waiter → EventLoop K Waiter) :
    (p.onLoop l change).Sound :=
  ⟨sound.numbered, sound.distinct, sound.once, sound.gone⟩

theorem remove (sound : p.Sound) (B : Backend K Ev Env) (loop : Option Nat) (fd : Fd) :
    (p.remove B loop fd).Sound := by
  cases loop with
  | some l => exact sound.onLoop l _
  | none => exact sound

theorem count_closed (sound : p.Sound) {n : Nat} (member : n ∈ p.closed) : p.closed.count n = 1 := by
  rw [sound.once.count, if_pos member]

theorem openFd (sound : p.Sound) {fd : Fd} (absent : p.files fd = none) : (p.openFd fd).Sound where
  numbered fd' n isOpen := by
    rw [opened_openFd]
    rcases open_openFd.mp isOpen with ⟨_, rfl⟩ | ⟨_, before⟩
    · omega
    · have below := sound.numbered fd' n before
      omega
  distinct first second n isFirst isSecond := by
    rcases open_openFd.mp isFirst with ⟨left, new⟩ | ⟨_, before⟩
    · rcases open_openFd.mp isSecond with ⟨right, _⟩ | ⟨_, before⟩
      · rw [left, right]
      · have below := sound.numbered second n before
        omega
    · rcases open_openFd.mp isSecond with ⟨_, new⟩ | ⟨_, before'⟩
      · have below := sound.numbered first n before
        omega
      · exact sound.distinct first second n before before'
  once := sound.once
  gone n := by
    rw [closed_openFd, opened_openFd, sound.gone n]
    constructor
    · intro ⟨below, nowhere⟩
      refine ⟨by omega, fun fd' isOpen => ?_⟩
      rcases open_openFd.mp isOpen with ⟨_, new⟩ | ⟨_, before⟩
      · omega
      · exact nowhere fd' before
    · intro ⟨below, nowhere⟩
      have other : n ≠ p.opened := fun same => nowhere fd (open_openFd.mpr (Or.inl ⟨rfl, same.symm⟩))
      refine ⟨by omega, fun fd' isOpen => ?_⟩
      apply nowhere fd'
      rw [open_openFd]
      refine Or.inr ⟨fun same => ?_, isOpen⟩
      rw [same, absent] at isOpen
      cases isOpen

theorem closeFd (sound : p.Sound) (fd : Fd) : (p.closeFd fd).Sound := by
  constructor
  · intro fd' n isOpen
    exact sound.numbered fd' n (open_closeFd.mp isOpen).2
  · intro first second n isFirst isSecond
    exact sound.distinct first second n (open_closeFd.mp isFirst).2 (open_closeFd.mp isSecond).2
  · rw [closed_closeFd]
    cases named : p.files fd with
    | none => simpa using sound.once
    | some n =>
      have fresh : n ∉ p.closed := fun member => ((sound.gone n).mp member).2 fd named
      simpa [List.nodup_append] using ⟨sound.once, fun m member same => fresh (same ▸ member)⟩
  · intro n
    rw [closed_closeFd, List.mem_append, sound.gone n, Option.mem_toList, opened_closeFd]
    constructor
    · rintro (⟨below, nowhere⟩ | named)
      · exact ⟨below, fun fd' isOpen => nowhere fd' (open_closeFd.mp isOpen).2⟩
      · refine ⟨sound.numbered fd n named, fun fd' isOpen => ?_⟩
        have isOpen := open_closeFd.mp isOpen
        exact isOpen.1 (sound.distinct fd' fd n isOpen.2 named)
    · intro ⟨below, nowhere⟩
      by_cases named : p.files fd = some n
      · exact Or.inr named
      · refine Or.inl ⟨below, fun fd' isOpen => ?_⟩
        apply nowhere fd'
        rw [open_closeFd]
        refine ⟨fun same => ?_, isOpen⟩
        exact named (same ▸ isOpen)

end Sound

end Process

theorem TcpServer.ensureValid_iff {server : TcpServer} (loop : server.loop ≠ none) :
    server.ensureValid = none ↔ 0 ≤ server.fd := by
  simp [TcpServer.ensureValid, loop]

theorem UdpSocket.ensureValid_iff {socket : UdpSocket} (loop : socket.loop ≠ none) :
    socket.ensureValid = none ↔ 0 ≤ socket.fd := by
  simp [UdpSocket.ensureValid, loop]

/-! ## `close` -/

variable {K Ev Env : Type} (B : Backend K Ev Env)

def TcpSocket.close (socket : TcpSocket) (p : Process K) : TcpSocket × Process K :=
  if 0 ≤ socket.fd then (⟨none, -1⟩, (p.remove B socket.loop socket.fd).closeFd socket.fd)
  else (socket, p)

-- Unlike `TcpSocket::close`, it keeps `loop_`.
def UdpSocket.close (socket : UdpSocket) (p : Process K) : UdpSocket × Process K :=
  if 0 ≤ socket.fd then
    ({ socket with fd := -1 }, (p.remove B socket.loop socket.fd).closeFd socket.fd)
  else (socket, p)

-- It closes before it removes. `loop_` is not null: the constructor sets it for good.
def TcpServer.close (server : TcpServer) (p : Process K) : TcpServer × Process K :=
  if 0 ≤ server.fd then
    ({ server with fd := -1 }, (p.closeFd server.fd).remove B server.loop server.fd)
  else (server, p)

end CoroEpoll
