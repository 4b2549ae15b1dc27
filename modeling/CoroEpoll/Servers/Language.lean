import CoroEpoll.Library.Contracts
import CoroEpoll.Library.Text
import CoroEpoll.Tcp.Socket
import CoroEpoll.Udp.Receive

/-! The language in which the coroutines of the servers are written: routines that ask for
system calls and for waits.

A system call is a wait whose reply comes at once. Sockets are objects that several coroutines
may share, so that a coroutine knows them by their identity and asks whether they are valid.
-/

set_option autoImplicit false

namespace CoroEpoll.Servers

open Routines Text

abbrev SocketId := Nat

/-- What a server's own coroutines are written over, beside sockets. -/
structure App where
  Fn : Type
  /-- their variables -/
  Own : Type
  /-- what they return -/
  Value : Type
  /-- what they ask -/
  Question : Type

inductive Ask (Q : Type) where
  /-- `ensure_valid()` -/
  | ensureValid (socket : SocketId)
  /-- `::recv(fd_, buffer, size, 0)` -/
  | recv (socket : SocketId) (size : Nat)
  /-- `::send(fd_, ...)` of these bytes -/
  | send (socket : SocketId) (bytes : Bytes)
  /-- `::accept4(fd_, ...)` -/
  | accept (socket : SocketId)
  /-- `disable_sigpipe` and, where `accept` has no flags, `set_non_blocking` and
  `set_close_on_exec` -/
  | configure (fd : Fd)
  /-- `co_await` of readable, writable, readable_et or writable_et -/
  | ready (socket : SocketId) (direction : Direction) (edgeTrigger : Bool)
  /-- `socket.close()` -/
  | close (socket : SocketId)
  /-- `::close(fd)` -/
  | closeFd (fd : Fd)
  /-- `loop.spawn(handle_client(loop, TcpSocket(loop, fd), ...))` -/
  | spawn (fd : Fd)
  /-- `loop.stop()` -/
  | stop
  | own (question : Q)
  deriving DecidableEq

inductive Answer where
  | done
  | bytes (data : Bytes)
  | datagram (data : Bytes) (sender : UdpEndpoint)
  | count (count : Nat)
  | descriptor (fd : Fd)
  | failed (errno : Errno)
  | threw (error : Exception)
  deriving DecidableEq, Repr

namespace Answer

def errno : Answer → Option Errno
  | .failed errno => some errno
  | _ => none

def error : Answer → Option Exception
  | .threw error => some error
  | _ => none

def fails : Answer → Bool
  | .failed errno => errno.hard
  | .threw _ => true
  | _ => false

end Answer

structure Locals (Own : Type) where
  socket : SocketId
  /-- room in the buffer that is read to -/
  size : Nat
  /-- the buffer that is written -/
  buffer : Bytes
  total : Nat
  fd : Fd
  /-- the connections that have been accepted together -/
  batch : List Fd
  /-- what was answered last -/
  answer : Answer
  own : Own

inductive Value (V : Type) where
  /-- what has been read to the buffer -/
  | bytes (data : Bytes)
  | count (count : Nat)
  | descriptor (fd : Fd)
  | descriptors (fds : List Fd)
  | own (value : V)

abbrev net (A : App) : Lang where
  Fn := A.Fn
  Env := Locals A.Own
  Value := Value A.Value
  Error := Exception
  Event := Ask A.Question
  Reply := Answer

/-! ## The coroutines of the sockets -/

section
variable {A : App}

def ask (question : Locals A.Own → Ask A.Question) : Stmt (net A) :=
  .wait question fun answer s => { s with answer }

/-- What was asked may throw. -/
def demand (question : Locals A.Own → Ask A.Question) : Stmt (net A) :=
  .seq (ask question)
    (.branch (fun s => s.answer.error.isSome)
      (.throw fun s => s.answer.error.getD (.foreign 0)) .skip)

/-- What each loop makes of an errno: EINTR repeats the call, EAGAIN waits first, and any
other is thrown. -/
def retry (what : String) (direction : Direction) (edgeTrigger : Bool) : Stmt (net A) :=
  .branch (fun s => s.answer.errno = some .EINTR) .skip <|
  .branch (fun s => s.answer.errno = some .EAGAIN)
    (demand fun s => .ready s.socket direction edgeTrigger) <|
  .throw fun s => .std (.systemError (s.answer.errno.getD .EBADF) what)

def asyncRead : Stmt (net A) :=
  .seq (demand fun s => .ensureValid s.socket) <|
  .loop (fun _ => true) <|
    .seq (ask fun s => .recv s.socket s.size) <|
    -- `count > 0` and `count == 0` both return it
    .branch (fun s => s.answer matches .bytes _)
      (.ret fun s => match s.answer with | .bytes data => .bytes data | _ => .bytes []) <|
    retry "recv" .read false

def asyncReadEt : Stmt (net A) :=
  .seq (demand fun s => .ensureValid s.socket) <|
  -- the buffer holds the `total` bytes that have been read
  .seq (.assign fun s => { s with buffer := [] }) <|
  .loop (fun _ => true) <|
    .seq (ask fun s => .recv s.socket (s.size - s.buffer.length)) <|
    .branch (fun s => s.answer = .bytes []) (.ret fun s => .bytes s.buffer) <|
    .branch (fun s => s.answer matches .bytes _)
      (.assign fun s => match s.answer with
        | .bytes data => { s with buffer := s.buffer ++ data }
        | _ => s) <|
    .branch (fun s => s.buffer ≠ [] ∧ s.answer.errno = some .EAGAIN)
      (.ret fun s => .bytes s.buffer) <|
    retry "recv" .read true

def asyncWrite : Stmt (net A) :=
  .seq (demand fun s => .ensureValid s.socket) <|
  .seq (.assign fun s => { s with total := 0 }) <|
  .seq (.loop (fun s => s.total < s.buffer.length) <|
    .seq (ask fun s => .send s.socket (s.buffer.drop s.total)) <|
    .branch (fun s => s.answer matches .count (_ + 1))
      (.assign fun s => match s.answer with
        | .count count => { s with total := s.total + count }
        | _ => s) <|
    .branch (fun s => s.answer = .count 0)
      (demand fun s => .ready s.socket .write false) <|
    retry "send" .write false) <|
  .ret fun s => .count s.total

/-- `catch (...) { ...; throw; }`; a destructor that runs on the way out is one too. -/
def cleansUp (body cleanup : Stmt (net A)) : Stmt (net A) :=
  .attempt body (fun error s => some { s with answer := .threw error }) <|
    .seq cleanup (.throw fun s => s.answer.error.getD (.foreign 0))

/-- What both accept functions do with a descriptor that `accept` has returned. -/
def configureFd : Stmt (net A) :=
  .seq (.assign fun s => match s.answer with
    | .descriptor fd => { s with fd }
    | _ => s) <|
  cleansUp (demand fun s => .configure s.fd) (.wait (fun s => .closeFd s.fd) fun _ s => s)

def asyncAcceptFd : Stmt (net A) :=
  .seq (demand fun s => .ensureValid s.socket) <|
  .loop (fun _ => true) <|
    .seq (ask fun s => .accept s.socket) <|
    .branch (fun s => s.answer matches .descriptor _)
      (.seq configureFd (.ret fun s => .descriptor s.fd)) <|
    retry "accept4" .read false

def closeBatch : Stmt (net A) :=
  .loop (fun s => s.batch ≠ []) <|
    .wait (fun s => .closeFd (s.batch.headD (-1))) fun _ s => { s with batch := s.batch.tail }

def asyncAcceptEt : Stmt (net A) :=
  .seq (demand fun s => .ensureValid s.socket) <|
  .seq (.assign fun s => { s with batch := [] }) <|
  .seq (demand fun s => .ready s.socket .read true) <|
  cleansUp
    (.loop (fun _ => true) <|
      .seq (ask fun s => .accept s.socket) <|
      .branch (fun s => s.answer matches .descriptor _)
        (.seq configureFd (.assign fun s => { s with batch := s.batch ++ [s.fd] })) <|
      .branch (fun s => s.answer.errno = some .EINTR) .skip <|
      .branch (fun s => s.answer.errno = some .EAGAIN) (.ret fun s => .descriptors s.batch) <|
      .throw fun s => .std (.systemError (s.answer.errno.getD .EBADF) "accept4"))
    closeBatch

/-- `catch (const std::exception&)` -/
def catches (error : Exception) (s : Locals A.Own) : Option (Locals A.Own) :=
  if error.isStd then some s else none

/-- `accept_and_handle`, which every TCP server with level-triggered accept has -/
def acceptAndHandle (accept : A.Fn) : Stmt (net A) :=
  .attempt
    (.loop (fun _ => true) <|
      .seq (.call accept id fun value s =>
        match value with
        | some (.descriptor fd) => { s with fd }
        | _ => s) <|
      demand fun s => .spawn s.fd)
    catches (ask fun _ => .stop)

def acceptAndHandleEt (accept : A.Fn) : Stmt (net A) :=
  .attempt
    (.loop (fun _ => true) <|
      .seq (.call accept id fun value s =>
        match value with
        | some (.descriptors batch) => { s with batch }
        | _ => s) <|
      -- a spawned coroutine owns its socket, and the vector those behind it
      cleansUp
        (.loop (fun s => s.batch ≠ []) <|
          .seq (.assign fun s => { s with fd := s.batch.headD (-1), batch := s.batch.tail }) <|
          demand fun s => .spawn s.fd)
        closeBatch)
    catches (ask fun _ => .stop)

end

/-! ## What an observer sees of the sockets -/

structure Wire (X : Type) where
  /-- what each recv has returned, in order; it is empty at the end of the stream -/
  arrived : SocketId → List Bytes
  /-- the bytes that the kernel has accepted -/
  sent : SocketId → Bytes
  /-- the connections that the kernel has handed over -/
  opened : List Fd
  closed : List Fd
  /-- the connections that a coroutine has been spawned for -/
  spawned : List Fd
  stops : Nat
  /-- the sockets that `close()` has been called on -/
  shut : List SocketId
  /-- some call or wait has failed for good -/
  broken : Bool
  own : X

namespace Wire

variable {X : Type}

def boot (own : X) : Wire X := ⟨fun _ => [], fun _ => [], [], [], [], 0, [], false, own⟩

def received (w : Wire X) (socket : SocketId) : Bytes := (w.arrived socket).flatten

def receiveAll (socket : SocketId) (chunks : List Bytes) (w : Wire X) : Wire X :=
  { w with arrived := Function.update w.arrived socket (w.arrived socket ++ chunks) }

def receive (socket : SocketId) (data : Bytes) (w : Wire X) : Wire X := w.receiveAll socket [data]

def send (socket : SocketId) (data : Bytes) (w : Wire X) : Wire X :=
  { w with sent := Function.update w.sent socket (w.sent socket ++ data) }

def openFd (fd : Fd) (w : Wire X) : Wire X := { w with opened := w.opened ++ [fd] }

def closeFd (fd : Fd) (w : Wire X) : Wire X := { w with closed := w.closed ++ [fd] }

def spawnFor (fd : Fd) (w : Wire X) : Wire X := { w with spawned := w.spawned ++ [fd] }

def stop (w : Wire X) : Wire X := { w with stops := w.stops + 1 }

def shutDown (socket : SocketId) (w : Wire X) : Wire X := { w with shut := w.shut ++ [socket] }

def fail (w : Wire X) : Wire X := { w with broken := true }

@[simp] theorem receiveAll_nil (socket : SocketId) (w : Wire X) : w.receiveAll socket [] = w := by
  simp [receiveAll]

theorem receive_receiveAll (socket : SocketId) (chunks : List Bytes) (data : Bytes) (w : Wire X) :
    (w.receiveAll socket chunks).receive socket data = w.receiveAll socket (chunks ++ [data]) := by
  simp [receive, receiveAll]

@[simp] theorem received_receiveAll (socket : SocketId) (chunks : List Bytes) (w : Wire X) :
    (w.receiveAll socket chunks).received socket = w.received socket ++ chunks.flatten := by
  simp [received, receiveAll]

@[simp] theorem send_nil (socket : SocketId) (w : Wire X) : w.send socket [] = w := by
  simp [send]

theorem send_send (socket : SocketId) (first second : Bytes) (w : Wire X) :
    (w.send socket first).send socket second = w.send socket (first ++ second) := by
  simp [send]

end Wire

/-- What an observer makes of the questions of a server's own coroutines. -/
structure Outside (A : App) (X : Type) where
  note : X → A.Question → Answer → X
  expects : X → A.Question → Answer → Prop
  /-- the answer is a failure that nothing mends -/
  breaks : A.Question → Answer → Bool

namespace Outside

variable {A : App} {X : Type} (outside : Outside A X)

def failsOn : Ask A.Question → Answer → Bool
  | .own question, answer => outside.breaks question answer
  | _, answer => answer.fails

/-- A failure is noted; so is what a call has transferred, opened, closed or spawned. -/
def noteAsk (w : Wire X) (question : Ask A.Question) (answer : Answer) : Wire X :=
  let w := if outside.failsOn question answer then w.fail else w
  match question, answer with
  | .recv socket _, .bytes data => w.receive socket data
  | .send socket bytes, .count count => w.send socket (bytes.take count)
  | .accept _, .descriptor fd => w.openFd fd
  | .closeFd fd, _ => w.closeFd fd
  | .close socket, _ => w.shutDown socket
  | .spawn fd, .done => w.spawnFor fd
  -- the `TcpSocket` that was to be handed over closes it
  | .spawn fd, .threw _ => w.closeFd fd
  | .stop, _ => w.stop
  | .own question, answer => { w with own := outside.note w.own question answer }
  | _, _ => w

def passes : Answer → Bool
  | .done => true
  | .threw error => error.isStd
  | _ => false

/-- The kernel transfers no more bytes than there is room for or than it is given. -/
def expectsAnswer (w : Wire X) : Ask A.Question → Answer → Prop
  | .recv _ size, answer =>
    match answer with
    | .bytes data => data.length ≤ size
    | .failed _ => True
    | _ => False
  | .send _ bytes, answer =>
    match answer with
    | .count count => count ≤ bytes.length
    | .failed _ => True
    | _ => False
  | .accept _, answer =>
    match answer with
    | .descriptor fd => 0 ≤ fd
    | .failed _ => True
    | _ => False
  | .ensureValid _, answer | .ready _ _ _, answer | .configure _, answer | .spawn _, answer =>
    passes answer = true
  | .close _, answer | .closeFd _, answer | .stop, answer => answer = .done
  | .own question, answer => outside.expects w.own question answer

def observer : Observer (net A) (Wire X) where
  note := outside.noteAsk
  expects := outside.expectsAnswer

end Outside

end CoroEpoll.Servers
