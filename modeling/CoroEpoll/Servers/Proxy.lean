import CoroEpoll.Servers.Sockets

/-! The coroutines of the proxy server. -/

set_option autoImplicit false

namespace CoroEpoll.Servers.Proxy

open Routines Text

inductive Fn where
  | asyncRead | asyncWrite | asyncAcceptFd
  | asyncConnectTo | relay | handleSession | acceptAndHandle
  deriving DecidableEq

structure Own where
  /-- the socket that is relayed to -/
  peer : SocketId
  /-- the loop of `relay` has not been left -/
  going : Bool
  host : String
  port : Nat

inductive Question where
  /-- `::inet_pton(AF_INET, host, ...)` -/
  | inetPton (host : String)
  /-- `::socket(...)` -/
  | socket
  /-- `::connect(fd, ...)` -/
  | connect (fd : Fd) (port : Nat)
  /-- `co_await loop.writable(fd)` -/
  | writable (fd : Fd)
  /-- `::getsockopt(fd, SOL_SOCKET, SO_ERROR, ...)` -/
  | soError (fd : Fd)
  /-- `std::make_shared<TcpSocket>` of the client's socket and of this one -/
  | share (fd : Fd)
  /-- `loop.spawn(relay(from, to))` -/
  | spawnRelay (source target : SocketId)
  deriving DecidableEq

abbrev app : App := ⟨Fn, Own, Empty, Question⟩

def EINPROGRESS : Errno := .other 115

def closeAndThrow (error : Locals Own → Exception) : Stmt (net app) :=
  .seq (.wait (fun s => .closeFd s.fd) fun _ s => s) (.throw error)

/-- `async_connect_to` once it has a descriptor. -/
def connectOn : Stmt (net app) :=
  .seq configureFd <|
  .seq (ask fun s => .own (.connect s.fd s.own.port)) <|
  .branch (fun s => s.answer.errno.isSome ∧ s.answer.errno ≠ some EINPROGRESS)
    (closeAndThrow fun s => .std (.systemError (s.answer.errno.getD .EBADF) "connect")) <|
  .branch (fun s => s.answer = .done) (.ret fun s => .descriptor s.fd) <|
  .seq (demand fun s => .own (.writable s.fd)) <|
  .seq (ask fun s => .own (.soError s.fd)) <|
  .branch (fun s => s.answer.errno.isSome)
    (closeAndThrow fun s =>
      .std (.systemError (s.answer.errno.getD .EBADF) "getsockopt SO_ERROR")) <|
  .branch (fun s => s.answer ≠ .count 0)
    (closeAndThrow fun s => match s.answer with
      | .count code => .std (.systemError (.other code) "connect")
      | _ => .std (.systemError (.other 0) "connect")) <|
  .ret fun s => .descriptor s.fd

def asyncConnectTo : Stmt (net app) :=
  .seq (ask fun s => .own (.inetPton s.own.host)) <|
  .branch (fun s => s.answer ≠ .count 1)
    (.throw fun s => .std (.runtimeError ("invalid address: " ++ s.own.host))) <|
  .seq (ask fun _ => .own .socket) <|
  .branch (fun s => s.answer.errno.isSome)
    (.throw fun s => .std (.systemError (s.answer.errno.getD .EBADF) "socket"))
    connectOn

/-- From `s.socket` to `s.own.peer`. -/
def relay : Stmt (net app) :=
  .seq (.assign fun s => { s with own := { s.own with going := true } }) <|
  .seq (.attempt
    (.loop (fun s => s.own.going) <|
      .seq (.call .asyncRead (fun s => { s with size := 8192 }) fun value s =>
        match value with
        | some (.bytes data) => { s with buffer := data }
        | _ => s) <|
      .branch (fun s => s.buffer = [])
        (.assign fun s => { s with own := { s.own with going := false } })
        (.call .asyncWrite (fun s => { s with socket := s.own.peer }) fun _ s => s))
    catches .skip) <|
  .seq (ask fun s => .close s.socket) (ask fun s => .close s.own.peer)

def handleSession : Stmt (net app) :=
  .attempt
    (.seq (.call .asyncConnectTo id fun value s =>
      match value with
      | some (.descriptor fd) => { s with fd }
      | _ => s) <|
    .seq (ask fun s => .own (.share s.fd)) <|
    .seq (.assign fun s => match s.answer with
      | .count peer => { s with own := { s.own with peer } }
      | _ => s) <|
    .seq (demand fun s => .own (.spawnRelay s.socket s.own.peer)) <|
    .call .relay (fun s => { s with socket := s.own.peer, own := { s.own with peer := s.socket } })
      fun _ s => s)
    catches .skip

def code : Fn → Routine (net app)
  | .asyncRead => .value asyncRead fun _ => .bytes []
  | .asyncWrite => .value asyncWrite fun _ => .count 0
  | .asyncAcceptFd => .value asyncAcceptFd fun _ => .descriptor (-1)
  | .asyncConnectTo => .value asyncConnectTo fun _ => .descriptor (-1)
  | .relay => .void relay
  | .handleSession => .void handleSession
  | .acceptAndHandle => .void (acceptAndHandle .asyncAcceptFd)

/-- The descriptors that connect was tried on, and what has become of them. -/
structure Made where
  made : List Fd
  /-- those that belong to a socket now -/
  shared : List Fd
  relays : List (SocketId × SocketId)
  /-- waiting for the connection has thrown -/
  waitThrew : Bool

/-- What the outside answers. Memory for the two sockets is not refused. -/
def outside : Outside app Made where
  note
    | own, .socket, .descriptor fd => { own with made := own.made ++ [fd] }
    | own, .writable _, .threw _ => { own with waitThrew := true }
    | own, .share fd, _ => { own with shared := own.shared ++ [fd] }
    | own, .spawnRelay source target, .done => { own with relays := own.relays ++ [(source, target)] }
    | own, _, _ => own
  expects
    | _, .inetPton _, answer => (∃ count, answer = .count count) ∨ ∃ errno, answer = .failed errno
    | _, .socket, answer => (∃ fd, answer = .descriptor fd) ∨ ∃ errno, answer = .failed errno
    | _, .connect _ _, answer => answer = .done ∨ ∃ errno, answer = .failed errno
    | _, .writable _, answer | _, .spawnRelay _ _, answer => Outside.passes answer = true
    | _, .soError _, answer => (∃ count, answer = .count count) ∨ ∃ errno, answer = .failed errno
    | _, .share _, answer => ∃ socket, answer = .count socket
  breaks
    -- the connection is still being made
    | .connect _ _, .failed errno => errno ≠ EINPROGRESS
    | _, answer => answer.fails

end CoroEpoll.Servers.Proxy
