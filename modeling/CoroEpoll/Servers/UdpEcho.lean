import CoroEpoll.Servers.Sockets

/-! The coroutines of the two UDP echo servers. -/

set_option autoImplicit false

namespace CoroEpoll.Servers.UdpEcho

open Routines Text

inductive Fn where
  | asyncRecvFrom | asyncRecvFromEt | asyncSendTo
  | handleDatagram | udpEchoLoop
  deriving DecidableEq

structure Own where
  endpoint : UdpEndpoint
  /-- the datagrams that have been received together -/
  results : List UdpReceiveResult

inductive Result where
  | one (payload : Bytes) (endpoint : UdpEndpoint)
  /-- the buffer, and how much of it each datagram has filled -/
  | all (buffer : Bytes) (results : List UdpReceiveResult)

inductive Question where
  /-- `::recvfrom(fd_, buffer, size, 0, ...)` -/
  | recvfrom (socket : SocketId) (size : Nat)
  /-- `::sendto(fd_, ..., endpoint)` of these bytes -/
  | sendto (socket : SocketId) (bytes : Bytes) (endpoint : UdpEndpoint)
  /-- `co_await business_pool.submit(loop, ...)` of `process_payload(payload)` -/
  | submit (payload : Bytes)
  /-- `loop.spawn(handle_datagram(...))` -/
  | spawnDatagram (input : Bytes) (endpoint : UdpEndpoint)
  deriving DecidableEq

abbrev app : App := ⟨Fn, Own, Result, Question⟩

def processPayload (input : Bytes) : Bytes := input

def asyncRecvFrom : Stmt (net app) :=
  .seq (demand fun s => .ensureValid s.socket) <|
  .loop (fun _ => true) <|
    .seq (ask fun s => .own (.recvfrom s.socket s.size)) <|
    .branch (fun s => s.answer matches .datagram _ _)
      (.ret fun s => match s.answer with
        | .datagram payload sender => .own (.one payload sender)
        | _ => .count 0) <|
    retry "recvfrom" .read false

/-- Each datagram is written to the front of the one buffer. -/
def asyncRecvFromEt : Stmt (net app) :=
  .seq (demand fun s => .ensureValid s.socket) <|
  .seq (.assign fun s => { s with own := { s.own with results := [] } }) <|
  .loop (fun _ => true) <|
    .seq (ask fun s => .own (.recvfrom s.socket s.size)) <|
    .branch (fun s => s.answer matches .datagram _ _)
      (.assign fun s => match s.answer with
        | .datagram payload sender =>
          { s with
            buffer := Buffer.copy s.buffer payload
            own := { s.own with results := s.own.results ++ [⟨payload.length, sender⟩] } }
        | _ => s) <|
    .branch (fun s => s.own.results ≠ [] ∧ s.answer.errno = some .EAGAIN)
      (.ret fun s => .own (.all s.buffer s.own.results)) <|
    retry "recvfrom" .read true

def asyncSendTo : Stmt (net app) :=
  .seq (demand fun s => .ensureValid s.socket) <|
  .loop (fun _ => true) <|
    .seq (ask fun s => .own (.sendto s.socket s.buffer s.own.endpoint)) <|
    .branch (fun s => s.answer matches .count _)
      (.ret fun s => match s.answer with | .count count => .count count | _ => .count 0) <|
    retry "sendto" .write false

def submitAndSend : Stmt (net app) :=
  .seq (demand fun s => .own (.submit s.buffer)) <|
  .seq (.assign fun s => match s.answer with
    | .bytes output => { s with buffer := output }
    | _ => s) <|
  .call .asyncSendTo id fun _ s => s

def udpEchoLoop : Stmt (net app) :=
  .attempt
    (.loop (fun _ => true) <|
      .seq (.call .asyncRecvFrom (fun s => { s with size := 4096 }) fun value s =>
        match value with
        | some (.own (.one payload endpoint)) =>
          { s with buffer := payload, own := { s.own with endpoint } }
        | _ => s)
      submitAndSend)
    catches (ask fun _ => .stop)

def udpEchoLoopEt : Stmt (net app) :=
  .attempt
    (.loop (fun _ => true) <|
      .seq (.call .asyncRecvFromEt (fun s => { s with size := 4096 }) fun value s =>
        match value with
        | some (.own (.all buffer results)) =>
          { s with buffer, own := { s.own with results } }
        | _ => s) <|
      .loop (fun s => s.own.results ≠ []) <|
        .seq (demand fun s => match s.own.results with
          | received :: _ => .own (.spawnDatagram (s.buffer.take received.size) received.endpoint)
          | [] => .stop) <|
        .assign fun s => { s with own := { s.own with results := s.own.results.tail } })
    catches (ask fun _ => .stop)

def shared : Fn → Routine (net app) → Routine (net app)
  | .asyncRecvFrom, _ => .value asyncRecvFrom fun _ => .count 0
  | .asyncRecvFromEt, _ => .value asyncRecvFromEt fun _ => .count 0
  | .asyncSendTo, _ => .value asyncSendTo fun _ => .count 0
  | .handleDatagram, _ => .void submitAndSend
  | .udpEchoLoop, server => server

/-- `udp-echo-server` -/
def code (fn : Fn) : Routine (net app) := shared fn (.void udpEchoLoop)

/-- `udp-echo-server-et` -/
def codeEt (fn : Fn) : Routine (net app) := shared fn (.void udpEchoLoopEt)

abbrev Datagram := Bytes × UdpEndpoint

structure Traffic where
  came : List Datagram
  went : List Datagram
  spawned : List Datagram

def outside : Outside app Traffic where
  note
    | own, .recvfrom _ _, .datagram payload sender => { own with came := own.came ++ [(payload, sender)] }
    | own, .sendto _ bytes endpoint, .count _ => { own with went := own.went ++ [(bytes, endpoint)] }
    | own, .spawnDatagram input endpoint, .done =>
      { own with spawned := own.spawned ++ [(input, endpoint)] }
    | own, _, _ => own
  expects
    | _, .recvfrom _ size, answer =>
      (∃ payload sender, answer = .datagram payload sender ∧ payload.length ≤ size) ∨
        ∃ errno, answer = .failed errno
    | _, .sendto _ _ _, answer => (∃ count, answer = .count count) ∨ ∃ errno, answer = .failed errno
    | _, .submit payload, answer =>
      answer = .bytes (processPayload payload) ∨ ∃ error, answer = .threw error ∧ error.isStd = true
    | _, .spawnDatagram _ _, answer => Outside.passes answer = true
  breaks _ := Answer.fails

end CoroEpoll.Servers.UdpEcho
