import CoroEpoll.Sockets.Process

/-! `TcpServer::listen` and `UdpSocket::bind`: a chain of system calls, each of which may fail. -/

set_option autoImplicit false

namespace CoroEpoll

structure Platform where
  /-- SOCK_NONBLOCK and SOCK_CLOEXEC -/
  sockFlags : Bool
  soNosigpipe : Bool
  soReuseport : Bool
  deriving DecidableEq, Repr

def Platform.linux : Platform := ⟨true, false, true⟩

inductive SocketOption where
  | SO_NOSIGPIPE | SO_REUSEADDR | SO_REUSEPORT
  deriving DecidableEq, Repr

inductive FcntlCommand where
  | F_GETFL | F_SETFL | F_GETFD | F_SETFD
  deriving DecidableEq, Repr

/-- The calls on a new socket. No set-up makes one of them twice. -/
inductive SysCall where
  | setsockopt (option : SocketOption)
  | fcntl (command : FcntlCommand)
  | bind (port : BitVec 16)
  | listen (backlog : Int)
  deriving DecidableEq, Repr

/-- What the system answers during a set-up: `socket` a descriptor or an errno, any other
call `none` or an errno. -/
structure Answers where
  socket : Except Errno Fd
  call : SysCall → Option Errno

namespace Answers

def attempt (answers : Answers) (call : SysCall) (what : String) : Except Exception Unit :=
  match answers.call call with
  | none => .ok ()
  | some errno => .error (.std (.systemError errno what))

def succeed (answers : Answers) (calls : List SysCall) : Bool :=
  calls.all fun call => (answers.call call).isNone

def opens (answers : Answers) : Bool :=
  match answers.socket with
  | .ok _ => true
  | .error _ => false

def possible {K : Type} (answers : Answers) (p : Process K) : Bool :=
  match answers.socket with
  | .ok fd => p.free fd
  | .error _ => true

end Answers

def setNonBlocking (answers : Answers) : Except Exception Unit := do
  answers.attempt (.fcntl .F_GETFL) "fcntl F_GETFL"
  answers.attempt (.fcntl .F_SETFL) "fcntl F_SETFL"

def setCloseOnExec (answers : Answers) : Except Exception Unit := do
  answers.attempt (.fcntl .F_GETFD) "fcntl F_GETFD"
  answers.attempt (.fcntl .F_SETFD) "fcntl F_SETFD"

variable (platform : Platform)

def disableSigpipe (answers : Answers) : Except Exception Unit :=
  if platform.soNosigpipe then
    answers.attempt (.setsockopt .SO_NOSIGPIPE) "setsockopt SO_NOSIGPIPE"
  else .ok ()

/-- Where `socket` does not set the flags. -/
def setFlags (answers : Answers) : Except Exception Unit :=
  if platform.sockFlags then .ok ()
  else do
    setNonBlocking answers
    setCloseOnExec answers

/-- SO_REUSEADDR, and SO_REUSEPORT when it is asked for. -/
def shareAddress (reusePort : Bool) (answers : Answers) : Except Exception Unit := do
  answers.attempt (.setsockopt .SO_REUSEADDR) "setsockopt SO_REUSEADDR"
  if reusePort then
    if platform.soReuseport then
      answers.attempt (.setsockopt .SO_REUSEPORT) "setsockopt SO_REUSEPORT"
    else .error (.std (.runtimeError "SO_REUSEPORT is not supported on this platform"))
  else .ok ()

structure SetUp (S K : Type) where
  socket : S
  process : Process K
  thrown : Option Exception

variable {K Ev Env : Type} (B : Backend K Ev Env)

def TcpServer.listen (port : BitVec 16) (backlog : Int) (reusePort : Bool) (answers : Answers)
    (server : TcpServer) (p : Process K) : SetUp TcpServer K :=
  let (server, p) := server.close B p
  match answers.socket with
  | .error errno => ⟨{ server with fd := -1 }, p, some (.std (.systemError errno "socket"))⟩
  | .ok fd =>
    let server := { server with fd }
    let p := p.openFd fd
    match disableSigpipe platform answers with
    | .error error => ⟨server, p, some error⟩
    | .ok () =>
      -- the only part in a try block
      match setFlags platform answers with
      | .error error => ⟨{ server with fd := -1 }, p.closeFd fd, some error⟩
      | .ok () =>
        match do
            shareAddress platform reusePort answers
            answers.attempt (.bind port) "bind"
            answers.attempt (.listen backlog) "listen" with
        | .error error => ⟨server, p, some error⟩
        | .ok () => ⟨server, p, none⟩

def UdpSocket.bind (port : BitVec 16) (reusePort : Bool) (answers : Answers) (socket : UdpSocket)
    (p : Process K) : SetUp UdpSocket K :=
  let (socket, p) := socket.close B p
  match answers.socket with
  | .error errno => ⟨{ socket with fd := -1 }, p, some (.std (.systemError errno "socket"))⟩
  | .ok fd =>
    let socket := { socket with fd }
    let p := p.openFd fd
    match do
        setFlags platform answers
        shareAddress platform reusePort answers
        answers.attempt (.bind port) "bind" with
    | .error error => ⟨{ socket with fd := -1 }, p.closeFd fd, some error⟩
    | .ok () => ⟨socket, p, none⟩

/-! ## The steps of a set-up -/

def sigpipeCalls : List SysCall := if platform.soNosigpipe then [.setsockopt .SO_NOSIGPIPE] else []

def flagCalls : List SysCall :=
  if platform.sockFlags then []
  else [.fcntl .F_GETFL, .fcntl .F_SETFL, .fcntl .F_GETFD, .fcntl .F_SETFD]

def shareCalls (reusePort : Bool) : List SysCall :=
  .setsockopt .SO_REUSEADDR :: if reusePort then [.setsockopt .SO_REUSEPORT] else []

/-- SO_REUSEPORT is not asked for where it does not exist. -/
def Platform.supports (platform : Platform) (reusePort : Bool) : Bool :=
  !reusePort || platform.soReuseport

def TcpServer.completes (port : BitVec 16) (backlog : Int) (reusePort : Bool)
    (answers : Answers) : Bool :=
  answers.opens && platform.supports reusePort &&
    answers.succeed (sigpipeCalls platform ++ flagCalls platform ++ shareCalls reusePort ++
      [.bind port, .listen backlog])

def UdpSocket.completes (port : BitVec 16) (reusePort : Bool) (answers : Answers) : Bool :=
  answers.opens && platform.supports reusePort &&
    answers.succeed (flagCalls platform ++ shareCalls reusePort ++ [.bind port])

/-- A listen that has opened its descriptor fails in no step but in `set_non_blocking` or
`set_close_on_exec`. -/
def TcpServer.failsClean (port : BitVec 16) (backlog : Int) (reusePort : Bool)
    (answers : Answers) : Bool :=
  !answers.opens || answers.succeed (sigpipeCalls platform) &&
    (!answers.succeed (flagCalls platform) || platform.supports reusePort &&
      answers.succeed (shareCalls reusePort ++ [.bind port, .listen backlog]))

/-! ## What a set-up can do -/

variable {platform}

private theorem seq_eq_ok {first second : Except Exception Unit} :
    (do first; second) = .ok () ↔ first = .ok () ∧ second = .ok () := by
  cases first with
  | error error => simp [bind, Except.bind]
  | ok done => simp [bind, Except.bind]

theorem Answers.succeed_append (answers : Answers) (first second : List SysCall) :
    answers.succeed (first ++ second) = (answers.succeed first && answers.succeed second) :=
  List.all_append

private theorem attempt_eq_ok {answers : Answers} {call : SysCall} {what : String} :
    answers.attempt call what = .ok () ↔ (answers.call call).isNone = true := by
  unfold Answers.attempt
  cases answers.call call <;> simp

theorem disableSigpipe_eq_ok {answers : Answers} :
    disableSigpipe platform answers = .ok () ↔ answers.succeed (sigpipeCalls platform) = true := by
  unfold disableSigpipe sigpipeCalls
  split
  · simp [attempt_eq_ok, Answers.succeed]
  · simp [Answers.succeed]

theorem setFlags_eq_ok {answers : Answers} :
    setFlags platform answers = .ok () ↔ answers.succeed (flagCalls platform) = true := by
  unfold setFlags flagCalls
  split
  · simp [Answers.succeed]
  · simp [seq_eq_ok, setNonBlocking, setCloseOnExec, attempt_eq_ok, Answers.succeed]

theorem shareAddress_eq_ok {reusePort : Bool} {answers : Answers} :
    shareAddress platform reusePort answers = .ok () ↔
      platform.supports reusePort = true ∧ answers.succeed (shareCalls reusePort) = true := by
  unfold shareAddress shareCalls Platform.supports
  rw [seq_eq_ok, attempt_eq_ok]
  cases reusePort with
  | false => simp [Answers.succeed]
  | true => cases platform.soReuseport <;> simp [attempt_eq_ok, Answers.succeed]

/-- What a set-up does to a process in which the old descriptor is closed already. -/
inductive SetUp.Outcome (p : Process K) :
    (completes failsClean : Bool) → Fd → Process K → Option Exception → Prop where
  /-- no descriptor was opened -/
  | refused (error : Exception) : Outcome p false true (-1) p (some error)
  | undone {fd : Fd} (free : p.free fd = true) (error : Exception) :
      Outcome p false true (-1) ((p.openFd fd).closeFd fd) (some error)
  /-- the descriptor stays open and in the object -/
  | abandoned {fd : Fd} (free : p.free fd = true) (error : Exception) :
      Outcome p false false fd (p.openFd fd) (some error)
  | completed {fd : Fd} (free : p.free fd = true) : Outcome p true true fd (p.openFd fd) none

variable {B}

theorem TcpServer.loop_close (server : TcpServer) (p : Process K) :
    (server.close B p).1.loop = server.loop := by
  unfold TcpServer.close
  split <;> rfl

theorem UdpSocket.loop_close (socket : UdpSocket) (p : Process K) :
    (socket.close B p).1.loop = socket.loop := by
  unfold UdpSocket.close
  split <;> rfl

private theorem eq_false_of_error {attempted : Except Exception Unit} {succeeds : Bool}
    (ok_iff : attempted = .ok () ↔ succeeds = true) {error : Exception}
    (threw : attempted = .error error) : succeeds = false := by
  rw [threw] at ok_iff
  simpa using ok_iff

theorem TcpServer.listen_outcome (platform : Platform) (port : BitVec 16) (backlog : Int)
    (reusePort : Bool) {answers : Answers} {server : TcpServer} {p : Process K}
    (possible : answers.possible (server.close B p).2 = true) :
    let result := server.listen platform B port backlog reusePort answers p
    result.socket.loop = server.loop ∧
      SetUp.Outcome (server.close B p).2
        (TcpServer.completes platform port backlog reusePort answers)
        (TcpServer.failsClean platform port backlog reusePort answers)
        result.socket.fd result.process result.thrown := by
  have loop := TcpServer.loop_close (B := B) server p
  unfold TcpServer.listen TcpServer.completes TcpServer.failsClean
  simp only [Answers.succeed_append, Answers.opens, Answers.possible] at possible ⊢
  cases opened : answers.socket with
  | error errno => exact ⟨loop, .refused _⟩
  | ok fd =>
    simp only [opened] at possible
    cases sigpipe : disableSigpipe platform answers with
    | error error =>
      have failed := eq_false_of_error disableSigpipe_eq_ok sigpipe
      simp only [failed, Bool.false_and, Bool.and_false]
      exact ⟨loop, .abandoned possible _⟩
    | ok done =>
      have passed := disableSigpipe_eq_ok.mp sigpipe
      cases flags : setFlags platform answers with
      | error error =>
        have failed := eq_false_of_error setFlags_eq_ok flags
        simp only [passed, failed, Bool.false_and, Bool.and_false]
        exact ⟨loop, .undone possible _⟩
      | ok done =>
        have alsoPassed := setFlags_eq_ok.mp flags
        have rest_iff : (do
            shareAddress platform reusePort answers
            answers.attempt (.bind port) "bind"
            answers.attempt (.listen backlog) "listen") = .ok () ↔
            (platform.supports reusePort && (answers.succeed (shareCalls reusePort) &&
              answers.succeed [.bind port, .listen backlog])) = true := by
          simp [seq_eq_ok, shareAddress_eq_ok, attempt_eq_ok, Answers.succeed, and_assoc]
        simp only [passed, alsoPassed]
        split
        · rename_i error threw
          have failed := eq_false_of_error rest_iff threw
          simp only [Bool.true_and, Bool.not_true, Bool.false_or, failed]
          exact ⟨loop, .abandoned possible _⟩
        · rename_i returned
          have met := rest_iff.mp returned
          simp only [Bool.true_and, Bool.not_true, Bool.false_or, met]
          exact ⟨loop, .completed possible⟩

theorem UdpSocket.bind_outcome (platform : Platform) (port : BitVec 16) (reusePort : Bool)
    {answers : Answers} {socket : UdpSocket} {p : Process K}
    (possible : answers.possible (socket.close B p).2 = true) :
    let result := socket.bind platform B port reusePort answers p
    result.socket.loop = socket.loop ∧
      SetUp.Outcome (socket.close B p).2 (UdpSocket.completes platform port reusePort answers) true
        result.socket.fd result.process result.thrown := by
  have loop := UdpSocket.loop_close (B := B) socket p
  unfold UdpSocket.bind UdpSocket.completes
  simp only [Answers.succeed_append, Answers.opens, Answers.possible] at possible ⊢
  cases opened : answers.socket with
  | error errno => exact ⟨loop, .refused _⟩
  | ok fd =>
    simp only [opened] at possible
    have rest_iff : (do
        setFlags platform answers
        shareAddress platform reusePort answers
        answers.attempt (.bind port) "bind") = .ok () ↔
        (platform.supports reusePort && ((answers.succeed (flagCalls platform) &&
          answers.succeed (shareCalls reusePort)) && answers.succeed [.bind port])) = true := by
      simp only [seq_eq_ok, setFlags_eq_ok, shareAddress_eq_ok, attempt_eq_ok, Answers.succeed,
        List.all_cons, List.all_nil, Bool.and_eq_true]
      tauto
    dsimp only
    split
    · rename_i error threw
      have failed := eq_false_of_error rest_iff threw
      simp only [Bool.true_and, failed]
      exact ⟨loop, .undone possible _⟩
    · rename_i returned
      have met := rest_iff.mp returned
      simp only [Bool.true_and, met]
      exact ⟨loop, .completed possible⟩

end CoroEpoll
