import CoroEpoll.Servers.Sockets

/-! The coroutines of the two TCP echo servers, which differ in how they read and accept. -/

set_option autoImplicit false

namespace CoroEpoll.Servers.Echo

open Routines Text

inductive Fn where
  | asyncRead | asyncReadEt | asyncWrite | asyncAcceptFd | asyncAcceptEt
  | handleClient | acceptAndHandle
  deriving DecidableEq

inductive Question where
  /-- `co_await business_pool.submit(loop, ...)` of `process_payload(input)` -/
  | submit (input : Bytes)
  deriving DecidableEq

abbrev app : App := ⟨Fn, Unit, Empty, Question⟩

def processPayload (input : Bytes) : Bytes := input

def submitAndWrite : Stmt (net app) :=
  .seq (demand fun s => .own (.submit s.buffer)) <|
  .seq (.assign fun s => match s.answer with
    | .bytes output => { s with buffer := output }
    | _ => s) <|
  .call .asyncWrite id fun _ s => s

def handleClient (read : Fn) : Stmt (net app) :=
  .attempt
    (.loop (fun _ => true) <|
      .seq (.call read (fun s => { s with size := 4096 }) fun value s =>
        match value with
        | some (.bytes input) => { s with buffer := input }
        | _ => s) <|
      -- nothing follows the loop
      .branch (fun s => s.buffer = []) (.ret fun _ => .count 0) submitAndWrite)
    catches .skip

def shared : Fn → Routine (net app) → Routine (net app) → Routine (net app)
  | .asyncRead, _, _ => .value asyncRead fun _ => .bytes []
  | .asyncReadEt, _, _ => .value asyncReadEt fun _ => .bytes []
  | .asyncWrite, _, _ => .value asyncWrite fun _ => .count 0
  | .asyncAcceptFd, _, _ => .value asyncAcceptFd fun _ => .descriptor (-1)
  | .asyncAcceptEt, _, _ => .value asyncAcceptEt fun _ => .descriptors []
  | .handleClient, client, _ => client
  | .acceptAndHandle, _, server => server

/-- `tcp-echo-server` -/
def code (fn : Fn) : Routine (net app) :=
  shared fn (.void (handleClient .asyncRead)) (.void (acceptAndHandle .asyncAcceptFd))

/-- `tcp-echo-server-et` -/
def codeEt (fn : Fn) : Routine (net app) :=
  shared fn (.void (handleClient .asyncReadEt)) (.void (acceptAndHandleEt .asyncAcceptEt))

def outside : Outside app Unit where
  note own _ _ := own
  expects
    | _, .submit input, answer =>
      match answer with
      | .bytes output => output = processPayload input
      | .threw error => error.isStd = true
      | _ => False
  breaks _ := Answer.fails

end CoroEpoll.Servers.Echo
