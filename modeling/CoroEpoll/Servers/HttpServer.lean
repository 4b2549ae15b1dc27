import CoroEpoll.Servers.HttpMessages
import CoroEpoll.Servers.Sockets

/-! The coroutines of the HTTP server. -/

set_option autoImplicit false

namespace CoroEpoll.Servers.Http

open Routines Text

inductive Fn where
  | asyncRead | asyncWrite | asyncAcceptFd
  | readLine | parseRequest | handleClient | acceptAndHandle
  deriving DecidableEq

structure Own where
  line : Bytes
  /-- the line that is parsed -/
  text : Bytes
  request : HttpRequest

inductive Result where
  | line (text : Bytes)
  | request (request : HttpRequest)

abbrev app : App := ⟨Fn, Own, Result, Empty⟩

def readLine : Stmt (net app) :=
  .seq (.assign fun s => { s with own := { s.own with line := [] } }) <|
  .loop (fun _ => true) <|
    .seq (.call .asyncRead (fun s => { s with size := 1 }) fun value s =>
      match value with
      | some (.bytes ch) => { s with buffer := ch }
      | _ => s) <|
    .branch (fun s => s.buffer = []) (.ret fun s => .own (.line s.own.line)) <|
    .seq (.assign fun s => { s with own := { s.own with line := s.own.line ++ s.buffer } }) <|
    .branch (fun s => endsLine s.own.line) (.ret fun s => .own (.line (stripLine s.own.line))) .skip

/-- `const std::string ... = co_await read_line(socket)` -/
def nextLine : Stmt (net app) :=
  .call .readLine id fun value s =>
    match value with
    | some (.own (.line text)) => { s with own := { s.own with text } }
    | _ => s

def parseRequest : Stmt (net app) :=
  .seq (.assign fun s => { s with own := { s.own with request := .empty } }) <|
  .seq nextLine <|
  .branch (fun s => s.own.text = []) (.ret fun s => .own (.request s.own.request)) <|
  .seq (.branch (fun s => (parseRequestLine s.own.text).isOk)
    (.assign fun s =>
      match parseRequestLine s.own.text with
      | .ok request => { s with own := { s.own with request } }
      | .error _ => s)
    (.throw fun s =>
      match parseRequestLine s.own.text with
      | .ok _ => .foreign 0
      | .error error => error)) <|
  .loop (fun _ => true) <|
    .seq nextLine <|
    -- the end of the headers; nothing but the return follows the loop
    .branch (fun s => s.own.text = []) (.ret fun s => .own (.request s.own.request)) <|
    .assign fun s => { s with own := { s.own with request := s.own.request.addHeader s.own.text } }

def handleClient (files : Files) : Stmt (net app) :=
  .attempt
    (.loop (fun _ => true) <|
      .seq (.call .parseRequest id fun value s =>
        match value with
        | some (.own (.request request)) => { s with own := { s.own with request } }
        | _ => s) <|
      -- nothing follows the loop
      .branch (fun s => s.own.request.method = []) (.ret fun _ => .count 0) <|
      .seq (.assign fun s => { s with buffer := respond files s.own.request }) <|
      .call .asyncWrite id fun _ s => s)
    catches .skip

def code (files : Files) : Fn → Routine (net app)
  | .asyncRead => .value asyncRead fun _ => .bytes []
  | .asyncWrite => .value asyncWrite fun _ => .count 0
  | .asyncAcceptFd => .value asyncAcceptFd fun _ => .descriptor (-1)
  | .readLine => .value readLine fun _ => .own (.line [])
  | .parseRequest => .value parseRequest fun _ => .own (.request .empty)
  | .handleClient => .void (handleClient files)
  | .acceptAndHandle => .void (acceptAndHandle .asyncAcceptFd)

/-! ## What a session is for -/

/-- A connection as a function of what arrives on it. -/
structure Session where
  /-- the bytes of a line that has not ended -/
  line : Bytes
  /-- the request whose headers are being read -/
  request : Option HttpRequest
  /-- the responses to the requests that are complete -/
  output : Bytes
  closed : Bool

namespace Session

def start : Session := ⟨[], none, [], false⟩

def takeLine (files : Files) (text : Bytes) (s : Session) : Session :=
  match s.request with
  | none =>
    if text = [] then { s with line := [], closed := true }
    else
      match parseRequestLine text with
      | .ok request => { s with line := [], request := some request }
      | .error _ => { s with line := [], closed := true }
  | some request =>
    if text ≠ [] then { s with line := [], request := some (request.addHeader text) }
    else if request.method = [] then { s with line := [], request := none, closed := true }
    else { s with line := [], request := none, output := s.output ++ respond files request }

/-- The next byte arrives, or the end of the stream, which ends a line too. -/
def feed (files : Files) (s : Session) (arrival : Bytes) : Session :=
  if s.closed then s
  else if arrival = [] then s.takeLine files s.line
  else if endsLine (s.line ++ arrival) then s.takeLine files (stripLine (s.line ++ arrival))
  else { s with line := s.line ++ arrival }

end Session

def serve (files : Files) (arrivals : List Bytes) : Session :=
  arrivals.foldl (Session.feed files) .start

end CoroEpoll.Servers.Http
