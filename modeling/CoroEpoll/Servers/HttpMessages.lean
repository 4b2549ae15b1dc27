import CoroEpoll.Library.Text
import CoroEpoll.System.Interface

/-! The requests and responses of the HTTP server, and how it answers a request. -/

set_option autoImplicit false

namespace CoroEpoll.Servers.Http

open Text

def crlf : Bytes := ascii "\r\n"

structure HttpRequest where
  method : Bytes
  path : Bytes
  version : Bytes
  headers : Bytes → Option Bytes

def HttpRequest.empty : HttpRequest := ⟨[], [], [], fun _ => none⟩

structure HttpResponse where
  status : Nat
  statusText : Bytes
  contentType : Bytes
  body : Bytes
  /-- further headers, in the order in which the map is iterated -/
  headers : List (Bytes × Bytes)
  deriving DecidableEq, Repr

def HttpResponse.new : HttpResponse := ⟨200, ascii "OK", ascii "text/plain", [], []⟩

/-- `key: value` and the end of the line. -/
def headerLine (key value : Bytes) : Bytes := key ++ ascii ": " ++ value ++ crlf

def HttpResponse.toString (response : HttpResponse) : Bytes :=
  ascii "HTTP/1.1 " ++ decimal response.status ++ ascii " " ++ response.statusText ++ crlf ++
  ascii "Content-Type: " ++ response.contentType ++ crlf ++
  ascii "Content-Length: " ++ decimal response.body.length ++ crlf ++
  ascii "Connection: keep-alive\r\n" ++
  response.headers.flatMap (fun header => headerLine header.1 header.2) ++
  crlf ++ response.body

/-! ## Reading a request -/

def endsLine (line : Bytes) : Bool := crlf.isSuffixOf line

/-- `line.resize(line.size() - 2)` -/
def stripLine (line : Bytes) : Bytes := line.take (line.length - 2)

def space : UInt8 := 32
def colon : UInt8 := 58

/-- METHOD SP PATH SP VERSION -/
def parseRequestLine (line : Bytes) : Except Exception HttpRequest :=
  match cut space line with
  | none => .error (.std (.runtimeError "malformed request line"))
  | some (method, rest) =>
    match cut space rest with
    | none => .ok { HttpRequest.empty with method, path := rest, version := ascii "HTTP/1.0" }
    | some (path, version) => .ok { HttpRequest.empty with method, path, version }

/-- `::tolower` in the C locale. -/
def toLower (byte : UInt8) : UInt8 := if 65 ≤ byte ∧ byte ≤ 90 then byte + 32 else byte

def isBlank (byte : UInt8) : Bool := byte = 32 || byte = 9

/-- Leading blanks go, unless there is nothing else. -/
def trim (value : Bytes) : Bytes :=
  match value.dropWhile isBlank with
  | [] => value
  | start :: rest => start :: rest

def HttpRequest.addHeader (line : Bytes) (request : HttpRequest) : HttpRequest :=
  match cut colon line with
  | none => request
  | some (key, value) =>
    { request with
      headers := Function.update request.headers (key.map toLower) (some (trim value)) }

/-! ## Answering it -/

/-- What `load_static_files` has read. -/
structure Files where
  indexHtml : Bytes
  statusJson : Bytes

def handleRoute (files : Files) (request : HttpRequest) : HttpResponse :=
  if request.method ≠ ascii "GET" then
    { HttpResponse.new with
      status := 405
      statusText := ascii "Method Not Allowed"
      contentType := ascii "text/plain"
      body := ascii "405 Method Not Allowed\n" }
  else if request.path = ascii "/" then
    { HttpResponse.new with
      status := 200
      statusText := ascii "OK"
      contentType := ascii "text/html; charset=utf-8"
      body := files.indexHtml }
  else if request.path = ascii "/hello" then
    { HttpResponse.new with
      status := 200
      statusText := ascii "OK"
      contentType := ascii "text/plain; charset=utf-8"
      body := ascii "Hello, World!\n" }
  else if request.path = ascii "/json" then
    { HttpResponse.new with
      status := 200
      statusText := ascii "OK"
      contentType := ascii "application/json"
      body := files.statusJson }
  else
    { HttpResponse.new with
      status := 404
      statusText := ascii "Not Found"
      contentType := ascii "text/plain; charset=utf-8"
      body := ascii "404 Not Found\n" }

def respond (files : Files) (request : HttpRequest) : Bytes :=
  (handleRoute files request).toString

end CoroEpoll.Servers.Http
