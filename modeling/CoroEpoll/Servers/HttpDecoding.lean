import CoroEpoll.Servers.HttpEncoding

/-! Responses as a client reads them: by lines up to the blank one, and then as many bytes as
`Content-Length` says.
-/

set_option autoImplicit false

namespace CoroEpoll.Servers.Http

open Routines Text CoroEpoll.Task

def cutLine : Bytes → Option (Bytes × Bytes)
  | [] => none
  | byte :: rest =>
    if crlf <+: byte :: rest then some ([], rest.drop 1)
    else (cutLine rest).map fun parts => (byte :: parts.1, parts.2)

structure ClientResponse where
  status : Nat
  statusText : Bytes
  headers : List (Bytes × Bytes)
  body : Bytes
  deriving DecidableEq, Repr

def decodeHeaders : Nat → Bytes → Option (List (Bytes × Bytes) × Bytes)
  | 0, _ => none
  | fuel + 1, text => do
    let (line, rest) ← cutLine text
    if line = [] then return ([], rest)
    let (key, value) ← cut colon line
    let (headers, rest) ← decodeHeaders fuel rest
    return ((key, value.drop 1) :: headers, rest)

def contentLength (headers : List (Bytes × Bytes)) : Option Nat :=
  (headers.find? fun header => header.1.map toLower = ascii "content-length").map
    fun header => number header.2

def decodeResponse (text : Bytes) : Option (ClientResponse × Bytes) := do
  let (line, rest) ← cutLine text
  let (_, line) ← cut space line
  let (code, statusText) ← cut space line
  let (headers, rest) ← decodeHeaders rest.length rest
  let length ← contentLength headers
  if rest.length < length then none
  else return (⟨number code, statusText, headers, rest.take length⟩, rest.drop length)

def decodeResponses (text : Bytes) : Option (List ClientResponse) :=
  many decodeResponse text.length text

/-! ## Lines -/

theorem cutLine_line {line : Bytes} (oneLine : OneLine line) (rest : Bytes) :
    cutLine (line ++ (crlf ++ rest)) = some (line, rest) := by
  induction line with
  | nil => simp [cutLine, crlf, ascii]
  | cons byte line ih =>
    have later : OneLine line := fun ends => oneLine (ends.trans (List.suffix_cons byte line).isInfix)
    have goesOn : ¬ crlf <+: byte :: (line ++ (crlf ++ rest)) := by
      intro ends
      cases line with
      | nil => simp [crlf, ascii] at ends
      | cons next line =>
        refine oneLine ⟨[], line, ?_⟩
        simp [crlf, ascii] at ends
        simp [crlf, ascii, ends]
    rw [List.cons_append, cutLine, if_neg goesOn, ih later]
    rfl

theorem oneLine_of_not_mem {text : Bytes} (absent : 13 ∉ text) : OneLine text := by
  rintro ⟨before, after, rfl⟩
  simp [crlf, ascii] at absent

theorem not_mem_decimal {n : Nat} {byte : UInt8} (other : isDigit byte = false) :
    byte ∉ decimal n := by
  intro member
  rw [isDigit_decimal member] at other
  cases other

/-! ## Responses -/

/-- What a client reads of a response, `Content-Type` and `Connection` among the headers. -/
def HttpResponse.seen (response : HttpResponse) : ClientResponse where
  status := response.status
  statusText := response.statusText
  headers := [(ascii "Content-Type", response.contentType),
    (ascii "Content-Length", decimal response.body.length),
    (ascii "Connection", ascii "keep-alive")] ++ response.headers
  body := response.body

def CleanHeader (header : Bytes × Bytes) : Prop :=
  colon ∉ header.1 ∧ OneLine (header.1 ++ ascii ": " ++ header.2)

structure HttpResponse.Clean (response : HttpResponse) : Prop where
  status : OneLine (ascii "HTTP/1.1 " ++ decimal response.status ++ ascii " " ++ response.statusText)
  headers : ∀ header ∈ response.seen.headers, CleanHeader header

theorem headers_ne {header : Bytes × Bytes} : header.1 ++ ascii ": " ++ header.2 ≠ [] := by
  simp [ascii]

theorem decodeHeaders_lines {headers : List (Bytes × Bytes)}
    (clean : ∀ header ∈ headers, CleanHeader header) (rest : Bytes) {fuel : Nat}
    (enough : headers.length < fuel) :
    decodeHeaders fuel (headers.flatMap (fun header => headerLine header.1 header.2) ++
      (crlf ++ rest)) = some (headers, rest) := by
  induction headers generalizing fuel with
  | nil =>
    obtain ⟨fuel, rfl⟩ := Nat.exists_eq_add_of_le' (Nat.succ_le_of_lt enough)
    have blank : cutLine (crlf ++ rest) = some ([], rest) := cutLine_line (show OneLine [] by decide) rest
    simp [decodeHeaders, blank]
  | cons header headers ih =>
    obtain ⟨fuel, rfl⟩ := Nat.exists_eq_add_of_le' (Nat.succ_le_of_lt (Nat.zero_lt_of_lt enough))
    obtain ⟨key_clean, oneLine⟩ := clean header List.mem_cons_self
    have first := cutLine_line oneLine (headers.flatMap
      (fun header => headerLine header.1 header.2) ++ (crlf ++ rest))
    have parts : cut colon (header.1 ++ ascii ": " ++ header.2) = some (header.1, space :: header.2) := by
      rw [show header.1 ++ ascii ": " ++ header.2 = header.1 ++ colon :: (space :: header.2) by
        simp [ascii, colon, space]]
      exact cut_append key_clean _
    rw [List.flatMap_cons, headerLine, List.append_assoc, List.append_assoc, decodeHeaders, first]
    simp only [Option.bind_eq_bind, Option.bind_some, headers_ne, if_false, parts,
      ih (fun header member => clean header (List.mem_cons_of_mem _ member))
        (Nat.lt_of_succ_lt_succ enough)]
    rfl

theorem toString_lines (response : HttpResponse) : response.toString =
    ascii "HTTP/1.1 " ++ decimal response.status ++ ascii " " ++ response.statusText ++
      (crlf ++ (response.seen.headers.flatMap (fun header => headerLine header.1 header.2) ++
        (crlf ++ response.body))) := by
  have type : ascii "Content-Type: " = ascii "Content-Type" ++ ascii ": " := rfl
  have length : ascii "Content-Length: " = ascii "Content-Length" ++ ascii ": " := rfl
  have connection : ascii "Connection: keep-alive\r\n" =
      ascii "Connection" ++ ascii ": " ++ ascii "keep-alive" ++ crlf := rfl
  simp only [HttpResponse.toString, HttpResponse.seen, type, length, connection, headerLine,
    List.flatMap_append, List.flatMap_cons, List.flatMap_nil, List.append_assoc, List.append_nil]

/-- A client reads back what was written, and no byte of what follows. -/
theorem decodeResponse_toString {response : HttpResponse} (clean : response.Clean) (rest : Bytes) :
    decodeResponse (response.toString ++ rest) = some (response.seen, rest) := by
  have version : cut space (ascii "HTTP/1.1 " ++ decimal response.status ++ ascii " " ++
      response.statusText) = some (ascii "HTTP/1.1", decimal response.status ++ space ::
        response.statusText) := by
    rw [show ascii "HTTP/1.1 " ++ decimal response.status ++ ascii " " ++ response.statusText =
      ascii "HTTP/1.1" ++ space :: (decimal response.status ++ space :: response.statusText) by
        simp [ascii, space]]
    exact cut_append (by decide) _
  have code : cut space (decimal response.status ++ space :: response.statusText) =
      some (decimal response.status, response.statusText) :=
    cut_append (not_mem_decimal rfl) _
  have length : contentLength response.seen.headers = some response.body.length := by
    simp [contentLength, HttpResponse.seen, number_decimal,
      show (ascii "Content-Type").map toLower ≠ ascii "content-length" by decide,
      show (ascii "Content-Length").map toLower = ascii "content-length" by decide]
  have enough : response.seen.headers.length < (response.seen.headers.flatMap
      (fun header => headerLine header.1 header.2) ++ (crlf ++ (response.body ++ rest))).length := by
    have something : ∀ header : Bytes × Bytes, headerLine header.1 header.2 ≠ [] := by
      simp [headerLine, crlf, ascii]
    have some_each := length_le_flatMap something response.seen.headers
    have two : crlf.length = 2 := rfl
    simp only [List.length_append, two]
    omega
  rw [toString_lines, decodeResponse]
  simp only [List.append_assoc] at version enough ⊢
  rw [← List.append_assoc (ascii "HTTP/1.1 "), ← List.append_assoc (ascii "HTTP/1.1 " ++ _),
    ← List.append_assoc (ascii "HTTP/1.1 " ++ _ ++ _), cutLine_line clean.status]
  simp only [Option.bind_eq_bind, Option.bind_some, List.append_assoc, version, code,
    decodeHeaders_lines clean.headers _ enough, length]
  rw [if_neg (by simp), List.take_left', List.drop_left', number_decimal]
  · rfl
  · rfl
  · rfl

/-! ## The server's responses -/

theorem cleanHeader_of_plain {key value : Bytes} (name : colon ∉ key) (key_plain : 13 ∉ key)
    (plain : 13 ∉ value) : CleanHeader (key, value) := by
  refine ⟨name, oneLine_of_not_mem ?_⟩
  simp only [List.mem_append, not_or]
  exact ⟨⟨key_plain, by decide⟩, plain⟩

/-- The numbers end no line, and a response without further headers has little else. -/
theorem clean_of_plain {response : HttpResponse} (none_added : response.headers = [])
    (status : 13 ∉ response.statusText) (type : 13 ∉ response.contentType) : response.Clean := by
  refine ⟨oneLine_of_not_mem ?_, fun header member => ?_⟩
  · simp only [List.mem_append, not_or]
    exact ⟨⟨⟨by decide, not_mem_decimal rfl⟩, by decide⟩, status⟩
  rw [HttpResponse.seen, none_added, List.append_nil] at member
  rcases List.mem_cons.mp member with rfl | member
  · exact cleanHeader_of_plain (by decide) (by decide) type
  rcases List.mem_cons.mp member with rfl | member
  · exact cleanHeader_of_plain (by decide) (by decide) (not_mem_decimal rfl)
  · cases List.mem_singleton.mp member
    exact cleanHeader_of_plain (by decide) (by decide) (by decide)

theorem handleRoute_clean (files : Files) (request : HttpRequest) :
    (handleRoute files request).Clean := by
  unfold handleRoute
  split
  · exact clean_of_plain rfl (by decide) (by decide)
  repeat' split
  all_goals exact clean_of_plain rfl (by dsimp only; decide) (by dsimp only; decide)

theorem respond_ne (files : Files) (request : HttpRequest) : respond files request ≠ [] := by
  simp [respond, HttpResponse.toString, ascii]

/-- Whatever the static files hold, a client that reads the responses to its requests by their
lines and lengths gets each of them back, in order. -/
theorem responses_decoded (files : Files) (requests : List HttpRequest) :
    decodeResponses (requests.flatMap (respond files)) =
      some (requests.map fun request => (handleRoute files request).seen) :=
  many_flatMap (fun request rest => decodeResponse_toString (handleRoute_clean files request) rest)
    (respond_ne files) requests (length_le_flatMap (respond_ne files) requests)

end CoroEpoll.Servers.Http
