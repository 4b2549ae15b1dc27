import CoroEpoll.Servers.HttpRuns

/-! Requests as a client writes them, one behind the other, and what the server makes of them. -/

set_option autoImplicit false

namespace CoroEpoll.Servers.Http

open Routines Text CoroEpoll.Task

def OneLine (text : Bytes) : Prop := ¬ crlf <:+: text

instance (text : Bytes) : Decidable (OneLine text) := inferInstanceAs (Decidable (¬ _))

structure ClientHeader where
  key : Bytes
  value : Bytes
  key_clean : colon ∉ key
  oneLine : OneLine (key ++ ascii ": " ++ value)

def ClientHeader.line (header : ClientHeader) : Bytes := header.key ++ ascii ": " ++ header.value

theorem ClientHeader.oneLine_line (header : ClientHeader) : OneLine header.line := header.oneLine

/-- The words of a request line, of which the last may be missing. -/
def requestLine (method path : Bytes) (version : Option Bytes) : Bytes :=
  method ++ space :: (path ++ (version.map fun text => space :: text).getD [])

structure ClientRequest where
  method : Bytes
  path : Bytes
  version : Option Bytes
  headers : List ClientHeader
  method_ne : method ≠ []
  method_clean : space ∉ method
  path_clean : space ∉ path
  oneLine : OneLine (requestLine method path version)

namespace ClientRequest

def line (r : ClientRequest) : Bytes := requestLine r.method r.path r.version

theorem oneLine_line (r : ClientRequest) : OneLine r.line := r.oneLine

def lines (r : ClientRequest) : List Bytes := r.line :: (r.headers.map ClientHeader.line ++ [[]])

def text (r : ClientRequest) : Bytes := r.lines.flatMap (· ++ crlf)

/-- The last line is blank, so that those before any line are headers. -/
theorem headers_before (r : ClientRequest) {before after : List Bytes} {next : Bytes}
    (lines : r.headers.map ClientHeader.line ++ [[]] = before ++ next :: after) :
    ∃ known : List ClientHeader, before = known.map ClientHeader.line ∧ OneLine next := by
  rcases List.append_eq_append_iff.mp lines with ⟨more, rfl, last⟩ | ⟨others, split, last⟩
  · obtain ⟨rfl, same⟩ | ⟨_, nothing⟩ := List.singleton_eq_append_iff.mp last
    · cases same
      exact ⟨r.headers, List.append_nil _, by decide⟩
    · cases nothing
  · obtain ⟨known, rest, _, rfl, rfl⟩ := List.map_eq_append_iff.mp split
    refine ⟨known, rfl, ?_⟩
    cases rest with
    | nil =>
      cases last
      decide
    | cons header rest =>
      cases last
      exact header.oneLine_line

def header (r : ClientRequest) (name : Bytes) : Option Bytes :=
  (r.headers.reverse.find? fun header => header.key.map toLower = name).map
    fun header => trim (space :: header.value)

/-- What the server reads: names in lower case, and values without leading blanks. -/
def request (r : ClientRequest) : HttpRequest where
  method := r.method
  path := r.path
  version := r.version.getD (ascii "HTTP/1.0")
  headers := r.header

end ClientRequest

/-! ## Lines that arrive byte by byte -/

def byBytes (bytes : Bytes) : List Bytes := bytes.map fun byte => [byte]

theorem not_endsLine {line text : Bytes} (oneLine : OneLine line)
    (begins : text <+: line ++ [13]) : endsLine text = false := by
  refine Bool.eq_false_iff.mpr fun ends => ?_
  have ends : crlf <:+ text := List.isSuffixOf_iff_suffix.mp ends
  rcases List.prefix_concat_iff.mp begins with rfl | begins
  · obtain ⟨before, same⟩ := ends
    have last := congrArg List.getLast? same
    simp [crlf, ascii] at last
  · exact oneLine (ends.isInfix.trans begins.isInfix)

namespace Session

variable {files : Files}

def feedBytes (files : Files) (bytes : Bytes) (se : Session) : Session :=
  (byBytes bytes).foldl (feed files) se

@[simp] theorem feedBytes_nil (se : Session) : feedBytes files [] se = se := rfl

theorem feedBytes_append (first rest : Bytes) (se : Session) :
    feedBytes files (first ++ rest) se = feedBytes files rest (feedBytes files first se) := by
  simp [feedBytes, byBytes]

theorem feed_part {line : Bytes} (oneLine : OneLine line) (se : Session) (going : se.closed = false)
    (part : Bytes) (begins : se.line ++ part <+: line ++ [13]) :
    feedBytes files part se = { se with line := se.line ++ part } := by
  induction part generalizing se with
  | nil => simp
  | cons byte part ih =>
    have whole : se.line ++ [byte] ++ part = se.line ++ byte :: part := by simp
    have kept : se.feed files [byte] = { se with line := se.line ++ [byte] } := by
      have unended := not_endsLine oneLine
        ((List.prefix_append (se.line ++ [byte]) part).trans (whole ▸ begins))
      simp [feed, going, unended]
    have step : feedBytes files (byte :: part) se = feedBytes files part (se.feed files [byte]) := rfl
    rw [step, kept, ih { se with line := se.line ++ [byte] } going (whole ▸ begins), whole]

theorem feed_line {line : Bytes} (oneLine : OneLine line) {se : Session} (starts : se.line = [])
    (going : se.closed = false) : feedBytes files (line ++ crlf) se = se.takeLine files line := by
  obtain ⟨_, _, _, _⟩ := se
  cases starts
  cases going
  have parts : line ++ crlf = (line ++ [13]) ++ [10] := by simp [crlf, ascii]
  rw [parts, feedBytes_append, feed_part oneLine _ rfl (line ++ [13]) List.prefix_rfl]
  have ends : endsLine (line ++ [13] ++ [10]) = true :=
    List.isSuffixOf_iff_suffix.mpr ⟨line, parts⟩
  have text : stripLine (line ++ [13] ++ [10]) = line := by simp [stripLine]
  rw [List.nil_append, feedBytes, byBytes, List.map_singleton, List.foldl_cons, List.foldl_nil, feed]
  simp only [Bool.false_eq_true, if_false, List.cons_ne_nil, ends, if_true, text]
  rfl

end Session

/-! ## What the lines say -/

theorem parseRequestLine_line (r : ClientRequest) : parseRequestLine r.line =
    .ok { method := r.method, path := r.path, version := r.version.getD (ascii "HTTP/1.0"),
          headers := fun _ => none } := by
  rw [parseRequestLine, ClientRequest.line, requestLine, cut_append r.method_clean]
  cases version : r.version with
  | none =>
    have none : cut space r.path = none := cut_eq_none.mpr r.path_clean
    simp [none, HttpRequest.empty]
  | some text =>
    simp [cut_append r.path_clean, HttpRequest.empty]

theorem addHeader_line (header : ClientHeader) (request : HttpRequest) :
    request.addHeader header.line = { request with
      headers := Function.update request.headers (header.key.map toLower)
        (some (trim (space :: header.value))) } := by
  have parts : header.line = header.key ++ colon :: (space :: header.value) := by
    simp [ClientHeader.line, ascii, colon, space]
  rw [HttpRequest.addHeader, parts, cut_append header.key_clean]

/-- The headers that are read are those that were written, the last of a name first. -/
theorem addHeaders_lines (headers : List ClientHeader) (request : HttpRequest) :
    (headers.map ClientHeader.line).foldl (fun request line => request.addHeader line) request =
      { request with
        headers := fun name =>
          ((headers.reverse.find? fun header => header.key.map toLower = name).map
            fun header => trim (space :: header.value)).or (request.headers name) } := by
  induction headers generalizing request with
  | nil => simp
  | cons header headers ih =>
    rw [List.map_cons, List.foldl_cons, ih, addHeader_line]
    congr 1
    funext name
    simp only [List.reverse_cons, List.find?_append, List.find?_singleton]
    cases later : headers.reverse.find? fun header => header.key.map toLower = name with
    | some found => simp
    | none =>
      by_cases same : header.key.map toLower = name
      · simp [same]
      · simp [same, Function.update_of_ne (Ne.symm same)]

/-! ## Requests, one behind the other -/

/-- A part of what comes in pieces consists of whole pieces and a part of the next. -/
theorem prefix_flatMap {α : Type} {pieces : α → Bytes} {all : List α} {part : Bytes}
    (begins : part <+: all.flatMap pieces) : part = all.flatMap pieces ∨
      ∃ before next after rest, all = before ++ next :: after ∧
        part = before.flatMap pieces ++ rest ∧ rest <+: pieces next ∧ rest ≠ pieces next := by
  induction all generalizing part with
  | nil => exact .inl (List.prefix_nil.mp begins)
  | cons first all ih =>
    rw [List.flatMap_cons] at begins
    rcases List.prefix_or_prefix_of_prefix begins (List.prefix_append (pieces first) _) with
      short | ⟨rest, rfl⟩
    · by_cases same : part = pieces first
      · rcases ih (List.nil_prefix) with whole | ⟨before, next, after, rest, parts, nothing, inner⟩
        · exact .inl (by rw [List.flatMap_cons, ← whole, List.append_nil, same])
        · refine .inr ⟨first :: before, next, after, rest, by rw [parts]; rfl, ?_, inner⟩
          rw [List.flatMap_cons, List.append_assoc, ← nothing, List.append_nil, same]
      · exact .inr ⟨[], first, all, part, rfl, rfl, short, same⟩
    · rcases ih ((List.prefix_append_right_inj _).mp begins) with
        whole | ⟨before, next, after, last, parts, same, inner⟩
      · exact .inl (by rw [List.flatMap_cons, whole])
      · refine .inr ⟨first :: before, next, after, last, by rw [parts]; rfl, ?_, inner⟩
        rw [List.flatMap_cons, List.append_assoc, same]

namespace Session

variable {files : Files}

structure Ready (se : Session) : Prop where
  line : se.line = []
  request : se.request = none
  going : se.closed = false

theorem feed_requestLine (r : ClientRequest) (output : Bytes) :
    feedBytes files (r.line ++ crlf) ⟨[], none, output, false⟩ =
      ⟨[], some { method := r.method, path := r.path, version := r.version.getD (ascii "HTTP/1.0"),
                  headers := fun _ => none }, output, false⟩ := by
  have something : r.line ≠ [] := by simp [ClientRequest.line, requestLine]
  rw [feed_line r.oneLine_line rfl rfl]
  simp only [takeLine, something, if_false, parseRequestLine_line]

theorem feed_headers (headers : List ClientHeader) (request : HttpRequest) (output : Bytes) :
    feedBytes files ((headers.map ClientHeader.line).flatMap (· ++ crlf))
      ⟨[], some request, output, false⟩ =
      ⟨[], some ((headers.map ClientHeader.line).foldl
        (fun request line => request.addHeader line) request), output, false⟩ := by
  induction headers generalizing request with
  | nil => rfl
  | cons header headers ih =>
    have something : header.line ≠ [] := by simp [ClientHeader.line, ascii]
    rw [List.map_cons, List.flatMap_cons, feedBytes_append,
      feed_line header.oneLine_line rfl rfl, takeLine]
    simp only [ne_eq, something, not_false_eq_true, if_true]
    exact ih _

/-- One request is answered when its blank line has come. -/
theorem feed_request (r : ClientRequest) {se : Session} (ready : se.Ready) :
    feedBytes files r.text se = { se with output := se.output ++ respond files r.request } := by
  obtain ⟨line, request, output, closed⟩ := se
  obtain ⟨rfl, rfl, rfl⟩ := ready
  have headers : (r.headers.map ClientHeader.line).foldl (fun request line => request.addHeader line)
      { method := r.method, path := r.path, version := r.version.getD (ascii "HTTP/1.0"),
        headers := fun _ => none } = r.request := by
    rw [addHeaders_lines]
    simp only [Option.or_none]
    rfl
  rw [ClientRequest.text, ClientRequest.lines, List.flatMap_cons, List.flatMap_append,
    feedBytes_append, feedBytes_append, feed_requestLine, feed_headers, headers,
    List.flatMap_singleton, feed_line (by decide) rfl rfl]
  simp only [takeLine, ne_eq, not_true_eq_false, if_false, ClientRequest.request, r.method_ne]

theorem feed_incomplete (r : ClientRequest) {part : Bytes} (begins : part <+: r.text)
    (incomplete : part ≠ r.text) {se : Session} (ready : se.Ready) :
    (feedBytes files part se).output = se.output := by
  obtain ⟨line, request, output, closed⟩ := se
  obtain ⟨rfl, rfl, rfl⟩ := ready
  obtain whole | ⟨before, next, after, rest, lines, rfl, inside, unended⟩ := prefix_flatMap begins
  · exact absurd whole incomplete
  have unended : rest <+: next ++ [13] := by
    have parts : next ++ crlf = (next ++ [13]) ++ [10] := by simp [crlf, ascii]
    rw [parts] at inside unended
    exact (List.prefix_concat_iff.mp inside).resolve_left unended
  cases before with
  | nil =>
    obtain ⟨rfl, rfl⟩ := List.cons.inj lines
    rw [List.flatMap_nil, List.nil_append,
      feed_part r.oneLine_line ⟨[], none, output, false⟩ rfl rest unended]
  | cons first headers =>
    obtain ⟨rfl, others⟩ := List.cons.inj lines
    obtain ⟨known, rfl, oneLine⟩ := r.headers_before others
    rw [List.flatMap_cons, List.append_assoc, feedBytes_append, feedBytes_append, feed_requestLine,
      feed_headers, feed_part oneLine ⟨[], some _, output, false⟩ rfl rest unended]

theorem feed_requests (requests : List ClientRequest) (se : Session) (ready : se.Ready) :
    feedBytes files (requests.flatMap ClientRequest.text) se =
      { se with output := se.output ++ requests.flatMap fun r => respond files r.request } := by
  induction requests generalizing se with
  | nil => simp
  | cons r requests ih =>
    rw [List.flatMap_cons, feedBytes_append, feed_request r ready,
      ih { se with output := se.output ++ respond files r.request }
        ⟨ready.line, ready.request, ready.going⟩]
    simp

theorem feed_stream (requests : List ClientRequest) (r : ClientRequest) {part : Bytes}
    (begins : part <+: r.text) (incomplete : part ≠ r.text) :
    (serve files (byBytes (requests.flatMap ClientRequest.text ++ part))).output =
      requests.flatMap fun r => respond files r.request := by
  show (feedBytes files _ .start).output = _
  rw [feedBytes_append, feed_requests requests _ ⟨rfl, rfl, rfl⟩,
    feed_incomplete r begins incomplete ⟨rfl, rfl, rfl⟩]
  rfl

end Session

/-! ## On the machine -/

/-- What has come is some requests and a part of another one, and the responses to those
requests have been sent. -/
def Answered (files : Files) (socket : SocketId) (w : Wire Unit) : Prop :=
  ∀ (requests : List ClientRequest) (next : ClientRequest) (part : Bytes),
    part <+: next.text → part ≠ next.text →
    w.arrived socket = byBytes (requests.flatMap ClientRequest.text ++ part) →
    w.sent socket = requests.flatMap fun r => respond files r.request

/-- Whenever a connection waits for its client, exactly the requests that are complete have
been answered. -/
theorem requests_answered {files : Files} {s : World (net app)}
    (reached : (machine (code files)).Reachable s) {task : Spawned (net app)}
    (member : task ∈ s.tasks) (client : task.fn = .handleClient) {question : Ask Empty}
    (waits : s.HasStatus (code files) task.handle (.blocked question))
    (listening : question.listens = true) :
    ∃ dialogue : Dialogue (net app), Held (code files) s task (.blocked question) dialogue ∧
      (outside.observer.Expects (.boot ()) dialogue →
        Answered files task.env.socket (wireOf dialogue)) := by
  obtain ⟨dialogue, held, fit⟩ := client_progresses reached member client waits
  refine ⟨dialogue, held, fun expected requests next part begins incomplete came => ?_⟩
  have answered := ((fit expected).answered listening).1
  rw [session, came, Session.feed_stream requests next begins incomplete] at answered
  exact answered

theorem requests_answered_once : ∃ s task,
    (machine (code someFiles)).exec (.boot (net app)) onceRun = some s ∧ task ∈ s.tasks ∧
      ∃ dialogue, Held (code someFiles) s task (.blocked (.recv 7 1)) dialogue ∧
        (outside.observer.Expects (.boot ()) dialogue →
          Answered someFiles task.env.socket (wireOf dialogue)) := by
  obtain ⟨s, task, replay, reached, member, client, waits⟩ := waits_of_run onceRun_waits
  exact ⟨s, task, replay, member, requests_answered reached member client waits rfl⟩

end CoroEpoll.Servers.Http
