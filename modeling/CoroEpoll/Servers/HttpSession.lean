import CoroEpoll.Servers.HttpServer
import CoroEpoll.Task.Dialogues

/-! A client of the HTTP server is sent the responses to its own requests, in order. -/

set_option autoImplicit false

namespace CoroEpoll.Servers.Http

open Routines Text

def outside : Outside app Unit where
  note own _ _ := own
  expects _ question := nomatch question
  breaks question := nomatch question

section
variable (files : Files) (socket : SocketId)

def session (w : Wire Unit) : Session := serve files (w.arrived socket)

/-- No byte but of a response is sent, and nothing is owed when more is awaited. -/
structure Fit (question : Ask Empty) (w : Wire Unit) : Prop where
  sent : w.sent socket <+: (session files socket w).output
  answered : question.listens = true → w.sent socket = (session files socket w).output ∧
    (session files socket w).closed = false

/-- The client was answered in full, unless something broke. -/
structure Served (w : Wire Unit) : Prop where
  sent : w.sent socket <+: (session files socket w).output
  whole : w.broken = false → (session files socket w).closed = true ∧
    w.sent socket = (session files socket w).output

structure Going (se : Session) (w : Wire Unit) : Prop where
  session : session files socket w = se
  line : se.line = []
  going : se.closed = false
  answered : w.sent socket = se.output

end

variable {files : Files} {socket : SocketId}

theorem session_receive (files : Files) (socket : SocketId) (data : Bytes) (w : Wire Unit) :
    session files socket (w.receive socket data) = (session files socket w).feed files data := by
  simp [session, serve, Wire.receive, Wire.receiveAll, List.foldl_append]

variable {s : Locals Own} {w : Wire Unit} {post : Flow (net app) → Wire Unit → Prop}

/-- `read_line` reads one line of the session, or throws in the middle of one. -/
theorem readLine_meets {se : Session} (here : s.socket = socket) (starts : Going files socket se w)
    (returns : ∀ text w', session files socket w' = se.takeLine files text →
      w'.sent socket = se.output → w'.broken = w.broken → post (.returned (.own (.line text))) w')
    (throws : ∀ error env w', error.isStd = true → w'.broken = true → w'.sent socket = se.output →
      (session files socket w').output = se.output → post (.threw error env) w') :
    Meets (code files) outside.observer (Fit files socket) readLine s w post := by
  refine Meets.seq (Meets.assign ?_)
  refine Meets.forever (fun env g => env.socket = socket ∧ g.broken = w.broken ∧
    g.sent socket = se.output ∧ session files socket g = { se with line := env.own.line })
    ⟨here, rfl, starts.answered, ?_⟩ ?_
  · rw [starts.session]
    exact congrArg (Session.mk · _ _ _) starts.line
  rintro env g ⟨here, broken, answered, at_line⟩
  have output : (session files socket g).output = se.output := by rw [at_line]
  have open_ : (session files socket g).closed = false := by rw [at_line]; exact starts.going
  have fit : ∀ question, Fit files socket question g := fun question =>
    ⟨answered.trans output.symm ▸ List.prefix_rfl, fun _ => ⟨answered.trans output.symm, open_⟩⟩
  refine Meets.seq (Meets.call (asyncRead_meets (fit _) (fit _) (fit _) ?_ ?_))
  · intro data fits
    rw [here]
    have fed := session_receive files socket data g
    rw [at_line] at fed
    refine Meets.branch (fun nothing => Meets.ret ?_) fun something => ?_
    · -- the end of the stream ends the line
      have nothing : data = [] := of_decide_eq_true nothing
      subst nothing
      refine returns env.own.line _ ?_ answered broken
      rw [fed, Session.feed, if_neg (by simp [starts.going]), if_pos rfl]
      rfl
    · have something : data ≠ [] := of_decide_eq_false something
      refine Meets.seq (Meets.assign (Meets.branch (fun ends => Meets.ret ?_) fun goesOn => ?_))
      · refine returns _ _ ?_ answered broken
        rw [fed, Session.feed, if_neg (by simp [starts.going]), if_neg something]
        exact if_pos ends
      · refine Meets.skip ⟨here, broken, answered, ?_⟩
        rw [fed, Session.feed, if_neg (by simp [starts.going]), if_neg something]
        exact if_neg (Bool.eq_false_iff.mp goesOn)
  · intro error env' std
    exact throws error _ _ std rfl answered output

theorem nextLine_meets {se : Session} (here : s.socket = socket) (starts : Going files socket se w)
    (returns : ∀ text w', session files socket w' = se.takeLine files text →
      w'.sent socket = se.output → w'.broken = w.broken →
      post (.normal { s with own := { s.own with text } }) w')
    (throws : ∀ error env w', error.isStd = true → w'.broken = true → w'.sent socket = se.output →
      (session files socket w').output = se.output → post (.threw error env) w') :
    Meets (code files) outside.observer (Fit files socket) nextLine s w post := by
  refine Meets.call (readLine_meets here starts ?_ ?_)
  · exact fun text w' at_line answered broken => returns text w' at_line answered broken
  · exact fun error env w' std broken answered output => throws error _ w' std broken answered output

def Session.after (files : Files) (request : HttpRequest) (se : Session) : Session :=
  if request.method = [] then { se with closed := true }
  else { se with output := se.output ++ respond files request }

theorem takeLine_blank {se : Session} (line : se.line = []) (between : se.request = none)
    (request : HttpRequest) :
    Session.takeLine files [] { se with line := [], request := some request } =
      se.after files request := by
  obtain ⟨_, _, output, closed⟩ := se
  subst line between
  simp only [Session.takeLine, Session.after, ne_eq, not_true_eq_false, if_false]

theorem parseRequest_meets {se : Session} (here : s.socket = socket) (starts : Going files socket se w)
    (between : se.request = none)
    (returns : ∀ request w', session files socket w' = se.after files request →
      w'.sent socket = se.output → w'.broken = w.broken →
      post (.returned (.own (.request request))) w')
    (throws : ∀ error env w', error.isStd = true → w'.sent socket = se.output →
      (session files socket w').output = se.output →
      (w'.broken = false → (session files socket w').closed = true) →
      post (.threw error env) w') :
    Meets (code files) outside.observer (Fit files socket) parseRequest s w post := by
  have breaks : ∀ error env w', error.isStd = true → w'.broken = true → w'.sent socket = se.output →
      (session files socket w').output = se.output → post (.threw error env) w' := by
    intro error env w' std broken answered output
    refine throws error env w' std answered output fun intact => ?_
    rw [broken] at intact
    cases intact
  refine Meets.seq (Meets.assign (Meets.seq (nextLine_meets here starts ?_ breaks)))
  intro text w' at_line answered broken
  simp only [Session.takeLine, between] at at_line
  refine Meets.branch (fun nothing => Meets.ret ?_) fun something => ?_
  · -- a line without a request
    rw [if_pos (of_decide_eq_true nothing)] at at_line
    refine returns .empty w' ?_ answered broken
    rw [at_line, Session.after, if_pos (show HttpRequest.empty.method = [] from rfl),
      ← between, ← starts.line]
  rw [if_neg (of_decide_eq_false something)] at at_line
  refine Meets.seq (Meets.branch (fun isOk => ?_) fun isError => ?_)
  · cases parsed : parseRequestLine text with
    | error error => simp [parsed, Except.isOk, Except.toBool] at isOk
    | ok request =>
      simp only [parsed] at at_line
      refine Meets.assign ?_
      simp only [parsed]
      -- at the head of the loop the request has the headers read so far
      refine Meets.forever (fun env g => env.socket = socket ∧ g.broken = w.broken ∧
        g.sent socket = se.output ∧
        session files socket g = { se with line := [], request := some env.own.request })
        ⟨here, broken, answered, at_line⟩ ?_
      rintro env g ⟨here, broken, answered, at_headers⟩
      refine Meets.seq (nextLine_meets here ⟨at_headers, rfl, starts.going, answered⟩ ?_ ?_)
      · intro text w' at_line answered' broken'
        refine Meets.branch (fun nothing => Meets.ret ?_) fun something => Meets.assign ?_
        · refine returns env.own.request w' ?_ answered' (broken'.trans broken)
          rw [at_line, show text = [] from of_decide_eq_true nothing,
            takeLine_blank starts.line between]
        · refine ⟨here, broken'.trans broken, answered', ?_⟩
          rw [at_line]
          exact if_pos (of_decide_eq_false something)
      · exact fun error env w' std broken answered output => breaks error env w' std broken answered output
  · cases parsed : parseRequestLine text with
    | ok request => simp [parsed, Except.isOk, Except.toBool] at isError
    | error error =>
      simp only [parsed] at at_line
      refine Meets.throw ?_
      simp only [parsed]
      refine throws error _ w' ?_ answered (by rw [at_line]) fun _ => by rw [at_line]
      -- the only error is the one for a malformed line
      unfold parseRequestLine at parsed
      split at parsed
      · cases parsed
        rfl
      · split at parsed <;> cases parsed

theorem sendResponse_meets {se : Session} (here : s.socket = socket)
    (owed : session files socket w = { se with output := se.output ++ s.buffer })
    (answered : w.sent socket = se.output) (returns : post (.normal s) (w.send socket s.buffer))
    (throws : ∀ error env w', error.isStd = true → Served files socket w' →
      post (.threw error env) w') :
    Meets (code files) outside.observer (Fit files socket) (.call .asyncWrite id fun _ s => s) s w
      post := by
  subst here
  have part : ∀ count, (w.send s.socket (s.buffer.take count)).sent s.socket <+:
      (session files s.socket w).output := by
    intro count
    rw [owed]
    simp only [Wire.send, Function.update_self, answered]
    exact (List.prefix_append_right_inj _).mpr (List.take_prefix ..)
  have fit : ∀ count question, question.listens = false →
      Fit files s.socket question (w.send s.socket (s.buffer.take count)) := by
    intro count question writes
    refine ⟨part count, fun reads => ?_⟩
    rw [writes] at reads
    cases reads
  refine Meets.call (asyncWrite_meets ?_ (fun count _ => fit count _ rfl)
    (fun count _ => fit count _ rfl) returns ?_)
  · have unsent := fit 0 (.ensureValid s.socket) rfl
    rwa [List.take_zero, Wire.send_nil] at unsent
  · exact fun error env count std => throws error _ _ std ⟨part count, fun reads => by cases reads⟩

/-- The session of one client from its first request to its end. -/
theorem handleClient_meets (here : s.socket = socket) (fresh : w.arrived socket = [])
    (unsent : w.sent socket = []) :
    Meets (code files) outside.observer (Fit files socket) (handleClient files) s w
      (Quietly (Served files socket)) := by
  have caught : ∀ error env w', error.isStd = true → Served files socket w' →
      Caught catches (fun env g => Meets (code files) outside.observer (Fit files socket) .skip env g
        (Quietly (Served files socket))) (Quietly (Served files socket)) (.threw error env) w' := by
    intro error env w' std served
    simp only [Caught, catches, std, if_true]
    exact Meets.skip served
  refine Meets.attempt (Meets.forever (fun env g => env.socket = socket ∧
    ∃ se, Going files socket se g ∧ se.request = none) ⟨here, .start, ?_, rfl⟩ ?_)
  · exact ⟨by rw [session, fresh]; rfl, rfl, rfl, unsent⟩
  rintro env g ⟨here, se, starts, between⟩
  refine Meets.seq (Meets.call (parseRequest_meets here starts between ?_ ?_))
  · intro request w' at_request answered broken
    refine Meets.branch (fun nothing => Meets.ret ?_) fun something => ?_
    · rw [Session.after, if_pos (of_decide_eq_true nothing)] at at_request
      have whole : w'.sent socket = (session files socket w').output := by rw [at_request, answered]
      exact ⟨whole ▸ List.prefix_rfl, fun _ => ⟨by rw [at_request], whole⟩⟩
    rw [Session.after, if_neg (of_decide_eq_false something)] at at_request
    refine Meets.seq (Meets.assign (sendResponse_meets here at_request answered ?_ ?_))
    · refine ⟨here, _, ⟨at_request, starts.line, starts.going, ?_⟩, between⟩
      simp [Wire.send, answered]
    · exact fun error env w' std served => caught error env w' std served
  · intro error env' w' std answered output closed
    have whole : w'.sent socket = (session files socket w').output := answered.trans output.symm
    exact caught error _ w' std ⟨whole ▸ List.prefix_rfl, fun intact => ⟨closed intact, whole⟩⟩

end CoroEpoll.Servers.Http
