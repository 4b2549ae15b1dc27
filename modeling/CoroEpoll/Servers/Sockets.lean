import CoroEpoll.Servers.Language

/-! What `async_read`, `async_write` and `async_accept_fd` ask and how they end, for every
server that calls them.
-/

set_option autoImplicit false

namespace CoroEpoll.Servers

open Routines Text

variable {A : App} {X : Type} {program : A.Fn → Routine (net A)} {outside : Outside A X}
  {fit : Ask A.Question → Wire X → Prop} {post : Flow (net A) → Wire X → Prop}
  {s : Locals A.Own} {w : Wire X}

/-- What is answered by nothing, or by an exception. -/
def Ask.isWait {Q : Type} : Ask Q → Bool
  | .ensureValid _ | .configure _ | .ready _ _ _ => true
  | _ => false

def Ask.listens {Q : Type} : Ask Q → Bool
  | .recv _ _ | .ready _ .read _ => true
  | _ => false

theorem Outside.expects_wait {question : Ask A.Question} (waits : question.isWait = true)
    (answer : Answer) : outside.observer.expects w question answer ↔
      Outside.passes answer = true := by
  cases question with
  | ensureValid | configure | ready => exact Iff.rfl
  | recv | send | accept | close | closeFd | spawn | stop | own => cases waits

theorem Outside.note_wait {question : Ask A.Question} (waits : question.isWait = true)
    (answer : Answer) : outside.observer.note w question answer =
      if answer.fails then w.fail else w := by
  cases question with
  | ensureValid | configure | ready => rfl
  | recv | send | accept | close | closeFd | spawn | stop | own => cases waits

theorem demand_meets {question : Locals A.Own → Ask A.Question}
    (waits : (question s).isWait = true) (asks : fit (question s) w)
    (goes : post (.normal { s with answer := .done }) w)
    (throws : ∀ error, error.isStd = true →
      post (.threw error { s with answer := .threw error }) w.fail) :
    Meets program outside.observer fit (demand question) s w post := by
  refine Meets.seq (Meets.wait asks fun answer expected => ?_)
  rw [Outside.expects_wait waits] at expected
  rw [Outside.note_wait waits]
  cases answer with
  | done => exact Meets.untaken rfl <| Meets.skip goes
  | threw error => exact Meets.taken rfl (Meets.throw (throws error expected))
  | bytes | datagram | count | descriptor | failed => cases expected

theorem retry_meets {what : String} {direction : Direction} {edgeTrigger : Bool} {errno : Errno}
    (failed : s.answer = .failed errno)
    (asks : errno = .EAGAIN → fit (.ready s.socket direction edgeTrigger) w)
    (again : ∀ answer, post (.normal { s with answer }) w)
    (throws : ∀ error answer, error.isStd = true →
      post (.threw error { s with answer }) w.fail) :
    Meets program outside.observer fit (retry what direction edgeTrigger) s
      (if errno.hard then w.fail else w) post := by
  have same : ({ s with answer := s.answer } : Locals A.Own) = s := rfl
  have errno_eq : s.answer.errno = some errno := by rw [failed]; rfl
  refine Meets.branch (fun interrupted => ?_) fun notInterrupted => ?_
  · simp only [errno_eq, Option.some.injEq, decide_eq_true_eq] at interrupted
    subst interrupted
    exact Meets.skip (same ▸ again s.answer)
  refine Meets.branch (fun blocked => ?_) fun notBlocked => ?_
  · simp only [errno_eq, Option.some.injEq, decide_eq_true_eq] at blocked
    subst blocked
    exact demand_meets rfl (asks rfl) (again .done) fun error std => throws error _ std
  · have hard : errno.hard = true := by
      simp only [errno_eq, Option.some.injEq, decide_eq_false_iff_not] at notInterrupted notBlocked
      cases errno <;> simp_all [Errno.hard]
    rw [if_pos hard]
    exact Meets.throw (same ▸ throws _ s.answer rfl)

theorem asyncRead_meets (valid : fit (.ensureValid s.socket) w)
    (recv : fit (.recv s.socket s.size) w) (ready : fit (.ready s.socket .read false) w)
    (returns : ∀ data, data.length ≤ s.size →
      post (.returned (.bytes data)) (w.receive s.socket data))
    (throws : ∀ error env, error.isStd = true → post (.threw error env) w.fail) :
    Meets program outside.observer fit asyncRead s w post := by
  refine Meets.seq (demand_meets rfl valid ?_ fun error std => throws error _ std)
  -- nothing has been read at the head of the loop
  refine Meets.forever (fun env g => env.socket = s.socket ∧ env.size = s.size ∧ g = w)
    ⟨rfl, rfl, rfl⟩ ?_
  rintro env g ⟨socket, size, rfl⟩
  refine Meets.seq (Meets.wait (by rw [socket, size]; exact recv) fun answer expected => ?_)
  cases answer with
  | bytes data =>
    refine Meets.taken rfl (Meets.ret ?_)
    have read := returns data (size ▸ expected)
    rw [← socket] at read
    exact read
  | failed errno =>
    refine Meets.untaken rfl ?_
    refine retry_meets rfl (fun _ => socket ▸ ready) (fun answer => ⟨socket, size, rfl⟩) ?_
    exact fun error answer std => throws error _ std
  | done | datagram | count | descriptor | threw => cases expected

/-- `async_write` has sent the first bytes of its buffer whenever it asks or throws, and all
of them when it returns. -/
theorem asyncWrite_meets (valid : fit (.ensureValid s.socket) w)
    (send : ∀ count ≤ s.buffer.length,
      fit (.send s.socket (s.buffer.drop count)) (w.send s.socket (s.buffer.take count)))
    (ready : ∀ count ≤ s.buffer.length,
      fit (.ready s.socket .write false) (w.send s.socket (s.buffer.take count)))
    (returns : post (.returned (.count s.buffer.length)) (w.send s.socket s.buffer))
    (throws : ∀ error env count, error.isStd = true →
      post (.threw error env) (w.send s.socket (s.buffer.take count)).fail) :
    Meets program outside.observer fit asyncWrite s w post := by
  refine Meets.seq (demand_meets rfl valid ?_ fun error std => ?_)
  · refine Meets.seq (Meets.assign (Meets.seq ?_))
    refine Meets.loop (fun env g => env.socket = s.socket ∧ env.buffer = s.buffer ∧
      env.total ≤ s.buffer.length ∧ g = w.send s.socket (s.buffer.take env.total))
      ⟨rfl, rfl, Nat.zero_le _, by simp⟩ ?_ ?_
    · rintro env g ⟨socket, buffer, within, rfl⟩ _
      refine Meets.seq (Meets.wait ?_ fun answer expected => ?_)
      · rw [socket, buffer]
        exact send env.total within
      cases answer with
      | count count =>
        rw [buffer] at expected
        have fits : count ≤ (s.buffer.drop env.total).length := expected
        rw [List.length_drop] at fits
        -- the bytes accepted now follow those accepted before
        have advanced : outside.observer.note (w.send s.socket (s.buffer.take env.total))
            (.send env.socket (env.buffer.drop env.total)) (.count count) =
            w.send s.socket (s.buffer.take (env.total + count)) := by
          show (w.send s.socket _).send env.socket _ = _
          rw [socket, buffer, Wire.send_send, List.take_add]
        rw [advanced]
        cases count with
        | zero =>
          refine Meets.untaken rfl <| Meets.taken rfl ?_
          refine demand_meets rfl (socket ▸ ready env.total within) ⟨socket, buffer, within, rfl⟩ ?_
          exact fun error std => throws error _ env.total std
        | succ count =>
          refine Meets.taken rfl (Meets.assign ?_)
          refine ⟨socket, buffer, ?_, rfl⟩
          show env.total + (count + 1) ≤ s.buffer.length
          omega
      | failed errno =>
        refine Meets.untaken rfl <| Meets.untaken rfl ?_
        refine retry_meets rfl (fun _ => socket ▸ ready env.total within)
          (fun answer => ⟨socket, buffer, within, rfl⟩) ?_
        exact fun error answer std => throws error _ env.total std
      | done | bytes | datagram | descriptor | threw => cases expected
    · rintro env g ⟨socket, buffer, within, rfl⟩ finished
      have whole : env.total = s.buffer.length := by
        rw [buffer, decide_eq_false_iff_not] at finished
        omega
      refine Meets.ret ?_
      rw [whole, List.take_length]
      exact returns
  · have thrown := throws error { s with answer := .threw error } 0 std
    rwa [List.take_zero, Wire.send_nil] at thrown

/-- `async_read_et` returns what several calls of recv have read, or throws. Nothing has been
read where it waits, and nothing but the end of the stream where it returns nothing. -/
theorem asyncReadEt_meets (valid : fit (.ensureValid s.socket) w)
    (recv : ∀ chunks, fit (.recv s.socket (s.size - chunks.flatten.length))
      (w.receiveAll s.socket chunks))
    (ready : fit (.ready s.socket .read true) w)
    (returns : ∀ chunks, (chunks.flatten = [] → chunks = [[]]) →
      post (.returned (.bytes chunks.flatten)) (w.receiveAll s.socket chunks))
    (throws : ∀ chunks error env, error.isStd = true →
      post (.threw error env) (w.receiveAll s.socket chunks).fail) :
    Meets program outside.observer fit asyncReadEt s w post := by
  refine Meets.seq (demand_meets rfl valid ?_ fun error std => ?_)
  · refine Meets.seq (Meets.assign ?_)
    -- what has been read so far is in the buffer, and each call has read something
    refine Meets.forever (fun env g => env.socket = s.socket ∧ env.size = s.size ∧
      ∃ chunks, env.buffer = chunks.flatten ∧ (∀ chunk ∈ chunks, chunk ≠ []) ∧
        g = w.receiveAll s.socket chunks) ⟨rfl, rfl, [], rfl, by simp, by simp⟩ ?_
    rintro env g ⟨socket, size, chunks, buffer, each, rfl⟩
    refine Meets.seq (Meets.wait ?_ fun answer expected => ?_)
    · rw [socket, size, buffer]
      exact recv chunks
    cases answer with
    | bytes data =>
      have read : outside.observer.note (w.receiveAll s.socket chunks)
          (.recv env.socket (env.size - env.buffer.length)) (.bytes data) =
          w.receiveAll s.socket (chunks ++ [data]) := by
        show (w.receiveAll s.socket chunks).receive env.socket data = _
        rw [socket, Wire.receive_receiveAll]
      rw [read]
      refine Meets.branch (fun nothing => Meets.ret ?_) fun something => ?_
      · simp only [decide_eq_true_eq, Answer.bytes.injEq] at nothing
        subst nothing
        have whole := returns (chunks ++ [[]])
        simp only [List.flatten_append, List.flatten_cons, List.flatten_nil, List.append_nil] at whole
        refine buffer ▸ whole fun empty => ?_
        cases chunks with
        | nil => rfl
        | cons chunk chunks =>
          exact absurd (List.append_eq_nil_iff.mp empty).1 (each chunk List.mem_cons_self)
      · simp only [decide_eq_false_iff_not, Answer.bytes.injEq] at something
        refine Meets.taken rfl (Meets.assign ⟨socket, size, chunks ++ [data], ?_, ?_, rfl⟩)
        · simp [buffer]
        · intro chunk member
          rcases List.mem_append.mp member with before | now
          · exact each chunk before
          · exact List.mem_singleton.mp now ▸ something
    | failed errno =>
      refine Meets.untaken rfl <| Meets.untaken rfl ?_
      refine Meets.branch (fun drained => Meets.ret ?_) fun waits => ?_
      · simp only [decide_eq_true_eq] at drained
        obtain ⟨something, blocked⟩ := drained
        cases blocked
        show post (.returned (.bytes env.buffer)) (w.receiveAll s.socket chunks)
        rw [buffer] at something ⊢
        exact returns chunks fun empty => absurd empty something
      · refine retry_meets rfl (fun blocked => ?_)
          (fun answer => ⟨socket, size, chunks, buffer, each, rfl⟩)
          fun error answer std => throws chunks error _ std
        subst blocked
        cases chunks with
        | nil => simpa [socket] using ready
        | cons chunk chunks =>
          have something : env.buffer ≠ [] := buffer ▸ fun empty =>
            each chunk List.mem_cons_self (List.append_eq_nil_iff.mp empty).1
          simp [something, Answer.errno] at waits
    | done | datagram | count | descriptor | threw => cases expected
  · have thrown := throws [] error { s with answer := .threw error } std
    rwa [Wire.receiveAll_nil] at thrown

theorem configureFd_meets {fd : Fd} (accepted : s.answer = .descriptor fd)
    (configure : fit (.configure fd) w) (closes : fit (.closeFd fd) w.fail)
    (goes : post (.normal { s with fd, answer := .done }) w)
    (drops : ∀ error env, error.isStd = true → post (.threw error { s with fd, answer := env })
      (w.fail.closeFd fd)) :
    Meets program outside.observer fit configureFd s w post := by
  refine Meets.seq (Meets.assign (Meets.attempt ?_))
  simp only [accepted]
  refine demand_meets rfl configure goes fun error std => ?_
  refine Meets.seq (Meets.wait closes fun answer closed => ?_)
  have closed : answer = .done := closed
  subst closed
  exact Meets.throw (drops error _ std)

/-- `async_accept_fd` returns a descriptor that one accept has opened, or throws; it has then
closed the descriptor that it could not configure. -/
theorem asyncAcceptFd_meets (valid : fit (.ensureValid s.socket) w)
    (accept : fit (.accept s.socket) w) (ready : fit (.ready s.socket .read false) w)
    (configure : ∀ fd, fit (.configure fd) (w.openFd fd))
    (closes : ∀ fd, fit (.closeFd fd) (w.openFd fd).fail)
    (returns : ∀ fd, post (.returned (.descriptor fd)) (w.openFd fd))
    (throws : ∀ error env, error.isStd = true → post (.threw error env) w.fail)
    (drops : ∀ error env fd, error.isStd = true →
      post (.threw error env) ((w.openFd fd).fail.closeFd fd)) :
    Meets program outside.observer fit asyncAcceptFd s w post := by
  refine Meets.seq (demand_meets rfl valid ?_ fun error std => throws error _ std)
  refine Meets.forever (fun env g => env.socket = s.socket ∧ g = w) ⟨rfl, rfl⟩ ?_
  rintro env g ⟨socket, rfl⟩
  refine Meets.seq (Meets.wait (by rw [socket]; exact accept) fun answer expected => ?_)
  cases answer with
  | descriptor fd =>
    refine Meets.taken rfl (Meets.seq ?_)
    exact configureFd_meets rfl (configure fd) (closes fd) (Meets.ret (returns fd))
      fun error env std => drops error _ fd std
  | failed errno =>
    refine Meets.untaken rfl ?_
    refine retry_meets rfl (fun _ => socket ▸ ready) (fun answer => ⟨socket, rfl⟩) ?_
    exact fun error answer std => throws error _ std
  | done | bytes | datagram | count | threw => cases expected

/-! ## They always ask before they go round -/

theorem inquires_demand (question : Locals A.Own → Ask A.Question) :
    Inquires program (demand question) :=
  .seq _ (.wait _ _)

theorem comesToRest_demand (question : Locals A.Own → Ask A.Question) :
    ComesToRest program (demand question) :=
  .seq (.wait _ _) (.branch _ (.throw _) .skip)

theorem comesToRest_retry (what : String) (direction : Direction) (edgeTrigger : Bool) :
    ComesToRest program (retry what direction edgeTrigger) :=
  .branch _ .skip (.branch _ (comesToRest_demand _) (.throw _))

theorem inquires_asyncRead : Inquires program asyncRead := .seq _ (inquires_demand _)

theorem comesToRest_asyncRead : ComesToRest program asyncRead :=
  .seq (comesToRest_demand _) <|
    .loop _ (.seq (.wait _ _) (.branch _ (.ret _) (comesToRest_retry _ _ _))) (.seq _ (.wait _ _))

theorem comesToRest_asyncWrite : ComesToRest program asyncWrite := by
  refine .seq (comesToRest_demand _) (.seq (.assign _) (.seq (.loop _ ?_ ?_) (.ret _)))
  · exact .seq (.wait _ _) <|
      .branch _ (.assign _) (.branch _ (comesToRest_demand _) (comesToRest_retry _ _ _))
  · exact .seq _ (.wait _ _)

theorem comesToRest_configureFd : ComesToRest program configureFd :=
  .seq (.assign _) (.attempt _ (comesToRest_demand _) (.seq (.wait _ _) (.throw _)))

theorem inquires_asyncAcceptFd : Inquires program asyncAcceptFd := .seq _ (inquires_demand _)

theorem comesToRest_asyncAcceptFd : ComesToRest program asyncAcceptFd := by
  refine .seq (comesToRest_demand _) (.loop _ (.seq (.wait _ _) (.branch _ ?_ ?_)) ?_)
  · exact .seq comesToRest_configureFd (.ret _)
  · exact comesToRest_retry _ _ _
  · exact .seq _ (.wait _ _)

theorem comesToRest_acceptAndHandle {accept : A.Fn} (body : (program accept).body = asyncAcceptFd) :
    ComesToRest program (acceptAndHandle accept) := by
  refine .attempt _ (.loop _ (.seq (.call _ _ ?_) (comesToRest_demand _)) ?_) (.wait _ _)
  · rw [body]
    exact comesToRest_asyncAcceptFd
  · refine .seq _ (.call _ _ ?_)
    rw [body]
    exact inquires_asyncAcceptFd

end CoroEpoll.Servers
