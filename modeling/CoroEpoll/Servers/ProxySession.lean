import CoroEpoll.Servers.Accepting
import CoroEpoll.Servers.Proxy

/-! A relay passes on what it reads and closes both sockets; a session loses no descriptor but
where waiting for the backend throws.
-/

set_option autoImplicit false

namespace CoroEpoll.Servers.Proxy

open Routines Text CoroEpoll.Task

def transfers {Q : Type} : Ask Q → Bool
  | .ensureValid _ | .recv _ _ | .send _ _ | .ready _ _ _ => true
  | _ => false

section
variable (source target : SocketId)

/-- Only what has come is passed on, nothing is owed when more is awaited, and the sockets are
closed one after the other. -/
def RelayFit (question : Ask Question) (w : Wire Made) : Prop :=
  w.sent target <+: w.received source ∧
    match question with
    | .close socket => socket = source ∧ w.shut = [] ∨ socket = target ∧ w.shut = [source]
    | question => transfers question = true ∧ w.shut = [] ∧
      (question.listens = true → w.sent target = w.received source)

/-- Everything up to the end of the stream was passed on, unless something broke. -/
structure Relayed (w : Wire Made) : Prop where
  sent : w.sent target <+: w.received source
  whole : w.broken = false → w.sent target = w.received source ∧
    ∃ before, w.arrived source = before ++ [[]]
  shut : w.shut = [source, target]

end

structure Kept (before w : Wire Made) : Prop where
  own : w.own = before.own
  closed : w.closed = before.closed

variable {fit : Ask Question → Wire Made → Prop} {source target : SocketId} {s : Locals Own}
  {w : Wire Made} {post : Flow (net app) → Wire Made → Prop}

theorem passOn_meets {before : Wire Made} (to_target : s.socket = target)
    (owed : w.received source = w.sent target ++ s.buffer) (unshut : w.shut = [])
    (kept : Kept before w)
    (fits : ∀ question w, RelayFit source target question w → Kept before w → fit question w)
    (returns : post (.returned (.count s.buffer.length)) (w.send target s.buffer))
    (throws : ∀ error env w', error.isStd = true → w'.broken = true → w'.shut = [] →
      Kept before w' → w'.sent target <+: w'.received source → post (.threw error env) w') :
    Meets code outside.observer fit asyncWrite s w post := by
  subst to_target
  have part : ∀ count, (w.send s.socket (s.buffer.take count)).sent s.socket <+:
      (w.send s.socket (s.buffer.take count)).received source := by
    intro count
    show _ <+: w.received source
    rw [owed]
    simp only [Wire.send, Function.update_self]
    exact (List.prefix_append_right_inj _).mpr (List.take_prefix ..)
  have fit_part : ∀ count question, question.listens = false → transfers question = true →
      fit question (w.send s.socket (s.buffer.take count)) := by
    intro count question silent transferring
    refine fits _ _ ⟨part count, ?_⟩ ⟨kept.own, kept.closed⟩
    split
    · cases transferring
    · exact ⟨transferring, unshut, fun awaits => absurd (silent.symm.trans awaits) (by decide)⟩
  refine asyncWrite_meets ?_ (fun count _ => fit_part count _ rfl rfl)
    (fun count _ => fit_part count _ rfl rfl) returns ?_
  · have unsent := fit_part 0 (.ensureValid s.socket) rfl rfl
    rwa [List.take_zero, Wire.send_nil] at unsent
  · exact fun error env count std =>
      throws error env _ std rfl unshut ⟨kept.own, kept.closed⟩ (part count)

theorem closeBoth_meets {before : Wire Made} (from_source : s.socket = source)
    (to_target : s.own.peer = target) (sent : w.sent target <+: w.received source)
    (whole : w.broken = false → w.sent target = w.received source ∧
      ∃ earlier, w.arrived source = earlier ++ [[]])
    (unshut : w.shut = []) (kept : Kept before w)
    (fits : ∀ question w, RelayFit source target question w → Kept before w → fit question w)
    (ends : ∀ env w', Relayed source target w' → Kept before w' → post (.normal env) w') :
    Meets code outside.observer fit
      (.seq (ask fun s => .close s.socket) (ask fun s => .close s.own.peer)) s w post := by
  refine Meets.seq (Meets.wait (fits _ _ ⟨sent, .inl ⟨from_source, unshut⟩⟩ kept)
    fun answer expected => ?_)
  have expected : answer = .done := expected
  subst expected
  have shut : (w.shutDown s.socket).shut = [source] := by simp [Wire.shutDown, unshut, from_source]
  refine Meets.wait (fits _ _ ⟨sent, .inr ⟨to_target, shut⟩⟩ ⟨kept.own, kept.closed⟩)
    fun answer expected => ?_
  have expected : answer = .done := expected
  subst expected
  refine ends _ _ ⟨sent, whole, ?_⟩ ⟨kept.own, kept.closed⟩
  show (w.shutDown s.socket).shut ++ [s.own.peer] = [source, target]
  rw [shut, to_target]
  rfl

theorem relay_meets (from_source : s.socket = source) (to_target : s.own.peer = target)
    (answered : w.sent target = w.received source) (unshut : w.shut = [])
    (fits : ∀ question w', RelayFit source target question w' → Kept w w' → fit question w')
    (ends : ∀ env w', Relayed source target w' → Kept w w' → post (.normal env) w') :
    Meets code outside.observer fit relay s w post := by
  refine Meets.seq (Meets.assign (Meets.seq (Meets.attempt ?_)))
  have caught : ∀ error (env : Locals Own) (w' : Wire Made), error.isStd = true →
      env.socket = source → env.own.peer = target → w'.broken = true → w'.shut = [] → Kept w w' →
      w'.sent target <+: w'.received source →
      Caught catches (fun env w => Meets code outside.observer fit .skip env w
        (Then (fun env w => Meets code outside.observer fit
          (.seq (ask fun s => .close s.socket) (ask fun s => .close s.own.peer)) env w post) post))
        (Then (fun env w => Meets code outside.observer fit
          (.seq (ask fun s => .close s.socket) (ask fun s => .close s.own.peer)) env w post) post)
        (.threw error env) w' := by
    intro error env w' std from_source to_target broken unshut kept sent
    simp only [Caught, catches, std, if_true]
    refine Meets.skip (closeBoth_meets from_source to_target sent (fun intact => ?_) unshut kept
      fits ends)
    rw [broken] at intact
    cases intact
  refine Meets.loop (fun env g => env.socket = source ∧ env.own.peer = target ∧
    g.sent target = g.received source ∧ g.shut = [] ∧ Kept w g ∧
    (env.own.going = false → ∃ earlier, g.arrived source = earlier ++ [[]]))
    ⟨from_source, to_target, answered, unshut, ⟨rfl, rfl⟩, by simp⟩ ?_ ?_
  · rintro env g ⟨from_source, to_target, answered, unshut, kept, -⟩ going
    have fit_read : ∀ question, transfers question = true → fit question g := by
      intro question transferring
      refine fits _ _ ⟨answered ▸ List.prefix_rfl, ?_⟩ kept
      split
      · cases transferring
      · exact ⟨transferring, unshut, fun _ => answered⟩
    refine Meets.seq (Meets.call (asyncRead_meets (fit_read _ rfl) (fit_read _ rfl)
      (fit_read _ rfl) (fun data _ => ?_) fun error _ std => ?_))
    · have received : (g.receive source data).received source = g.sent target ++ data := by
        rw [Wire.receive, Wire.received_receiveAll, answered]
        simp
      rw [from_source]
      refine Meets.branch (fun nothing => Meets.assign ?_) fun something => Meets.call ?_
      · have nothing : data = [] := of_decide_eq_true nothing
        subst nothing
        rw [List.append_nil] at received
        refine ⟨from_source, to_target, received.symm, unshut, ⟨kept.own, kept.closed⟩, fun _ => ?_⟩
        exact ⟨g.arrived source, by simp [Wire.receive, Wire.receiveAll]⟩
      · refine passOn_meets (s := { env with buffer := data, socket := env.own.peer }) to_target
          received unshut ⟨kept.own, kept.closed⟩ fits ?_ ?_
        · refine ⟨from_source, to_target, ?_, unshut, ⟨kept.own, kept.closed⟩, ?_⟩
          · show ((g.receive source data).send target data).sent target =
              (g.receive source data).received source
            rw [received]
            simp [Wire.send, Wire.receive, Wire.receiveAll]
          · exact fun left => absurd (going.symm.trans left) (by decide)
        · exact fun error _ w' std broken unshut kept sent =>
            caught error _ w' std from_source to_target broken unshut kept sent
    · refine caught error env _ std from_source to_target rfl unshut ⟨kept.own, kept.closed⟩ ?_
      exact answered ▸ List.prefix_rfl
  · rintro env g ⟨from_source, to_target, answered, unshut, kept, at_end⟩ left
    exact closeBoth_meets from_source to_target (answered ▸ List.prefix_rfl)
      (fun _ => ⟨answered, at_end left⟩) unshut kept fits ends

def noneMade : Made := ⟨[], [], [], false⟩

/-- On a loop with any number of tasks, each relay has passed on what it has read, in order; it
owes nothing when it waits for more, and closes both sockets before it ends. -/
theorem relays_pass_on {s : World (net app)} (reached : (machine code).Reachable s)
    {task : Spawned (net app)} (member : task ∈ s.tasks) (relays : task.fn = .relay)
    {status : Status (net app)} (has : s.HasStatus code task.handle status) :
    ∃ dialogue : Dialogue (net app), Held code s task status dialogue ∧
      (outside.observer.Expects (.boot noneMade) dialogue →
        KeepsTo (RelayFit task.env.socket task.env.own.peer)
          (Relayed task.env.socket task.env.own.peer)
          (outside.observer.after (.boot noneMade) dialogue) status) :=
  (refines_of_reachable reached).dialogue_void member (by rw [relays]; rfl) has
    (relay_meets rfl rfl rfl rfl (fun _ _ fit _ => fit) fun _ _ relayed _ => relayed)

def relayRun : List (Act (net app)) :=
  .spawn Fn.relay (⟨4, 0, [], 0, 0, [], .done, ⟨5, false, "", 0⟩⟩ : Locals Own) ::
  List.replicate 12 .tick ++ tells 1 [(.done, 7), (.bytes [104, 105], 14)] ++
  tells 2 [(.done, 11), (.count 2, 18)] ++ tells 3 [(.done, 7), (.bytes [], 16)] ++
  tells 0 [(.done, 2)]

theorem relays_pass_on_once : ∃ s task,
    (machine code).exec (.boot (net app)) relayRun = some s ∧ task ∈ s.tasks ∧
      ∃ dialogue, Held code s task (.blocked (.close 5)) dialogue ∧
        (outside.observer.Expects (.boot noneMade) dialogue →
          KeepsTo (L := net app) (RelayFit task.env.socket task.env.own.peer)
            (Relayed task.env.socket task.env.own.peer)
            (outside.observer.after (.boot noneMade) dialogue) (.blocked (.close 5))) := by
  have waits : ((machine code).exec (.boot (net app)) relayRun).any
      (fun s => s.waitsAt 0 = some (0, .close 5) &&
        (0, Fn.relay) ∈ s.tasks.map fun task => (task.handle, task.fn)) = true := by
    decide +kernel
  obtain ⟨s, task, replay, reached, member, relays, waits⟩ := waits_of_run waits
  exact ⟨s, task, replay, member, relays_pass_on reached member relays waits⟩

/-! ## Sessions -/

def SessionFit (client : SocketId) (question : Ask Question) (w : Wire Made) : Prop :=
  match question with
  | .own (.inetPton _) | .own .socket => w.own = noneMade ∧ w.closed = []
  | .configure fd | .closeFd fd | .own (.connect fd _) | .own (.writable fd) | .own (.soError fd)
  | .own (.share fd) => w.own = { noneMade with made := [fd] } ∧ w.closed = []
  | .own (.spawnRelay source _) =>
    source = client ∧ (∃ fd, w.own = { noneMade with made := [fd], shared := [fd] }) ∧ w.closed = []
  | question => ∃ peer, w.own.relays = [(client, peer)] ∧ RelayFit peer client question w

/-- The session has made one descriptor at most. It has closed it or made it a socket, just if
waiting has not thrown; and what it has spawned the one relay for, it has relayed the other way. -/
structure SessionEnded (client : SocketId) (w : Wire Made) : Prop where
  one : w.own.made.length ≤ 1
  kept : w.own.made = w.closed ++ w.own.shared ↔ w.own.waitThrew = false
  relayed : w.own.relays = [] ∨ ∃ peer, w.own.relays = [(client, peer)] ∧ Relayed peer client w

def during (own : Made) (closed : List Fd) (broken : Bool) : Wire Made :=
  { Wire.boot own with closed, broken }

theorem note_own (own : Made) (closed : List Fd) (broken : Bool) (question : Question)
    (answer : Answer) :
    outside.observer.note (during own closed broken) (.own question) answer =
      during (outside.note own question answer) closed
        (broken || outside.breaks question answer) := by
  cases breaks : outside.breaks question answer <;>
    simp [Outside.observer, Outside.noteAsk, Outside.failsOn, breaks, during, Wire.fail, Wire.boot]

theorem closeAndThrow_meets {client : SocketId} {error : Locals Own → Exception} {fd : Fd}
    {broken : Bool} (same : s.fd = fd)
    (throws : post (.threw (error s) s) (during { noneMade with made := [fd] } [fd] broken)) :
    Meets code outside.observer (SessionFit client) (closeAndThrow error) s
      (during { noneMade with made := [fd] } [] broken) post := by
  subst same
  refine Meets.seq (Meets.wait ⟨rfl, rfl⟩ fun answer expected => ?_)
  have expected : answer = .done := expected
  subst expected
  exact Meets.throw throws

theorem connectOn_meets {client : SocketId} {fd : Fd} (accepted : s.answer = .descriptor fd)
    (returns : post (.returned (.descriptor fd)) (during { noneMade with made := [fd] } [] false))
    (drops : ∀ error env broken, error.isStd = true →
      post (.threw error env) (during { noneMade with made := [fd] } [fd] broken))
    (loses : ∀ error env, error.isStd = true →
      post (.threw error env) (during { noneMade with made := [fd], waitThrew := true } [] true)) :
    Meets code outside.observer (SessionFit client) connectOn s
      (during { noneMade with made := [fd] } [] false) post := by
  refine Meets.seq (configureFd_meets accepted ⟨rfl, rfl⟩ ⟨rfl, rfl⟩ ?_ fun error _ std =>
    drops error _ true std)
  refine Meets.seq (Meets.wait ⟨rfl, rfl⟩ fun answer expected => ?_)
  rw [note_own]
  obtain rfl | ⟨errno, rfl⟩ := expected
  · exact Meets.untaken rfl <| Meets.taken rfl (Meets.ret returns)
  refine Meets.branch (fun _ => closeAndThrow_meets rfl (drops _ _ _ rfl)) fun going => ?_
  have going : errno = EINPROGRESS := by
    simpa [Answer.errno] using going
  subst going
  refine Meets.untaken rfl <| Meets.seq (Meets.seq (Meets.wait ⟨rfl, rfl⟩
    fun answer expected => ?_))
  rw [note_own]
  cases answer with
  | done =>
    refine Meets.untaken rfl <| Meets.skip (Meets.seq (Meets.wait ⟨rfl, rfl⟩
      fun answer expected => ?_))
    rw [note_own]
    obtain ⟨count, rfl⟩ | ⟨errno, rfl⟩ := expected
    · refine Meets.untaken rfl <| Meets.branch (fun _ => ?_) fun _ => Meets.ret returns
      exact closeAndThrow_meets rfl (drops _ _ _ rfl)
    · exact Meets.taken rfl (closeAndThrow_meets rfl (drops _ _ _ rfl))
  | threw error =>
    exact Meets.taken rfl (Meets.throw (loses error _ expected))
  | bytes | datagram | count | descriptor | failed => cases expected

theorem asyncConnectTo_meets {client : SocketId}
    (returns : ∀ fd, post (.returned (.descriptor fd))
      (during { noneMade with made := [fd] } [] false))
    (unmade : ∀ error env broken, error.isStd = true →
      post (.threw error env) (during noneMade [] broken))
    (drops : ∀ error env fd broken, error.isStd = true →
      post (.threw error env) (during { noneMade with made := [fd] } [fd] broken))
    (loses : ∀ error env fd, error.isStd = true →
      post (.threw error env) (during { noneMade with made := [fd], waitThrew := true } [] true)) :
    Meets code outside.observer (SessionFit client) asyncConnectTo s (during noneMade [] false)
      post := by
  refine Meets.seq (Meets.wait ⟨rfl, rfl⟩ fun answer _ => ?_)
  rw [note_own]
  refine Meets.branch (fun _ => Meets.throw (unmade _ _ _ rfl)) fun known => ?_
  have known : answer = .count 1 := by simpa using known
  subst known
  refine Meets.seq (Meets.wait ⟨rfl, rfl⟩ fun answer expected => ?_)
  rw [note_own]
  obtain ⟨fd, rfl⟩ | ⟨errno, rfl⟩ := expected
  · refine Meets.untaken rfl <| connectOn_meets rfl (returns fd) ?_ ?_
    · exact fun error env broken std => drops error env fd broken std
    · exact fun error env std => loses error env fd std
  · exact Meets.taken rfl (Meets.throw (unmade _ _ _ rfl))

theorem handleSession_meets {client : SocketId} (here : s.socket = client) :
    Meets code outside.observer (SessionFit client) handleSession s (during noneMade [] false)
      (Quietly (SessionEnded client)) := by
  have caught : ∀ error env (w : Wire Made), error.isStd = true → SessionEnded client w →
      Caught catches (fun env w => Meets code outside.observer (SessionFit client) .skip env w
        (Quietly (SessionEnded client))) (Quietly (SessionEnded client)) (.threw error env) w := by
    intro error env w std ended
    simp only [Caught, catches, std, if_true]
    exact Meets.skip ended
  subst here
  refine Meets.attempt (Meets.seq (Meets.call (asyncConnectTo_meets (fun fd => ?_) ?_ ?_ ?_)))
  · refine Meets.seq (Meets.wait ⟨rfl, rfl⟩ fun answer expected => ?_)
    rw [note_own]
    obtain ⟨peer, rfl⟩ := expected
    refine Meets.seq (Meets.assign (Meets.seq (Meets.seq (Meets.wait ⟨rfl, ⟨fd, rfl⟩, rfl⟩
      fun answer expected => ?_))))
    rw [note_own]
    cases answer with
    | done =>
      refine Meets.untaken rfl <| Meets.skip (Meets.call ?_)
      refine relay_meets
        (s := { s with socket := peer, own := { s.own with peer := s.socket }, fd, answer := .done })
        (w := during ⟨[fd], [fd], [(s.socket, peer)], false⟩ [] false) rfl rfl rfl rfl ?_ ?_
      · intro question w relays kept
        have spawned : w.own.relays = [(s.socket, peer)] := by rw [kept.own]; rfl
        cases question with
        | ensureValid | recv | send | ready | close => exact ⟨peer, spawned, relays⟩
        | accept | configure | closeFd | spawn | stop | own => cases relays.2.1
      · intro env w relayed kept
        refine ⟨?_, ?_, .inr ⟨peer, ?_, relayed⟩⟩
        · rw [kept.own]
          exact Nat.le_refl 1
        · rw [kept.own, kept.closed]
          exact ⟨fun _ => rfl, fun _ => rfl⟩
        · rw [kept.own]
          rfl
    | threw error =>
      refine Meets.taken rfl (Meets.throw (caught error _ _ expected ⟨?_, ?_, .inl rfl⟩))
      · exact Nat.le_refl 1
      · exact ⟨fun _ => rfl, fun _ => rfl⟩
    | bytes | datagram | count | descriptor | failed => cases expected
  · exact fun error env broken std => caught error _ _ std
      ⟨Nat.zero_le 1, ⟨fun _ => rfl, fun _ => rfl⟩, .inl rfl⟩
  · exact fun error env fd broken std => caught error _ _ std
      ⟨Nat.le_refl 1, ⟨fun _ => rfl, fun _ => rfl⟩, .inl rfl⟩
  · exact fun error env fd std => caught error _ _ std
      ⟨Nat.le_refl 1, ⟨fun made => absurd made (List.cons_ne_nil fd []),
        fun went => Bool.noConfusion went⟩, .inl rfl⟩

/-- On a loop with any number of tasks, a session uses one descriptor at most for its backend,
and never behind its end. It has closed the descriptor or made it a socket when it ends, just if
waiting for the connection has not thrown. -/
theorem sessions_keep_descriptors {s : World (net app)} (reached : (machine code).Reachable s)
    {task : Spawned (net app)} (member : task ∈ s.tasks) (session : task.fn = .handleSession)
    {status : Status (net app)} (has : s.HasStatus code task.handle status) :
    ∃ dialogue : Dialogue (net app), Held code s task status dialogue ∧
      (outside.observer.Expects (.boot noneMade) dialogue →
        KeepsTo (SessionFit task.env.socket) (SessionEnded task.env.socket)
          (outside.observer.after (.boot noneMade) dialogue) status) :=
  (refines_of_reachable reached).dialogue_void member (by rw [session]; rfl) has
    (handleSession_meets rfl)

/-- The backend answers at once that the connection is in progress, and then it is made. -/
def sessionRun : List (Act (net app)) :=
  .spawn Fn.handleSession (⟨4, 0, [], 0, 0, [], .done, ⟨0, false, "127.0.0.1", 80⟩⟩ : Locals Own) ::
  List.replicate 6 .tick ++ tells 1 [(.count 1, 4), (.descriptor 8, 9), (.done, 7),
    (.failed EINPROGRESS, 6), (.done, 6), (.count 0, 10)] ++
  tells 0 [(.count 5, 7), (.done, 18)] ++ tells 3 [(.done, 7)]

theorem sessions_keep_descriptors_once : ∃ s task,
    (machine code).exec (.boot (net app)) sessionRun = some s ∧ task ∈ s.tasks ∧
      ∃ dialogue, Held code s task (.blocked (.recv 5 8192)) dialogue ∧
        (outside.observer.Expects (.boot noneMade) dialogue →
          KeepsTo (L := net app) (SessionFit task.env.socket) (SessionEnded task.env.socket)
            (outside.observer.after (.boot noneMade) dialogue) (.blocked (.recv 5 8192))) := by
  have waits : ((machine code).exec (.boot (net app)) sessionRun).any
      (fun s => s.waitsAt 3 = some (0, .recv 5 8192) &&
        (0, Fn.handleSession) ∈ s.tasks.map fun task => (task.handle, task.fn)) = true := by
    decide +kernel
  obtain ⟨s, task, replay, reached, member, session, waits⟩ := waits_of_run waits
  exact ⟨s, task, replay, member, sessions_keep_descriptors reached member session waits⟩

end CoroEpoll.Servers.Proxy
