import CoroEpoll.Servers.Accepting

/-! A client of an echo server is sent what it has sent itself. -/

set_option autoImplicit false

namespace CoroEpoll.Servers.Echo

open Routines Text CoroEpoll.Task

section
variable (listens : Ask Question → Bool) (socket : SocketId)

/-- Only what has come is sent back, and nothing is owed when more is awaited. -/
structure Fit (question : Ask Question) (w : Wire Unit) : Prop where
  sent : w.sent socket <+: w.received socket
  answered : listens question = true → w.sent socket = w.received socket

/-- The client was sent everything up to the end of its stream, unless something broke. -/
structure Served (w : Wire Unit) : Prop where
  sent : w.sent socket <+: w.received socket
  whole : w.broken = false → w.sent socket = w.received socket ∧
    ∃ before, w.arrived socket = before ++ [[]]

end

variable {program : Fn → Routine (net app)} {listens : Ask Question → Bool} {socket : SocketId}

def ReadsFor (program : Fn → Routine (net app)) (listens : Ask Question → Bool) (socket : SocketId)
    (read : Fn) : Prop :=
  ∀ (s : Locals Unit) (w : Wire Unit) (post : Flow (net app) → Wire Unit → Prop),
    s.socket = socket → w.sent socket = w.received socket →
    (∀ chunks, (chunks.flatten = [] → chunks = [[]]) →
      post (.returned (.bytes chunks.flatten)) (w.receiveAll socket chunks)) →
    (∀ chunks error env, error.isStd = true →
      post (.threw error env) (w.receiveAll socket chunks).fail) →
    Meets program outside.observer (Fit listens socket) (program read).body s w post

theorem fit_of_owing (listening : ∀ question, listens question = true → question.listens = true)
    {question : Ask Question} (silent : question.listens = false) {w : Wire Unit}
    (sent : w.sent socket <+: w.received socket) : Fit listens socket question w := by
  refine ⟨sent, fun awaits => ?_⟩
  rw [listening question awaits] at silent
  cases silent

theorem asyncWrite_owed (listening : ∀ question, listens question = true → question.listens = true)
    {s : Locals Unit} (here : s.socket = socket) {w : Wire Unit}
    (owed : w.received socket = w.sent socket ++ s.buffer)
    {post : Flow (net app) → Wire Unit → Prop}
    (returns : post (.returned (.count s.buffer.length)) (w.send socket s.buffer))
    (throws : ∀ error env w', error.isStd = true → w'.broken = true →
      w'.sent socket <+: w'.received socket → post (.threw error env) w') :
    Meets program outside.observer (Fit listens socket) asyncWrite s w post := by
  subst here
  have part : ∀ count, (w.send s.socket (s.buffer.take count)).sent s.socket <+:
      (w.send s.socket (s.buffer.take count)).received s.socket := by
    intro count
    show _ <+: w.received s.socket
    rw [owed]
    simp only [Wire.send, Function.update_self]
    exact (List.prefix_append_right_inj _).mpr (List.take_prefix ..)
  refine asyncWrite_meets ?_ (fun count _ => fit_of_owing listening rfl (part count))
    (fun count _ => fit_of_owing listening rfl (part count)) returns ?_
  · refine fit_of_owing listening rfl ?_
    rw [owed]
    exact List.prefix_append ..
  · exact fun error env count std => throws error env _ std rfl (part count)

theorem submitAndWrite_meets
    (listening : ∀ question, listens question = true → question.listens = true)
    (writes : program .asyncWrite = .value asyncWrite fun _ => .count 0)
    {s : Locals Unit} (here : s.socket = socket) {w : Wire Unit}
    (owed : w.received socket = w.sent socket ++ s.buffer)
    {post : Flow (net app) → Wire Unit → Prop}
    (returns : ∀ env : Locals Unit, env.socket = socket →
      post (.normal env) (w.send socket s.buffer))
    (throws : ∀ error env w', error.isStd = true → w'.broken = true →
      w'.sent socket <+: w'.received socket → post (.threw error env) w') :
    Meets program outside.observer (Fit listens socket) submitAndWrite s w post := by
  have unsent : w.sent socket <+: w.received socket := by
    rw [owed]
    exact List.prefix_append ..
  refine Meets.seq (Meets.seq (Meets.wait (fit_of_owing listening rfl unsent) fun answer expected => ?_))
  cases answer with
  | bytes output =>
    have same : output = s.buffer := expected
    subst same
    refine Meets.untaken rfl <| Meets.skip (Meets.seq (Meets.assign (Meets.call ?_)))
    rw [writes]
    refine asyncWrite_owed (s := { s with answer := .bytes s.buffer }) listening here owed ?_ ?_
    · exact returns _ here
    · exact fun error env w' std broken sent => throws error _ w' std broken sent
  | threw error =>
    exact Meets.taken rfl (Meets.throw (throws error _ w.fail expected rfl unsent))
  | done | datagram | count | descriptor | failed => cases expected

theorem handleClient_meets {read : Fn} {body : Stmt (net app)} {last : Locals Unit → Value Empty}
    (listening : ∀ question, listens question = true → question.listens = true)
    (isValue : program read = .value body last) (reads : ReadsFor program listens socket read)
    (writes : program .asyncWrite = .value asyncWrite fun _ => .count 0)
    {s : Locals Unit} (here : s.socket = socket) :
    Meets program outside.observer (Fit listens socket) (handleClient read) s (.boot ())
      (Quietly (Served socket)) := by
  have caught : ∀ error env (w : Wire Unit), error.isStd = true → w.broken = true →
      w.sent socket <+: w.received socket →
      Caught catches (fun env w => Meets program outside.observer (Fit listens socket) .skip env w
        (Quietly (Served socket))) (Quietly (Served socket)) (.threw error env) w := by
    intro error env w std broken sent
    simp only [Caught, catches, std, if_true]
    refine Meets.skip ⟨sent, fun intact => ?_⟩
    rw [broken] at intact
    cases intact
  refine Meets.attempt (Meets.forever (fun env g => env.socket = socket ∧
    g.sent socket = g.received socket) ⟨here, rfl⟩ ?_)
  rintro env g ⟨here, answered⟩
  refine Meets.seq (Meets.call (reads _ g _ here answered (fun chunks last => ?_)
    fun chunks error env' std => ?_))
  · simp only [Returned, isValue, Routine.outcome, Outcome.into]
    have received : (g.receiveAll socket chunks).received socket =
        (g.receiveAll socket chunks).sent socket ++ chunks.flatten := by
      rw [Wire.received_receiveAll, ← answered]
      rfl
    refine Meets.branch (fun nothing => Meets.ret ?_) fun something => ?_
    · have nothing : chunks.flatten = [] := of_decide_eq_true nothing
      rw [nothing, List.append_nil] at received
      refine ⟨received ▸ List.prefix_rfl, fun _ => ⟨received.symm, g.arrived socket, ?_⟩⟩
      rw [last nothing]
      simp [Wire.receiveAll]
    · refine submitAndWrite_meets (s := { env with buffer := chunks.flatten }) listening writes here
        received (fun env' here' => ⟨here', ?_⟩) caught
      show ((g.receiveAll socket chunks).send socket chunks.flatten).sent socket =
        (g.receiveAll socket chunks).received socket
      rw [received]
      simp [Wire.send]
  · simp only [Returned, isValue, Routine.outcome, Outcome.into]
    refine caught error env _ std rfl ?_
    show g.sent socket <+: (g.receiveAll socket chunks).received socket
    rw [Wire.received_receiveAll, answered]
    exact List.prefix_append ..

/-! ## The two servers -/

theorem readsFor_asyncRead : ReadsFor code Ask.listens socket .asyncRead := by
  intro s w post here answered returns throws
  subst here
  have fit : ∀ question, Fit Ask.listens s.socket question w := fun _ =>
    ⟨answered ▸ List.prefix_rfl, fun _ => answered⟩
  refine asyncRead_meets (fit _) (fit _) (fit _) (fun data _ => ?_) fun error env std => ?_
  · have read := returns [data]
    simp only [List.flatten_cons, List.flatten_nil, List.append_nil, List.cons.injEq, and_true,
      imp_self, true_implies] at read
    exact read
  · have thrown := throws [] error env std
    rwa [Wire.receiveAll_nil] at thrown

def waitsForInput {Q : Type} : Ask Q → Bool
  | .ready _ .read _ => true
  | _ => false

theorem readsFor_asyncReadEt : ReadsFor codeEt waitsForInput socket .asyncReadEt := by
  intro s w post here answered returns throws
  subst here
  have fit : ∀ question, Fit waitsForInput s.socket question w := fun _ =>
    ⟨answered ▸ List.prefix_rfl, fun _ => answered⟩
  refine asyncReadEt_meets (fit _) (fun chunks => ⟨?_, by simp [waitsForInput]⟩) (fit _) returns throws
  show w.sent s.socket <+: (w.receiveAll s.socket chunks).received s.socket
  rw [Wire.received_receiveAll, answered]
  exact List.prefix_append ..

/-- On a loop with any number of tasks, each client of the echo server is sent the bytes it has
sent, in order, and all of them whenever the server waits for more. -/
theorem clients_echoed {s : World (net app)} (reached : (machine code).Reachable s)
    {task : Spawned (net app)} (member : task ∈ s.tasks) (client : task.fn = .handleClient)
    {status : Status (net app)} (has : s.HasStatus code task.handle status) :
    ∃ dialogue : Dialogue (net app), Held code s task status dialogue ∧
      (outside.observer.Expects (.boot ()) dialogue →
        KeepsTo (Fit Ask.listens task.env.socket) (Served task.env.socket)
          (outside.observer.after (.boot ()) dialogue) status) :=
  (refines_of_reachable reached).dialogue_void member (by rw [client]; rfl) has
    (handleClient_meets (fun _ listens => listens) rfl readsFor_asyncRead rfl rfl)

def echoRun : List (Act (net app)) :=
  .spawn Fn.handleClient (⟨7, 0, [], 0, 0, [], .done, ()⟩ : Locals Unit) :: List.replicate 8 .tick ++
  tells 1 [(.done, 7), (.bytes [104, 105], 12)] ++ tells 0 [(.bytes [104, 105], 12)] ++
  tells 2 [(.done, 11), (.count 2, 18)] ++ tells 3 [(.done, 7)]

theorem clients_echoed_once : ∃ s task,
    (machine code).exec (.boot (net app)) echoRun = some s ∧ task ∈ s.tasks ∧
      ∃ dialogue, Held code s task (.blocked (.recv 7 4096)) dialogue ∧
        (outside.observer.Expects (.boot ()) dialogue →
          KeepsTo (L := net app) (Fit Ask.listens task.env.socket) (Served task.env.socket)
            (outside.observer.after (.boot ()) dialogue) (.blocked (.recv 7 4096))) := by
  have waits : ((machine code).exec (.boot (net app)) echoRun).any
      (fun s => s.waitsAt 3 = some (0, .recv 7 4096) &&
        (0, Fn.handleClient) ∈ s.tasks.map fun task => (task.handle, task.fn)) = true := by
    decide +kernel
  obtain ⟨s, task, replay, reached, member, client, waits⟩ := waits_of_run waits
  exact ⟨s, task, replay, member, clients_echoed reached member client waits⟩

/-- The same with edge-triggered reads, which wait only when everything has been sent back. -/
theorem clients_echoed_et {s : World (net app)} (reached : (machine codeEt).Reachable s)
    {task : Spawned (net app)} (member : task ∈ s.tasks) (client : task.fn = .handleClient)
    {status : Status (net app)} (has : s.HasStatus codeEt task.handle status) :
    ∃ dialogue : Dialogue (net app), Held codeEt s task status dialogue ∧
      (outside.observer.Expects (.boot ()) dialogue →
        KeepsTo (Fit waitsForInput task.env.socket) (Served task.env.socket)
          (outside.observer.after (.boot ()) dialogue) status) := by
  refine (refines_of_reachable reached).dialogue_void member (by rw [client]; rfl) has
    (handleClient_meets (fun question waits => ?_) rfl readsFor_asyncReadEt rfl rfl)
  cases question with
  | ready socket direction edgeTrigger =>
    cases direction with
    | read => rfl
    | write => cases waits
  | _ => cases waits

def echoEtRun : List (Act (net app)) :=
  .spawn Fn.handleClient (⟨7, 0, [], 0, 0, [], .done, ()⟩ : Locals Unit) :: List.replicate 8 .tick ++
  tells 1 [(.done, 10), (.bytes [104, 105], 8), (.failed .EAGAIN, 14)] ++
  tells 0 [(.bytes [104, 105], 12)] ++ tells 2 [(.done, 11), (.count 2, 18)] ++
  tells 3 [(.done, 10), (.failed .EAGAIN, 8)]

theorem clients_echoed_et_once : ∃ s task,
    (machine codeEt).exec (.boot (net app)) echoEtRun = some s ∧ task ∈ s.tasks ∧
      ∃ dialogue, Held codeEt s task (.blocked (.ready 7 .read true)) dialogue ∧
        (outside.observer.Expects (.boot ()) dialogue →
          KeepsTo (L := net app) (Fit waitsForInput task.env.socket) (Served task.env.socket)
            (outside.observer.after (.boot ()) dialogue) (.blocked (.ready 7 .read true))) := by
  have waits : ((machine codeEt).exec (.boot (net app)) echoEtRun).any
      (fun s => s.waitsAt 3 = some (0, .ready 7 .read true) &&
        (0, Fn.handleClient) ∈ s.tasks.map fun task => (task.handle, task.fn)) = true := by
    decide +kernel
  obtain ⟨s, task, replay, reached, member, client, waits⟩ := waits_of_run waits
  exact ⟨s, task, replay, member, clients_echoed_et reached member client waits⟩

end CoroEpoll.Servers.Echo
