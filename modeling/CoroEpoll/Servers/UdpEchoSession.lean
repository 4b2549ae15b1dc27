import CoroEpoll.Servers.Accepting
import CoroEpoll.Servers.UdpEcho

/-! The UDP echo servers answer each datagram once. -/

set_option autoImplicit false

namespace CoroEpoll.Servers.UdpEcho

open Routines Text CoroEpoll.Task

variable {program : Fn → Routine (net app)} {fit : Ask Question → Wire Traffic → Prop}
  {s : Locals Own} {w : Wire Traffic} {post : Flow (net app) → Wire Traffic → Prop}

def receive (datagram : Datagram) (w : Wire Traffic) : Wire Traffic :=
  { w with own := { w.own with came := w.own.came ++ [datagram] } }

def sendOff (datagram : Datagram) (w : Wire Traffic) : Wire Traffic :=
  { w with own := { w.own with went := w.own.went ++ [datagram] } }

theorem asyncRecvFrom_meets (valid : fit (.ensureValid s.socket) w)
    (recvfrom : fit (.own (.recvfrom s.socket s.size)) w)
    (ready : fit (.ready s.socket .read false) w)
    (returns : ∀ payload sender, post (.returned (.own (.one payload sender)))
      (receive (payload, sender) w))
    (throws : ∀ error env, error.isStd = true → post (.threw error env) w.fail) :
    Meets program outside.observer fit asyncRecvFrom s w post := by
  refine Meets.seq (demand_meets rfl valid ?_ fun error std => throws error _ std)
  refine Meets.forever (fun env g => env.socket = s.socket ∧ env.size = s.size ∧ g = w)
    ⟨rfl, rfl, rfl⟩ ?_
  rintro env g ⟨socket, size, rfl⟩
  refine Meets.seq (Meets.wait (by rw [socket, size]; exact recvfrom) fun answer expected => ?_)
  obtain ⟨payload, sender, rfl, -⟩ | ⟨errno, rfl⟩ := expected
  · exact Meets.taken rfl (Meets.ret (returns payload sender))
  · refine Meets.untaken rfl ?_
    refine retry_meets rfl (fun _ => socket ▸ ready) (fun answer => ⟨socket, size, rfl⟩) ?_
    exact fun error answer std => throws error _ std

/-- `async_send_to` has sent its datagram once when it returns, and not at all when it waits
or throws. -/
theorem asyncSendTo_meets (valid : fit (.ensureValid s.socket) w)
    (sendto : fit (.own (.sendto s.socket s.buffer s.own.endpoint)) w)
    (ready : fit (.ready s.socket .write false) w)
    (returns : ∀ count, post (.returned (.count count)) (sendOff (s.buffer, s.own.endpoint) w))
    (throws : ∀ error env, error.isStd = true → post (.threw error env) w.fail) :
    Meets program outside.observer fit asyncSendTo s w post := by
  refine Meets.seq (demand_meets rfl valid ?_ fun error std => throws error _ std)
  refine Meets.forever (fun env g => env.socket = s.socket ∧ env.buffer = s.buffer ∧
    env.own.endpoint = s.own.endpoint ∧ g = w) ⟨rfl, rfl, rfl, rfl⟩ ?_
  rintro env g ⟨socket, buffer, endpoint, rfl⟩
  refine Meets.seq (Meets.wait (by rw [socket, buffer, endpoint]; exact sendto)
    fun answer expected => ?_)
  obtain ⟨count, rfl⟩ | ⟨errno, rfl⟩ := expected
  · have sent := returns count
    rw [← buffer, ← endpoint] at sent
    exact Meets.taken rfl (Meets.ret sent)
  · refine Meets.untaken rfl ?_
    refine retry_meets rfl (fun _ => socket ▸ ready)
      (fun answer => ⟨socket, buffer, endpoint, rfl⟩) ?_
    exact fun error answer std => throws error _ std

theorem submitAndSend_meets
    (sends : program .asyncSendTo = .value asyncSendTo fun _ => .count 0)
    (submit : fit (.own (.submit s.buffer)) w) (valid : fit (.ensureValid s.socket) w)
    (sendto : fit (.own (.sendto s.socket s.buffer s.own.endpoint)) w)
    (ready : fit (.ready s.socket .write false) w)
    (returns : ∀ env : Locals Own, env.socket = s.socket →
      post (.normal env) (sendOff (s.buffer, s.own.endpoint) w))
    (throws : ∀ error env, error.isStd = true → post (.threw error env) w.fail) :
    Meets program outside.observer fit submitAndSend s w post := by
  refine Meets.seq (Meets.seq (Meets.wait submit fun answer expected => ?_))
  obtain rfl | ⟨error, rfl, std⟩ := expected
  · refine Meets.untaken rfl <| Meets.skip (Meets.seq (Meets.assign (Meets.call ?_)))
    rw [sends]
    refine asyncSendTo_meets (s := { s with answer := .bytes s.buffer }) valid sendto ready ?_ ?_
    · exact fun count => returns _ rfl
    · exact fun error env std => throws error _ std
  · exact Meets.taken rfl (Meets.throw (throws error _ std))

/-! ## The plain server -/

/-- Every datagram so far has been answered, but those that are owed. -/
structure Answering (w : Wire Traffic) (owed : List Datagram) : Prop where
  came : w.own.came = w.own.went ++ owed
  going : w.stops = 0

def EchoFit (question : Ask Question) (w : Wire Traffic) : Prop :=
  match question with
  | .own (.recvfrom _ _) | .ready _ .read _ => Answering w []
  | .own (.sendto _ bytes endpoint) => Answering w [(bytes, endpoint)]
  | .stop => w.broken = true ∧ ∃ owed, owed.length ≤ 1 ∧ Answering w owed
  | _ => ∃ owed, owed.length ≤ 1 ∧ Answering w owed

structure Stopped (w : Wire Traffic) : Prop where
  came : ∃ owed, owed.length ≤ 1 ∧ w.own.came = w.own.went ++ owed
  broken : w.broken = true
  once : w.stops = 1

theorem udpEchoLoop_meets :
    Meets code outside.observer EchoFit udpEchoLoop s (.boot ⟨[], [], []⟩) (Quietly Stopped) := by
  have caught : ∀ error env (w : Wire Traffic) owed, error.isStd = true → w.broken = true →
      owed.length ≤ 1 → Answering w owed →
      Caught catches (fun env w => Meets code outside.observer EchoFit (ask fun _ => .stop) env w
        (Quietly Stopped)) (Quietly Stopped) (.threw error env) w := by
    intro error env w owed std broken one answering
    simp only [Caught, catches, std, if_true]
    refine Meets.wait ⟨broken, owed, one, answering⟩ fun answer expected => ?_
    have expected : answer = .done := expected
    subst expected
    exact ⟨⟨owed, one, answering.came⟩, broken, congrArg (· + 1) answering.going⟩
  refine Meets.attempt (Meets.forever (fun _ w => Answering w []) ⟨rfl, rfl⟩ ?_)
  intro env w answering
  refine Meets.seq (Meets.call (asyncRecvFrom_meets ⟨[], Nat.zero_le 1, answering⟩ answering
    answering (fun payload sender => ?_) fun error _ std => ?_))
  · have owed : Answering (receive (payload, sender) w) [(payload, sender)] :=
      ⟨by simp [receive, answering.came], answering.going⟩
    have pending : ∃ owed : List Datagram, owed.length ≤ 1 ∧
        Answering (receive (payload, sender) w) owed := ⟨[(payload, sender)], Nat.le_refl 1, owed⟩
    refine submitAndSend_meets (s := { env with
      buffer := payload, own := { env.own with endpoint := sender } }) rfl
      pending pending owed pending ?_ ?_
    · intro env' _
      exact ⟨by simp [sendOff, owed.came], owed.going⟩
    · exact fun error _ std => caught error _ _ [(payload, sender)] std rfl (Nat.le_refl 1)
        ⟨owed.came, owed.going⟩
  · exact caught error _ _ [] std rfl (Nat.zero_le 1) ⟨answering.came, answering.going⟩

/-- On a loop with any number of tasks, the UDP server answers the datagrams in the order in
which they came, each once and to its sender, before it receives the next one. -/
theorem datagrams_answered {s : World (net app)} (reached : (machine code).Reachable s)
    {task : Spawned (net app)} (member : task ∈ s.tasks) (server : task.fn = .udpEchoLoop)
    {status : Status (net app)} (has : s.HasStatus code task.handle status) :
    ∃ dialogue : Dialogue (net app), Held code s task status dialogue ∧
      (outside.observer.Expects (.boot ⟨[], [], []⟩) dialogue →
        KeepsTo EchoFit Stopped (outside.observer.after (.boot ⟨[], [], []⟩) dialogue) status) :=
  (refines_of_reachable reached).dialogue_void member (by rw [server]; rfl) has udpEchoLoop_meets

def someLocals : Locals Own := ⟨4, 0, [104, 105], 0, 0, [], .done, ⟨⟨1, 2⟩, []⟩⟩

def answerRun : List (Act (net app)) :=
  .spawn Fn.udpEchoLoop someLocals :: List.replicate 8 .tick ++
  tells 1 [(.done, 7), (.datagram [104, 105] ⟨1, 2⟩, 11)] ++ tells 0 [(.bytes [104, 105], 12)] ++
  tells 2 [(.done, 7), (.count 2, 15)] ++ tells 3 [(.done, 7)]

theorem datagrams_answered_once : ∃ s task,
    (machine code).exec (.boot (net app)) answerRun = some s ∧ task ∈ s.tasks ∧
      ∃ dialogue, Held code s task (.blocked (.own (.recvfrom 4 4096))) dialogue ∧
        (outside.observer.Expects (.boot ⟨[], [], []⟩) dialogue →
          KeepsTo (L := net app) EchoFit Stopped
            (outside.observer.after (.boot ⟨[], [], []⟩) dialogue) (.blocked (.own (.recvfrom 4 4096)))) := by
  have waits : ((machine code).exec (.boot (net app)) answerRun).any
      (fun s => s.waitsAt 3 = some (0, (.own (.recvfrom 4 4096))) &&
        (0, Fn.udpEchoLoop) ∈ s.tasks.map fun task => (task.handle, task.fn)) = true := by
    decide +kernel
  obtain ⟨s, task, replay, reached, member, server, waits⟩ := waits_of_run waits
  exact ⟨s, task, replay, member, datagrams_answered reached member server waits⟩

/-! ## The edge-triggered server -/

def shape (datagram : Datagram) : Nat × UdpEndpoint := (datagram.1.length, datagram.2)

structure Spawning (w : Wire Traffic) (left : List (Nat × UdpEndpoint)) : Prop where
  came : w.own.came.map shape = w.own.spawned.map shape ++ left
  going : w.stops = 0

def EchoEtFit (question : Ask Question) (w : Wire Traffic) : Prop :=
  match question with
  | .ensureValid _ | .ready _ _ _ => Spawning w []
  | .own (.recvfrom _ _) => ∃ left, Spawning w left
  | .own (.spawnDatagram input endpoint) => ∃ left, Spawning w ((input.length, endpoint) :: left)
  | .stop => w.broken = true ∧ ∃ left, Spawning w left
  | _ => False

structure StoppedEt (w : Wire Traffic) : Prop where
  came : ∃ left, w.own.came.map shape = w.own.spawned.map shape ++ left
  broken : w.broken = true
  once : w.stops = 1

def Fits (buffer : Bytes) (results : List UdpReceiveResult) : Prop :=
  ∀ received ∈ results, received.size ≤ buffer.length

def shapes (results : List UdpReceiveResult) : List (Nat × UdpEndpoint) :=
  results.map fun received => (received.size, received.endpoint)

theorem asyncRecvFromEt_meets (spawning : Spawning w [])
    (returns : ∀ buffer results g, Fits buffer results → Spawning g (shapes results) →
      post (.returned (.own (.all buffer results))) g)
    (throws : ∀ error env g left, error.isStd = true → g.broken = true → Spawning g left →
      post (.threw error env) g) :
    Meets program outside.observer EchoEtFit asyncRecvFromEt s w post := by
  refine Meets.seq (demand_meets rfl spawning (Meets.seq (Meets.assign ?_)) fun error std =>
    throws error _ _ [] std rfl ⟨spawning.came, spawning.going⟩)
  refine Meets.forever (fun env g => Fits env.buffer env.own.results ∧
    Spawning g (shapes env.own.results)) ⟨by simp [Fits], spawning⟩ ?_
  rintro env g ⟨fits, spawning⟩
  refine Meets.seq (Meets.wait ⟨_, spawning⟩ fun answer expected => ?_)
  obtain ⟨payload, sender, rfl, -⟩ | ⟨errno, rfl⟩ := expected
  · refine Meets.taken rfl (Meets.assign ⟨?_, ?_, spawning.going⟩)
    · intro received member
      simp only [Buffer.copy, List.length_append, List.length_drop]
      rcases List.mem_append.mp member with before | now
      · have within := fits received before
        omega
      · cases List.mem_singleton.mp now
        exact Nat.le_add_right ..
    · show (g.own.came ++ [(payload, sender)]).map shape = _
      rw [List.map_append, spawning.came]
      simp [shapes, shape, outside, Outside.observer, Outside.noteAsk, Outside.failsOn, Answer.fails]
  · refine Meets.untaken rfl <| Meets.branch (fun drained => Meets.ret ?_) fun waits => ?_
    · simp only [decide_eq_true_eq] at drained
      obtain ⟨_, blocked⟩ := drained
      cases blocked
      exact returns _ _ _ fits spawning
    · refine retry_meets rfl (fun blocked => ?_) (fun answer => ⟨fits, spawning⟩)
        fun error answer std => throws error _ _ _ std rfl ⟨spawning.came, spawning.going⟩
      subst blocked
      have nothing : env.own.results = [] := by simpa [Answer.errno] using waits
      rw [nothing] at spawning
      exact spawning

theorem udpEchoLoopEt_meets :
    Meets codeEt outside.observer EchoEtFit udpEchoLoopEt s (.boot ⟨[], [], []⟩)
      (Quietly StoppedEt) := by
  have caught : ∀ error env (w : Wire Traffic) left, error.isStd = true → w.broken = true →
      Spawning w left →
      Caught catches (fun env w => Meets codeEt outside.observer EchoEtFit (ask fun _ => .stop) env w
        (Quietly StoppedEt)) (Quietly StoppedEt) (.threw error env) w := by
    intro error env w left std broken spawning
    simp only [Caught, catches, std, if_true]
    refine Meets.wait ⟨broken, left, spawning⟩ fun answer expected => ?_
    have expected : answer = .done := expected
    subst expected
    exact ⟨⟨left, spawning.came⟩, broken, congrArg (· + 1) spawning.going⟩
  refine Meets.attempt (Meets.forever (fun _ w => Spawning w []) ⟨rfl, rfl⟩ ?_)
  intro env w spawning
  refine Meets.seq (Meets.call (asyncRecvFromEt_meets spawning (fun buffer results g fits spawning => ?_)
    fun error _ g left std broken spawning => caught error _ g left std broken spawning))
  refine Meets.loop (fun env g => Fits env.buffer env.own.results ∧
    Spawning g (shapes env.own.results)) ⟨fits, spawning⟩ ?_ ?_
  · rintro env g ⟨fits, spawning⟩ something
    obtain ⟨received, results, split⟩ := List.exists_cons_of_ne_nil (of_decide_eq_true something)
    rw [split] at fits spawning
    have length : (env.buffer.take received.size).length = received.size :=
      List.length_take_of_le (fits received List.mem_cons_self)
    have pending : Spawning g (((env.buffer.take received.size).length, received.endpoint) ::
        shapes results) := by
      rw [length]
      exact spawning
    refine Meets.seq (Meets.seq (Meets.wait ?_ fun answer expected => ?_))
    · simp only [split]
      exact ⟨_, pending⟩
    simp only [split] at expected ⊢
    cases answer with
    | done =>
      refine Meets.untaken rfl <| Meets.skip (Meets.assign ⟨?_, ?_, pending.going⟩)
      · intro other member
        exact fits other (List.mem_cons_of_mem _ (by simpa [split] using member))
      · show g.own.came.map shape = (g.own.spawned ++ [(_, received.endpoint)]).map shape ++ _
        rw [pending.came]
        simp [split, shapes, shape]
    | threw error =>
      exact Meets.taken rfl (Meets.throw (caught error _ _ _ expected rfl
        ⟨pending.came, pending.going⟩))
    | bytes | datagram | count | descriptor | failed => cases expected
  · rintro env g ⟨_, spawning⟩ nothing
    have nothing : env.own.results = [] := by simpa using nothing
    rw [nothing] at spawning
    exact spawning

/-- The edge-triggered server spawns one coroutine for every datagram, in the order in which
they came, with the right sender and the right number of bytes. -/
theorem datagrams_spawned_for {s : World (net app)} (reached : (machine codeEt).Reachable s)
    {task : Spawned (net app)} (member : task ∈ s.tasks) (server : task.fn = .udpEchoLoop)
    {status : Status (net app)} (has : s.HasStatus codeEt task.handle status) :
    ∃ dialogue : Dialogue (net app), Held codeEt s task status dialogue ∧
      (outside.observer.Expects (.boot ⟨[], [], []⟩) dialogue →
        KeepsTo EchoEtFit StoppedEt (outside.observer.after (.boot ⟨[], [], []⟩) dialogue)
          status) :=
  (refines_of_reachable reached).dialogue_void member (by rw [server]; rfl) has udpEchoLoopEt_meets

def spawnRun : List (Act (net app)) :=
  .spawn Fn.udpEchoLoop someLocals :: List.replicate 8 .tick ++
  tells 1 [(.done, 10), (.datagram [104, 105] ⟨1, 2⟩, 7), (.datagram [106] ⟨1, 3⟩, 7),
    (.failed .EAGAIN, 13)] ++ tells 0 [(.done, 10)]

theorem datagrams_spawned_for_two : ∃ s task,
    (machine codeEt).exec (.boot (net app)) spawnRun = some s ∧ task ∈ s.tasks ∧
      ∃ dialogue, Held codeEt s task (.blocked (.own (.spawnDatagram [106] ⟨1, 3⟩))) dialogue ∧
        (outside.observer.Expects (.boot ⟨[], [], []⟩) dialogue →
          KeepsTo (L := net app) EchoEtFit StoppedEt
            (outside.observer.after (.boot ⟨[], [], []⟩) dialogue)
            (.blocked (.own (.spawnDatagram [106] ⟨1, 3⟩)))) := by
  have waits : ((machine codeEt).exec (.boot (net app)) spawnRun).any
      (fun s => s.waitsAt 0 = some (0, (.own (.spawnDatagram [106] ⟨1, 3⟩))) &&
        (0, Fn.udpEchoLoop) ∈ s.tasks.map fun task => (task.handle, task.fn)) = true := by
    decide +kernel
  obtain ⟨s, task, replay, reached, member, server, waits⟩ := waits_of_run waits
  exact ⟨s, task, replay, member, datagrams_spawned_for reached member server waits⟩

/-- A coroutine that was spawned for a datagram sends it when everything else is done, or has
sent nothing. -/
def Handles (datagram : Datagram) (w : Wire Traffic) : Status (net app) → Prop
  | .blocked question => w.own.went = [] ∧
      ∀ socket bytes endpoint, question = .own (.sendto socket bytes endpoint) →
        (bytes, endpoint) = datagram
  | .ended (.returned _) => w.own.went = [datagram] ∧ w.broken = false
  | .ended (.threw _) => w.own.went = [] ∧ w.broken = true

/-- Each such coroutine answers its datagram once, and not if anything throws. -/
theorem datagram_handled {s : World (net app)} (reached : (machine codeEt).Reachable s)
    {task : Spawned (net app)} (member : task ∈ s.tasks) (handler : task.fn = .handleDatagram)
    {status : Status (net app)} (has : s.HasStatus codeEt task.handle status) :
    ∃ dialogue : Dialogue (net app), Held codeEt s task status dialogue ∧
      (outside.observer.Expects (.boot ⟨[], [], []⟩) dialogue →
        Handles (task.env.buffer, task.env.own.endpoint)
          (outside.observer.after (.boot ⟨[], [], []⟩) dialogue) status) := by
  have meets : Meets codeEt outside.observer
      (fun question w => Handles (task.env.buffer, task.env.own.endpoint) w (.blocked question))
      (codeEt task.fn).body task.env (.boot ⟨[], [], []⟩) fun flow w =>
        Handles (task.env.buffer, task.env.own.endpoint) w (.ended ((codeEt task.fn).outcome flow)) := by
    rw [handler]
    refine submitAndSend_meets rfl ⟨rfl, by simp⟩ ⟨rfl, by simp⟩ ⟨rfl, ?_⟩ ⟨rfl, by simp⟩ ?_ ?_
    · rintro socket bytes endpoint ⟨⟩
      rfl
    · exact fun env _ => ⟨rfl, rfl⟩
    · exact fun error env std => ⟨rfl, rfl⟩
  obtain ⟨dialogue, held, met⟩ := (refines_of_reachable reached).dialogue member has meets
  refine ⟨dialogue, held, fun expected => ?_⟩
  have met := met expected
  cases status with
  | blocked question => exact met
  | ended outcome =>
    obtain ⟨flow, rfl, handles⟩ := met
    exact handles

def handleRun : List (Act (net app)) :=
  .spawn Fn.handleDatagram someLocals :: List.replicate 3 .tick ++
  tells 0 [(.bytes [104, 105], 12)] ++ tells 1 [(.done, 7)]

theorem datagram_handled_once : ∃ s task,
    (machine codeEt).exec (.boot (net app)) handleRun = some s ∧ task ∈ s.tasks ∧
      ∃ dialogue, Held codeEt s task (.blocked (.own (.sendto 4 [104, 105] ⟨1, 2⟩))) dialogue ∧
        (outside.observer.Expects (.boot ⟨[], [], []⟩) dialogue →
          Handles (task.env.buffer, task.env.own.endpoint)
            (outside.observer.after (.boot ⟨[], [], []⟩) dialogue)
            (.blocked (.own (.sendto 4 [104, 105] ⟨1, 2⟩)))) := by
  have waits : ((machine codeEt).exec (.boot (net app)) handleRun).any
      (fun s => s.waitsAt 1 = some (0, (.own (.sendto 4 [104, 105] ⟨1, 2⟩))) &&
        (0, Fn.handleDatagram) ∈ s.tasks.map fun task => (task.handle, task.fn)) = true := by
    decide +kernel
  obtain ⟨s, task, replay, reached, member, handler, waits⟩ := waits_of_run waits
  exact ⟨s, task, replay, member, datagram_handled reached member handler waits⟩

end CoroEpoll.Servers.UdpEcho
