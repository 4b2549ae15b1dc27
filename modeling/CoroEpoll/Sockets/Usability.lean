import CoroEpoll.Sockets.SetUp

/-! Runs of `TcpServer::listen` and `UdpSocket::bind`, with `close` in between: which objects
count as valid, and which descriptors stay open.
-/

set_option autoImplicit false

namespace CoroEpoll.Usability

structure History where
  /-- its latest set-up completed all its steps, and no close followed -/
  ready : Bool
  /-- the files opened by its set-ups that threw -/
  abandoned : List Nat

structure World (K : Type) where
  process : Process K
  server : TcpServer
  listens : History
  udp : UdpSocket
  binds : History

inductive Act where
  | listen (port : BitVec 16) (backlog : Int) (reusePort : Bool) (answers : Answers)
  | closeServer
  | bind (port : BitVec 16) (reusePort : Bool) (answers : Answers)
  | closeUdp

def openedBetween {K : Type} (before after : Process K) : List Nat :=
  List.range' before.opened (after.opened - before.opened)

def History.setUp {S K : Type} (history : History) (completes : Bool) (before : Process K)
    (result : SetUp S K) : History where
  ready := completes
  abandoned :=
    match result.thrown with
    | some _ => history.abandoned ++ openedBetween before result.process
    | none => history.abandoned

def History.close (history : History) : History := { history with ready := false }

variable {K Ev Env : Type} (B : Backend K Ev Env) (platform : Platform)

def step (s : World K) : Act → Option (World K)
  | .listen port backlog reusePort answers =>
    if answers.possible (s.server.close B s.process).2 then
      let result := s.server.listen platform B port backlog reusePort answers s.process
      let completes := TcpServer.completes platform port backlog reusePort answers
      some { s with
        process := result.process
        server := result.socket
        listens := s.listens.setUp completes s.process result }
    else none
  | .closeServer =>
    let (server, process) := s.server.close B s.process
    some { s with process, server, listens := s.listens.close }
  | .bind port reusePort answers =>
    if answers.possible (s.udp.close B s.process).2 then
      let result := s.udp.bind platform B port reusePort answers s.process
      let completes := UdpSocket.completes platform port reusePort answers
      some { s with
        process := result.process
        udp := result.socket
        binds := s.binds.setUp completes s.process result }
    else none
  | .closeUdp =>
    let (udp, process) := s.udp.close B s.process
    some { s with process, udp, binds := s.binds.close }

structure Start (s : World K) : Prop where
  files : ∀ fd, s.process.files fd = none
  opened : s.process.opened = 0
  closings : s.process.closings = []
  server : ∃ l, s.server = ⟨some l, -1⟩
  udp : ∃ l, s.udp = ⟨some l, -1⟩
  listens : s.listens = ⟨false, []⟩
  binds : s.binds = ⟨false, []⟩

def machine : Transition.Machine (World K) Act where
  start := Start
  step := step B platform

/-- An object is valid exactly when its set-up succeeded, and the files of its failed set-ups
have been closed once. -/
structure Right (valid : Option Exception) (history : History) (process : Process K) : Prop where
  valid_iff : valid = none ↔ history.ready = true
  closed : ∀ n ∈ history.abandoned, process.closed.count n = 1

def ServerRight (s : World K) : Prop := Right s.server.ensureValid s.listens s.process

def UdpRight (s : World K) : Prop := Right s.udp.ensureValid s.binds s.process

/-- A listen fails in no step after which it leaves the descriptor open. -/
def FailsClean (_ : World K) : Act → Prop
  | .listen port backlog reusePort answers =>
    TcpServer.failsClean platform port backlog reusePort answers = true
  | .closeServer | .bind .. | .closeUdp => True

/-! ## What `close` and a set-up do to a process -/

/-- What closing the descriptor of an object does; nothing when it is negative. -/
structure Closes (fd : Fd) (p q : Process K) : Prop where
  sound : p.Sound → q.Sound
  opened : q.opened = p.opened
  files : ∀ fd', q.files fd' = if 0 ≤ fd ∧ fd' = fd then none else p.files fd'
  kept : ∀ n, n ∈ p.closed → n ∈ q.closed

namespace Closes

theorem skip {fd : Fd} (negative : ¬ 0 ≤ fd) (p : Process K) : Closes fd p p where
  sound := id
  opened := rfl
  files fd' := by rw [if_neg (fun both => negative both.1)]
  kept _ := id

variable {B}

theorem server (server : TcpServer) (p : Process K) : Closes server.fd p (server.close B p).2 := by
  unfold TcpServer.close
  split
  · rename_i valid
    refine ⟨fun sound => (sound.closeFd _).remove B _ _, by simp, fun fd' => ?_, fun n member => ?_⟩
    · simp [Process.files_closeFd, valid]
    · rw [Process.closed_remove, Process.closed_closeFd]
      exact List.mem_append_left _ member
  · rename_i negative
    exact skip negative p

theorem udp (socket : UdpSocket) (p : Process K) : Closes socket.fd p (socket.close B p).2 := by
  unfold UdpSocket.close
  split
  · rename_i valid
    refine ⟨fun sound => (sound.remove B _ _).closeFd _, by simp, fun fd' => ?_, fun n member => ?_⟩
    · simp [Process.files_closeFd, valid]
    · rw [Process.closed_closeFd, Process.closed_remove]
      exact List.mem_append_left _ member
  · rename_i negative
    exact skip negative p

end Closes

def Holds (fd : Fd) (p : Process K) : Prop := 0 ≤ fd → p.files fd ≠ none

def Apart (fd other : Fd) : Prop := 0 ≤ fd → fd ≠ other

theorem Apart.symm {fd other : Fd} (apart : Apart fd other) : Apart other fd := by
  intro valid same
  exact apart (same ▸ valid) same.symm

theorem Closes.holds {fd other : Fd} {p q : Process K} (closes : Closes fd p q)
    (apart : Apart fd other) (holds : Holds other p) : Holds other q := by
  intro valid
  rw [closes.files, if_neg]
  · exact holds valid
  · intro both
    exact apart both.1 both.2.symm

section
variable {completes failsClean : Bool} {fd : Fd} {p q : Process K} {thrown : Option Exception}
  (outcome : SetUp.Outcome p completes failsClean fd q thrown)
include outcome

theorem outcome_sound (sound : p.Sound) : q.Sound := by
  cases outcome with
  | refused error => exact sound
  | undone free error => exact (sound.openFd (Process.free_iff.mp free).2).closeFd _
  | abandoned free error | completed free => exact sound.openFd (Process.free_iff.mp free).2

theorem outcome_kept {n : Nat} (member : n ∈ p.closed) : n ∈ q.closed := by
  cases outcome with
  | refused error | abandoned free error | completed free => exact member
  | undone free error =>
    rw [Process.closed_closeFd]
    exact List.mem_append_left _ member

theorem outcome_holds : Holds fd q := by
  intro valid
  cases outcome with
  | refused error | undone free error => exact absurd valid (by decide)
  | abandoned free error | completed free => simp [Process.files_openFd]

theorem outcome_other {other : Fd} (holds : Holds other p) :
    Holds other q ∧ Apart other fd := by
  suffices both : ∀ valid : 0 ≤ other, q.files other ≠ none ∧ other ≠ fd from
    ⟨fun valid => (both valid).1, fun valid => (both valid).2⟩
  intro valid
  have isOpen := holds valid
  have negative : other ≠ -1 := Int.ne_of_gt (Int.lt_of_lt_of_le (by decide) valid)
  have different : ∀ {fresh : Fd}, p.free fresh = true → other ≠ fresh := by
    intro fresh free same
    exact isOpen (same ▸ (Process.free_iff.mp free).2)
  cases outcome with
  | refused error => exact ⟨isOpen, negative⟩
  | undone free error =>
    rw [Process.files_closeFd, if_neg (different free), Process.files_openFd,
      if_neg (different free)]
    exact ⟨isOpen, negative⟩
  | abandoned free error | completed free =>
    rw [Process.files_openFd, if_neg (different free)]
    exact ⟨isOpen, different free⟩

end

/-! ## One call -/

/-- `Right` in terms of the descriptor alone. -/
structure Kept (fd : Fd) (history : History) (p : Process K) : Prop where
  valid_iff : 0 ≤ fd ↔ history.ready = true
  closed : ∀ n ∈ history.abandoned, n ∈ p.closed

theorem right_iff_kept {valid : Option Exception} {fd : Fd} {history : History} {p : Process K}
    (sound : p.Sound) (valid_iff : valid = none ↔ 0 ≤ fd) :
    Right valid history p ↔ Kept fd history p := by
  constructor
  · intro right
    refine ⟨valid_iff.symm.trans right.valid_iff, fun n member => ?_⟩
    apply List.count_pos_iff.mp
    rw [right.closed n member]
    exact Nat.one_pos
  · intro kept
    exact ⟨valid_iff.trans kept.valid_iff, fun n member => sound.count_closed (kept.closed n member)⟩

theorem Kept.later {fd : Fd} {history : History} {p q : Process K} (kept : Kept fd history p)
    (grows : ∀ n, n ∈ p.closed → n ∈ q.closed) : Kept fd history q :=
  ⟨kept.valid_iff, fun n member => grows n (kept.closed n member)⟩

theorem openedBetween_none {p q : Process K} (same : q.opened = p.opened) :
    openedBetween p q = [] := by
  simp [openedBetween, same]

theorem openedBetween_one {p q : Process K} (next : q.opened = p.opened + 1) :
    openedBetween p q = [p.opened] := by
  simp [openedBetween, next]

theorem kept_setUp_iff {S : Type} {fd : Fd} {history : History} {p q after : Process K}
    (kept : Kept fd history p) (closes : Closes fd p q) {completes failsClean : Bool} {fd' : Fd}
    {thrown : Option Exception} (outcome : SetUp.Outcome q completes failsClean fd' after thrown)
    (socket : S) :
    Kept fd' (history.setUp completes p ⟨socket, after, thrown⟩) after ↔ failsClean = true := by
  have earlier : ∀ n ∈ history.abandoned, n ∈ after.closed := fun n member =>
    outcome_kept outcome (closes.kept n (kept.closed n member))
  cases outcome with
  | refused error =>
    simp only [iff_true]
    refine ⟨by simp [History.setUp], fun n member => ?_⟩
    simp only [History.setUp, openedBetween_none closes.opened, List.append_nil] at member
    exact earlier n member
  | @undone fd free error =>
    have next : ((q.openFd fd).closeFd fd).opened = p.opened + 1 := by simp [closes.opened]
    simp only [iff_true]
    refine ⟨by simp [History.setUp], fun n member => ?_⟩
    simp only [History.setUp, openedBetween_one next, List.mem_append, List.mem_singleton] at member
    rcases member with old | new
    · exact earlier n old
    · rw [new, ← closes.opened, Process.closed_closeFd, Process.files_openFd]
      simp
  | abandoned free error =>
    simp only [Bool.false_eq_true, iff_false]
    intro wrong
    have ready := wrong.valid_iff.mp (Process.free_iff.mp free).1
    simp [History.setUp] at ready
  | completed free =>
    simp only [iff_true]
    exact ⟨by simpa [History.setUp] using (Process.free_iff.mp free).1, earlier⟩

/-- A call on an object that leaves its descriptor behind unless it is clean. -/
inductive Call (fd : Fd) (history : History) (p : Process K) :
    (clean : Bool) → Fd → History → Process K → Prop where
  | setUp {S : Type} {q after : Process K} {completes clean : Bool} {fd' : Fd}
      {thrown : Option Exception} (closes : Closes fd p q)
      (outcome : SetUp.Outcome q completes clean fd' after thrown) (socket : S) :
      Call fd history p clean fd' (history.setUp completes p ⟨socket, after, thrown⟩) after
  | close {q : Process K} {fd' : Fd} (closes : Closes fd p q) (negative : ¬ 0 ≤ fd') :
      Call fd history p true fd' history.close q

namespace Call

variable {fd fd' other : Fd} {history history' : History} {p q : Process K} {clean : Bool}

theorem sound (call : Call fd history p clean fd' history' q) (sound : p.Sound) : q.Sound := by
  cases call with
  | setUp closes outcome socket => exact outcome_sound outcome (closes.sound sound)
  | close closes negative => exact closes.sound sound

theorem holds (call : Call fd history p clean fd' history' q) : Holds fd' q := by
  cases call with
  | setUp closes outcome socket => exact outcome_holds outcome
  | close closes negative => exact fun valid => absurd valid negative

theorem apart_holds (call : Call fd history p clean fd' history' q) (apart : Apart fd other)
    (holds : Holds other p) : Holds other q ∧ Apart fd' other := by
  cases call with
  | setUp closes outcome socket =>
    obtain ⟨holds, apart⟩ := outcome_other outcome (closes.holds apart holds)
    exact ⟨holds, apart.symm⟩
  | close closes negative =>
    exact ⟨closes.holds apart holds, fun valid => absurd valid negative⟩

theorem grows (call : Call fd history p clean fd' history' q) {n : Nat} (member : n ∈ p.closed) :
    n ∈ q.closed := by
  cases call with
  | setUp closes outcome socket => exact outcome_kept outcome (closes.kept n member)
  | close closes negative => exact closes.kept n member

theorem kept_iff (call : Call fd history p clean fd' history' q) (kept : Kept fd history p) :
    Kept fd' history' q ↔ clean = true := by
  cases call with
  | setUp closes outcome socket => exact kept_setUp_iff kept closes outcome socket
  | close closes negative =>
    simp only [iff_true]
    refine ⟨by simp [History.close, negative], fun n member => ?_⟩
    exact closes.kept n (kept.closed n member)

end Call

/-! ## A run -/

structure Inv (s : World K) : Prop where
  sound : s.process.Sound
  serverLoop : s.server.loop ≠ none
  udpLoop : s.udp.loop ≠ none
  server : Holds s.server.fd s.process
  udp : Holds s.udp.fd s.process
  apart : Apart s.server.fd s.udp.fd

theorem Start.inv {s : World K} (start : Start s) : Inv s := by
  obtain ⟨l, server⟩ := start.server
  obtain ⟨l', udp⟩ := start.udp
  constructor
  · constructor
    · simp [start.files]
    · simp [start.files]
    · simp [Process.closed, start.closings]
    · simp [Process.closed, start.closings, start.opened]
  · simp [server]
  · simp [udp]
  · simp [server, Holds]
  · simp [udp, Holds]
  · simp [server, Apart]

theorem Start.right {s : World K} (start : Start s) : ServerRight s ∧ UdpRight s := by
  obtain ⟨l, server⟩ := start.server
  obtain ⟨l', udp⟩ := start.udp
  constructor
  · constructor
    · simp [server, start.listens, TcpServer.ensureValid]
    · simp [start.listens]
  · constructor
    · simp [udp, start.binds, UdpSocket.ensureValid]
    · simp [start.binds]

theorem Inv.serverRight_iff {s : World K} (inv : Inv s) :
    ServerRight s ↔ Kept s.server.fd s.listens s.process :=
  right_iff_kept inv.sound (TcpServer.ensureValid_iff inv.serverLoop)

theorem Inv.udpRight_iff {s : World K} (inv : Inv s) :
    UdpRight s ↔ Kept s.udp.fd s.binds s.process :=
  right_iff_kept inv.sound (UdpSocket.ensureValid_iff inv.udpLoop)

inductive Effect (s t : World K) (cleanly : Prop) : Prop where
  | server (clean : Bool)
      (call : Call s.server.fd s.listens s.process clean t.server.fd t.listens t.process)
      (cleanly_iff : cleanly ↔ clean = true) (loop : t.server.loop = s.server.loop)
      (udp : t.udp = s.udp) (binds : t.binds = s.binds)
  | udp (call : Call s.udp.fd s.binds s.process true t.udp.fd t.binds t.process)
      (clean : cleanly) (loop : t.udp.loop = s.udp.loop) (server : t.server = s.server)
      (listens : t.listens = s.listens)

variable {B} {platform}

theorem negative_close_server (server : TcpServer) (p : Process K) :
    ¬ 0 ≤ (server.close B p).1.fd := by
  unfold TcpServer.close
  split
  · simp
  · assumption

theorem negative_close_udp (socket : UdpSocket) (p : Process K) :
    ¬ 0 ≤ (socket.close B p).1.fd := by
  unfold UdpSocket.close
  split
  · simp
  · assumption

theorem step_effect {s t : World K} {a : Act} (step : step B platform s a = some t) :
    Effect s t (FailsClean platform s a) := by
  cases a with
  | listen port backlog reusePort answers =>
    simp only [Usability.step, Option.ite_none_right_eq_some, Option.some.injEq] at step
    obtain ⟨possible, rfl⟩ := step
    obtain ⟨loop, outcome⟩ := TcpServer.listen_outcome platform port backlog reusePort possible
    exact .server _ (.setUp (.server s.server s.process) outcome _) Iff.rfl loop rfl rfl
  | closeServer =>
    cases Option.some.inj step
    have negative := negative_close_server (B := B) s.server s.process
    have loop := TcpServer.loop_close (B := B) s.server s.process
    exact .server true (.close (.server s.server s.process) negative) (by simp [FailsClean]) loop
      rfl rfl
  | bind port reusePort answers =>
    simp only [Usability.step, Option.ite_none_right_eq_some, Option.some.injEq] at step
    obtain ⟨possible, rfl⟩ := step
    obtain ⟨loop, outcome⟩ := UdpSocket.bind_outcome platform port reusePort possible
    exact .udp (.setUp (.udp s.udp s.process) outcome _) trivial loop rfl rfl
  | closeUdp =>
    cases Option.some.inj step
    have negative := negative_close_udp (B := B) s.udp s.process
    have loop := UdpSocket.loop_close (B := B) s.udp s.process
    exact .udp (.close (.udp s.udp s.process) negative) trivial loop rfl rfl

theorem Inv.step {s t : World K} {a : Act} (inv : Inv s) (step : step B platform s a = some t) :
    Inv t := by
  cases step_effect step with
  | server clean call cleanly_iff loop udp binds =>
    have kept := call.apart_holds inv.apart inv.udp
    rw [← udp] at kept
    exact ⟨call.sound inv.sound, loop.trans_ne inv.serverLoop, udp ▸ inv.udpLoop, call.holds,
      kept.1, kept.2⟩
  | udp call clean loop server listens =>
    have kept := call.apart_holds inv.apart.symm inv.server
    rw [← server] at kept
    exact ⟨call.sound inv.sound, server ▸ inv.serverLoop, loop.trans_ne inv.udpLoop, kept.1,
      call.holds, kept.2.symm⟩

theorem server_step {s t : World K} {a : Act} (inv : Inv s) (right : ServerRight s)
    (step : step B platform s a = some t) : ServerRight t ↔ FailsClean platform s a := by
  have kept := inv.serverRight_iff.mp right
  rw [(inv.step step).serverRight_iff]
  cases step_effect step with
  | server clean call cleanly_iff loop udp binds => rw [call.kept_iff kept, cleanly_iff]
  | udp call clean loop server listens =>
    rw [server, listens]
    simp only [clean, iff_true]
    exact kept.later fun n => call.grows

theorem udp_step {s t : World K} {a : Act} (inv : Inv s) (right : UdpRight s)
    (step : step B platform s a = some t) : UdpRight t := by
  have kept := inv.udpRight_iff.mp right
  rw [(inv.step step).udpRight_iff]
  cases step_effect step with
  | server clean call cleanly_iff loop udp binds =>
    rw [udp, binds]
    exact kept.later fun n => call.grows
  | udp call clean loop server listens => exact (call.kept_iff kept).mpr rfl

/-- An object is usable exactly when its set-up succeeded, and no failed set-up leaves a
descriptor open: for a `UdpSocket` in every run, for a `TcpServer` in the runs in which every
listen fails clean. -/
theorem usable_iff_failsClean {s t : World K} {actions : List Act} (start : Start s)
    (replay : (machine B platform).exec s actions = some t) :
    (machine B platform).Throughout UdpRight s actions ∧
      ((machine B platform).Throughout ServerRight s actions ↔
        (machine B platform).Each (FailsClean platform) s actions) := by
  have always := Transition.Machine.each_true (m := machine B platform) s actions
  constructor
  · have steps : (machine B platform).Throughout UdpRight s actions ↔
        (machine B platform).Each (fun _ _ => True) s actions := by
      apply Transition.Machine.throughout_iff_each _ _ start.inv start.right.2 always replay
      · exact fun s a t inv _ step => inv.step step
      · exact fun s a t inv right _ step => iff_of_true (udp_step inv right step) trivial
    exact steps.mpr always
  · apply Transition.Machine.throughout_iff_each _ _ start.inv start.right.1 always replay
    · exact fun s a t inv _ step => inv.step step
    · exact fun s a t inv right _ step => server_step inv right step

/-! ## Two runs -/

def linuxMachine : Transition.Machine (World Epoll.Kernel) Act := machine Reactor.epoll .linux

def boot : World Epoll.Kernel where
  process := ⟨fun _ => Reactor.epollBoot.loop, fun _ => none, 0, []⟩
  server := ⟨some 0, -1⟩
  listens := ⟨false, []⟩
  udp := ⟨some 0, -1⟩
  binds := ⟨false, []⟩

theorem boot_start : Start boot where
  files _ := rfl
  opened := rfl
  closings := rfl
  server := ⟨0, rfl⟩
  udp := ⟨0, rfl⟩
  listens := rfl
  binds := rfl

/-- `socket` answers 5, and the port is in use. -/
def portInUse : Answers where
  socket := .ok 5
  call
    | .bind _ => some (.other 98)
    | .setsockopt _ | .fcntl _ | .listen _ => none

def portFree : Answers := ⟨.ok 5, fun _ => none⟩

def cleanRun : List Act :=
  [.listen 80 128 false portFree, .closeServer, .bind 80 false portInUse]

theorem cleanRun_usable :
    linuxMachine.Throughout UdpRight boot cleanRun ∧
      linuxMachine.Throughout ServerRight boot cleanRun := by
  have usable : linuxMachine.Throughout UdpRight boot cleanRun ∧
      (linuxMachine.Throughout ServerRight boot cleanRun ↔
        linuxMachine.Each (FailsClean .linux) boot cleanRun) :=
    usable_iff_failsClean boot_start rfl
  refine ⟨usable.1, usable.2.mpr ?_⟩
  apply Transition.Machine.each_of_forall
  intro a member s
  simp only [cleanRun, List.mem_cons, List.not_mem_nil, or_false] at member
  rcases member with rfl | rfl | rfl
  · rfl
  · trivial
  · trivial

/-- After a listen that failed to bind its port the server counts as valid, and its
descriptor is open. -/
theorem failed_listen_valid :
    (linuxMachine.exec boot [.listen 80 128 false portInUse]).map
        (fun t => (t.server, t.server.ensureValid, t.listens.ready, t.process.closed)) =
      some (⟨some 0, 5⟩, none, false, []) ∧
    ¬ linuxMachine.Throughout ServerRight boot [.listen 80 128 false portInUse] := by
  refine ⟨rfl, fun always => ?_⟩
  have right := always.2 _ rfl
  have ready := right.valid_iff.mp rfl
  cases ready

end CoroEpoll.Usability
