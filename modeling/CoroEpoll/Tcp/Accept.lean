import CoroEpoll.Library.Calls
import CoroEpoll.Tcp.Socket

/-! `async_accept` and `async_accept_et`, called until one of them throws. -/

set_option autoImplicit false

namespace CoroEpoll

structure TcpServer where
  /-- the event loop, by its identity -/
  loop : Option Nat
  fd : Fd
  deriving DecidableEq, Repr

namespace TcpServer

def ensureValid (server : TcpServer) : Option Exception :=
  if server.loop = none ∨ server.fd < 0 then some (.std (.runtimeError "invalid TcpServer"))
  else none

/-- What `accept4` answers: the descriptor of a new connection, or an errno. -/
inductive AcceptAnswer where
  | connection (fd : Fd)
  | failed (errno : Errno)
  deriving DecidableEq, Repr

structure Accepting where
  server : TcpServer
  /-- the local vector of `async_accept_et` -/
  sockets : List TcpSocket
  /-- the connections that the kernel has handed over so far -/
  accepted : List TcpSocket
  /-- the open sockets that the calls have returned so far -/
  delivered : List TcpSocket
  /-- the sockets closed by their destructor before any call returned them -/
  closed : List TcpSocket
  failure : Option Exception
  deriving DecidableEq

namespace Accepting

def socket (s : Accepting) (fd : Fd) : TcpSocket := ⟨s.server.loop, fd⟩

/-- An exception destroys the local vector and the sockets in it. -/
def throws (s : Accepting) (error : Exception) : Accepting :=
  { s with sockets := [], closed := s.closed ++ s.sockets, failure := some error }

def start (s : Accepting) : Option (Retry.Next Accepting Accepting) :=
  if s.failure = none then
    match s.server.ensureValid with
    | some error => some (.finish (s.throws error))
    | none => some (.again s)
  else none

/-- One round of the loop of `async_accept_fd`, with the construction of the socket in
`async_accept`. -/
def round (s : Accepting) : AcceptAnswer → Retry.Next Accepting Accepting
  | .connection fd =>
    .finish { s with
      accepted := s.accepted ++ [s.socket fd]
      delivered := s.delivered ++ [s.socket fd] }
  | .failed .EINTR => .again s
  | .failed .EAGAIN => .suspend s
  | .failed errno => .finish (s.throws (.std (.systemError errno "accept4")))

/-- `async_accept_et` waits before its first accept. -/
def startEt (s : Accepting) : Option (Retry.Next Accepting Accepting) :=
  if s.failure = none then
    match s.server.ensureValid with
    | some error => some (.finish (s.throws error))
    | none => some (.suspend { s with sockets := [] })
  else none

def roundEt (s : Accepting) : AcceptAnswer → Retry.Next Accepting Accepting
  | .connection fd =>
    .again { s with
      accepted := s.accepted ++ [s.socket fd]
      sockets := s.sockets ++ [s.socket fd] }
  | .failed .EINTR => .again s
  | .failed .EAGAIN => .finish { s with sockets := [], delivered := s.delivered ++ s.sockets }
  | .failed errno => .finish (s.throws (.std (.systemError errno "accept4")))

end Accepting

/-- A descriptor handed out by the kernel is not negative. -/
def AcceptAnswer.possible : AcceptAnswer → Bool
  | .connection fd => 0 ≤ fd
  | .failed _ => true

def asyncAccept : Calls.Op Accepting Unit AcceptAnswer where
  begin s _ := s.start
  exit _ := none
  allowed _ answer := answer.possible
  body := Accepting.round

def asyncAcceptEt : Calls.Op Accepting Unit AcceptAnswer where
  begin s _ := s.startEt
  exit _ := none
  allowed _ answer := answer.possible
  body := Accepting.roundEt

def Accepting.fresh (server : TcpServer) : Accepting := ⟨server, [], [], [], [], none⟩

def acceptor (server : TcpServer) :
    Transition.Machine (Calls.World Accepting) (Calls.Act Unit AcceptAnswer) :=
  asyncAccept.machine (· = Accepting.fresh server)

def acceptorEt (server : TcpServer) :
    Transition.Machine (Calls.World Accepting) (Calls.Act Unit AcceptAnswer) :=
  asyncAcceptEt.machine (· = Accepting.fresh server)

/-! ## Where the connections are -/

/-- In a call every connection has been delivered or is in the local vector. -/
structure Accepting.Inside (s : Accepting) : Prop where
  going : s.failure = none
  kept : s.delivered ++ s.sockets = s.accepted
  closed : s.closed = []

/-- Between two calls every connection has been delivered, or closed by an exception. -/
structure Accepting.Between (s : Accepting) : Prop where
  kept : s.delivered ++ s.closed = s.accepted
  sockets : s.sockets = []
  closed : s.failure = none → s.closed = []

namespace Accepting

theorem fresh_between (server : TcpServer) : (fresh server).Between := ⟨rfl, rfl, fun _ => rfl⟩

theorem Between.inside {s : Accepting} (between : s.Between) (going : s.failure = none) : s.Inside := by
  have closed := between.closed going
  have kept := between.kept
  rw [closed] at kept
  exact ⟨going, by rw [between.sockets]; exact kept, closed⟩

theorem Inside.throws {s : Accepting} (inside : s.Inside) (error : Exception) :
    (s.throws error).Between := by
  refine ⟨?_, rfl, by simp [Accepting.throws]⟩
  simp only [Accepting.throws, inside.closed, List.nil_append]
  exact inside.kept

theorem startEt_inside {s : Accepting} (between : s.Between)
    {next : Retry.Next Accepting Accepting} (began : s.startEt = some next) :
    Calls.Op.Meets Between Inside next := by
  simp only [startEt, Option.ite_none_right_eq_some] at began
  obtain ⟨going, began⟩ := began
  have inside := between.inside going
  split at began
  · cases Option.some.inj began
    exact inside.throws _
  · cases Option.some.inj began
    have kept := inside.kept
    rw [between.sockets] at kept
    exact ⟨going, kept, inside.closed⟩

theorem roundEt_inside {s : Accepting} (inside : s.Inside) (answer : AcceptAnswer) :
    Calls.Op.Meets Between Inside (s.roundEt answer) := by
  cases answer with
  | connection fd =>
    refine ⟨inside.going, ?_, inside.closed⟩
    rw [← inside.kept, List.append_assoc]
  | failed errno =>
    cases errno with
    | EINTR => exact inside
    | EAGAIN =>
      refine ⟨?_, rfl, fun _ => inside.closed⟩
      rw [inside.closed, List.append_nil]
      exact inside.kept
    | EBADF | ENOENT | EEXIST | other code => exact inside.throws _

end Accepting

theorem acceptorEt_step {w w' : Calls.World Accepting} {a : Calls.Act Unit AcceptAnswer}
    (holds : asyncAcceptEt.Holds Accepting.Between Accepting.Inside w)
    (step : asyncAcceptEt.step w a = some w') :
    asyncAcceptEt.Holds Accepting.Between Accepting.Inside w' := by
  apply holds.step _ (by simp [asyncAcceptEt]) _ step
  · intro s _ next between began
    exact Accepting.startEt_inside between began
  · intro s answer inside _
    exact Accepting.roundEt_inside inside answer

/-- The edge-triggered call meets the hard error with no connection in its local vector. -/
def ErrorAlone (w : Calls.World Accepting) : Calls.Act Unit AcceptAnswer → Prop
  | .answer (.failed errno) => errno.hard = true → w.state.sockets = []
  | _ => True

theorem step_closed_iff {w w' : Calls.World Accepting} {a : Calls.Act Unit AcceptAnswer}
    (holds : asyncAcceptEt.Holds Accepting.Between Accepting.Inside w)
    (step : asyncAcceptEt.step w a = some w') : w'.state.closed = [] ↔ ErrorAlone w a := by
  cases Calls.Op.step_moves step with
  | call arg next idle began =>
    have between := holds.idle idle
    simp only [asyncAcceptEt, Accepting.startEt, Option.ite_none_right_eq_some] at began
    obtain ⟨going, began⟩ := began
    refine iff_of_true ?_ trivial
    split at began <;> cases Option.some.inj began
    · simp [Calls.Op.land, Accepting.throws, between.closed going, between.sockets]
    · simp [Calls.Op.land, between.closed going]
  | ready suspended => exact iff_of_true (holds.suspended suspended).closed trivial
  | answer answer running =>
    have closed := (holds.running running).1.closed
    cases answer with
    | connection fd => exact iff_of_true closed trivial
    | failed errno =>
      cases errno with
      | EINTR | EAGAIN => exact iff_of_true closed (by simp [ErrorAlone, Errno.hard])
      -- the sockets in hand are destroyed with the exception
      | EBADF | ENOENT | EEXIST | other code =>
        simp [Calls.Op.land, asyncAcceptEt, Accepting.roundEt, Accepting.throws, closed,
          ErrorAlone, Errno.hard]

theorem reported_stays {w w' : Calls.World Accepting} {a : Calls.Act Unit AcceptAnswer}
    (holds : asyncAcceptEt.Holds Accepting.Between Accepting.Inside w)
    (step : asyncAcceptEt.step w a = some w') : w.state.failure = none := by
  cases Calls.Op.step_moves step with
  | call arg next idle began =>
    simp only [asyncAcceptEt, Accepting.startEt, Option.ite_none_right_eq_some] at began
    exact began.1
  | answer answer running => exact (holds.running running).1.going
  | ready suspended => exact (holds.suspended suspended).going

theorem acceptorEt_kept {w : Calls.World Accepting}
    (holds : asyncAcceptEt.Holds Accepting.Between Accepting.Inside w)
    (going : w.state.failure = none) :
    w.state.delivered ++ w.state.sockets = w.state.accepted ∧ w.state.closed = [] := by
  have inside : w.state.Inside := by
    rcases holds.state with ⟨_, between⟩ | ⟨_, inside⟩
    · exact between.inside going
    · exact inside
  exact ⟨inside.kept, inside.closed⟩

/-! ## Both acceptors on one sequence of answers -/

def connections (server : TcpServer) : List AcceptAnswer → List TcpSocket
  | [] => []
  | .connection fd :: rest => ⟨server.loop, fd⟩ :: connections server rest
  | .failed _ :: rest => connections server rest

theorem connections_append (server : TcpServer) (first rest : List AcceptAnswer) :
    connections server (first ++ rest) = connections server first ++ connections server rest := by
  induction first with
  | nil => rfl
  | cons answer first ih => cases answer <;> simp [connections, ih]

def Records (w w' : Calls.World Accepting) (a : Calls.Act Unit AcceptAnswer) : Prop :=
  w'.state.server = w.state.server ∧
    w'.state.accepted = w.state.accepted ++ connections w.state.server (Calls.answers [a])

theorem records_of_step {op : Calls.Op Accepting Unit AcceptAnswer} (stays : ∀ s, op.exit s = none)
    (begins : ∀ s arg next, op.begin s arg = some next →
      (Calls.Op.after next).server = s.server ∧ (Calls.Op.after next).accepted = s.accepted)
    (round : ∀ s answer, (Calls.Op.after (op.body s answer)).server = s.server ∧
      (Calls.Op.after (op.body s answer)).accepted = s.accepted ++ connections s.server [answer])
    {w w' : Calls.World Accepting} {a : Calls.Act Unit AcceptAnswer} (step : op.step w a = some w') :
    Records w w' a := by
  cases Calls.Op.step_moves step with
  | call arg next idle began =>
    obtain ⟨server, accepted⟩ := begins w.state arg next began
    rw [Records, Calls.Op.land_state stays]
    exact ⟨server, accepted.trans (List.append_nil _).symm⟩
  | answer answer =>
    rw [Records, Calls.Op.land_state stays]
    exact round w.state answer
  | ready =>
    have head : op.head w.state = ⟨.running, w.state⟩ := by simp [Calls.Op.head, stays]
    rw [Records, head]
    exact ⟨rfl, (List.append_nil _).symm⟩

theorem acceptor_records {w w' : Calls.World Accepting} {a : Calls.Act Unit AcceptAnswer}
    (step : asyncAccept.step w a = some w') : Records w w' a := by
  apply records_of_step (fun _ => rfl) _ _ step
  · intro s _ next began
    simp only [asyncAccept, Accepting.start, Option.ite_none_right_eq_some] at began
    obtain ⟨_, began⟩ := began
    split at began <;> cases Option.some.inj began <;> exact ⟨rfl, rfl⟩
  · intro s answer
    cases answer with
    | connection fd => exact ⟨rfl, rfl⟩
    | failed errno => cases errno <;> exact ⟨rfl, (List.append_nil _).symm⟩

theorem acceptorEt_records {w w' : Calls.World Accepting} {a : Calls.Act Unit AcceptAnswer}
    (step : asyncAcceptEt.step w a = some w') : Records w w' a := by
  apply records_of_step (fun _ => rfl) _ _ step
  · intro s _ next began
    simp only [asyncAcceptEt, Accepting.startEt, Option.ite_none_right_eq_some] at began
    obtain ⟨_, began⟩ := began
    split at began <;> cases Option.some.inj began <;> exact ⟨rfl, rfl⟩
  · intro s answer
    cases answer with
    | connection fd => exact ⟨rfl, rfl⟩
    | failed errno => cases errno <;> exact ⟨rfl, (List.append_nil _).symm⟩

theorem accepted_exec {m : Transition.Machine (Calls.World Accepting) (Calls.Act Unit AcceptAnswer)}
    (records : ∀ w a w', m.step w a = some w' → Records w w' a) {w w' : Calls.World Accepting}
    {actions : List (Calls.Act Unit AcceptAnswer)} (replay : m.exec w actions = some w') :
    w'.state.accepted = w.state.accepted ++ connections w.state.server (Calls.answers actions) := by
  induction actions generalizing w with
  | nil =>
    cases Option.some.inj replay
    exact (List.append_nil _).symm
  | cons a rest ih =>
    obtain ⟨next, step, tail⟩ := Transition.Machine.exec_cons_eq_some.mp replay
    obtain ⟨server, accepted⟩ := records w a next step
    rw [ih tail, accepted, server, List.append_assoc, ← connections_append, ← Calls.answers_cons]

def Accepting.PlainBetween (s : Accepting) : Prop :=
  s.Between ∧ s.closed = []

def Accepting.PlainInside (s : Accepting) : Prop := s.Inside ∧ s.sockets = []

theorem acceptor_holds {server : TcpServer} {w : Calls.World Accepting}
    (reached : (acceptor server).Reachable w) :
    asyncAccept.Holds Accepting.PlainBetween Accepting.PlainInside w := by
  apply Calls.Op.Holds.of_reachable _ _ (by simp [asyncAccept]) _ reached
  · rintro s rfl
    exact ⟨Accepting.fresh_between server, rfl⟩
  · intro s _ next between began
    simp only [asyncAccept, Accepting.start, Option.ite_none_right_eq_some] at began
    obtain ⟨going, began⟩ := began
    have inside := between.1.inside going
    split at began <;> cases Option.some.inj began
    · refine ⟨inside.throws _, ?_⟩
      simp [Accepting.throws, inside.closed, between.1.sockets]
    · exact ⟨inside, between.1.sockets⟩
  · rintro s answer ⟨inside, empty⟩ _
    have kept := inside.kept
    rw [empty, List.append_nil] at kept
    change Calls.Op.Meets _ _ (s.round answer)
    cases answer with
    | connection fd =>
      refine ⟨⟨?_, empty, fun _ => inside.closed⟩, inside.closed⟩
      simp [inside.closed, kept]
    | failed errno =>
      cases errno with
      | EINTR | EAGAIN => exact ⟨inside, empty⟩
      | EBADF | ENOENT | EEXIST | other code =>
        refine ⟨inside.throws _, ?_⟩
        simp [Accepting.throws, inside.closed, empty]

theorem acceptorEt_holds {server : TcpServer} {w : Calls.World Accepting}
    (reached : (acceptorEt server).Reachable w) :
    asyncAcceptEt.Holds Accepting.Between Accepting.Inside w := by
  apply Calls.Op.Holds.of_reachable _ _ (by simp [asyncAcceptEt]) _ reached
  · rintro s rfl
    exact Accepting.fresh_between server
  · intro s _ next between began
    exact Accepting.startEt_inside between began
  · intro s answer inside _
    exact Accepting.roundEt_inside inside answer

theorem acceptorEt_closed_iff {server : TcpServer} {actions : List (Calls.Act Unit AcceptAnswer)}
    {w : Calls.World Accepting}
    (replay : (acceptorEt server).exec ⟨.idle, .fresh server⟩ actions = some w) :
    w.state.closed = [] ↔
      (acceptorEt server).Each ErrorAlone ⟨.idle, .fresh server⟩ actions := by
  have holds : asyncAcceptEt.Holds Accepting.Between Accepting.Inside ⟨.idle, .fresh server⟩ :=
    acceptorEt_holds (.start ⟨rfl, rfl⟩)
  have always_iff : (acceptorEt server).Throughout (fun w => w.state.closed = [])
      ⟨.idle, .fresh server⟩ actions ↔
      (acceptorEt server).Each ErrorAlone ⟨.idle, .fresh server⟩ actions :=
    Transition.Machine.throughout_iff_each
      (fun _ _ _ holds _ step => acceptorEt_step holds step)
      (fun _ _ _ holds _ _ step => step_closed_iff holds step)
      holds rfl (Transition.Machine.each_true _ actions) replay
  rw [← always_iff]
  constructor
  · intro last
    -- only a session that has reported an error can have closed any, and it goes no further
    have goesOn : ∀ w a w', asyncAcceptEt.Holds Accepting.Between Accepting.Inside w →
        (acceptorEt server).step w a = some w' → w.state.closed = [] :=
      fun _ _ _ holds step => (acceptorEt_kept holds (reported_stays holds step)).2
    exact Transition.Machine.Throughout.of_last (fun _ _ _ holds step => acceptorEt_step holds step)
      goesOn holds replay last
  · exact fun always => always.last replay

/-- On one sequence of answers that ends with the report of an error, the edge-triggered
calls deliver the connections that the plain calls deliver, and close none, exactly when
the hard error is met alone. Until then no connection is lost. -/
theorem accept_et_matches_accept_iff {server : TcpServer}
    {actions plainActions : List (Calls.Act Unit AcceptAnswer)} {et plain : Calls.World Accepting}
    (replay : (acceptorEt server).exec ⟨.idle, .fresh server⟩ actions = some et)
    (plainReplay : (acceptor server).exec ⟨.idle, .fresh server⟩ plainActions = some plain)
    (same : Calls.answers actions = Calls.answers plainActions) (reported : et.state.failure ≠ none) :
    (et.state.delivered = plain.state.delivered ∧ et.state.closed = [] ↔
      (acceptorEt server).Each ErrorAlone ⟨.idle, .fresh server⟩ actions) ∧
    plain.state.delivered = connections server (Calls.answers plainActions) ∧
    plain.state.closed = [] ∧
    ∀ run w, (acceptorEt server).exec ⟨.idle, .fresh server⟩ run = some w →
      w.state.failure = none →
      w.state.delivered ++ w.state.sockets = connections server (Calls.answers run) ∧
        w.state.closed = [] := by
  have plainAccepted := accepted_exec (fun _ _ _ step => acceptor_records step) plainReplay
  have etAccepted := accepted_exec (fun _ _ _ step => acceptorEt_records step) replay
  have reachedPlain : (acceptor server).Reachable plain :=
    Transition.Machine.ReachableWhere.replay (.start ⟨rfl, rfl⟩) plainReplay
  have holdsPlain := acceptor_holds reachedPlain
  have plainKept : plain.state.delivered = plain.state.accepted ∧ plain.state.closed = [] := by
    rcases holdsPlain.state with ⟨_, between, closed⟩ | ⟨_, inside, empty⟩
    · have kept := between.kept
      rw [closed, List.append_nil] at kept
      exact ⟨kept, closed⟩
    · have kept := inside.kept
      rw [empty, List.append_nil] at kept
      exact ⟨kept, inside.closed⟩
  have etEnd : et.state.Between := by
    have reached : (acceptorEt server).Reachable et :=
      Transition.Machine.ReachableWhere.replay (.start ⟨rfl, rfl⟩) replay
    rcases (acceptorEt_holds reached).state with ⟨_, between⟩ | ⟨_, inside⟩
    · exact between
    · exact absurd inside.going reported
  -- the kernel hands the same connections to both
  have sameAccepted : et.state.accepted = plain.state.accepted := by
    rw [etAccepted, plainAccepted, same]
  refine ⟨?_, plainKept.1.trans plainAccepted, plainKept.2, ?_⟩
  · rw [← acceptorEt_closed_iff replay, plainKept.1, ← sameAccepted, ← etEnd.kept]
    constructor
    · exact And.right
    · exact fun closed => ⟨by rw [closed, List.append_nil], closed⟩
  · intro run w part going
    have reached : (acceptorEt server).Reachable w :=
      Transition.Machine.ReachableWhere.replay (.start ⟨rfl, rfl⟩) part
    obtain ⟨kept, closed⟩ := acceptorEt_kept (acceptorEt_holds reached) going
    have accepted := accepted_exec (fun _ _ _ step => acceptorEt_records step) part
    exact ⟨kept.trans accepted, closed⟩

/-- Two connections in one burst, and EMFILE in the next. -/
def aloneEt : List (Calls.Act Unit AcceptAnswer) :=
  [.call (), .ready, .answer (.connection 6), .answer (.connection 7), .answer (.failed .EAGAIN),
    .call (), .ready, .answer (.failed (.other 24))]

def alonePlain : List (Calls.Act Unit AcceptAnswer) :=
  [.call (), .answer (.connection 6), .call (), .answer (.connection 7), .call (),
    .answer (.failed .EAGAIN), .ready, .answer (.failed (.other 24))]

theorem accept_et_matches_accept_iff_alone : ∃ et plain,
    (acceptorEt ⟨some 0, 5⟩).exec ⟨.idle, .fresh ⟨some 0, 5⟩⟩ aloneEt = some et ∧
    (acceptor ⟨some 0, 5⟩).exec ⟨.idle, .fresh ⟨some 0, 5⟩⟩ alonePlain = some plain ∧
    (et.state.delivered = plain.state.delivered ∧ et.state.closed = [] ↔
      (acceptorEt ⟨some 0, 5⟩).Each ErrorAlone ⟨.idle, .fresh ⟨some 0, 5⟩⟩ aloneEt) := by
  have run : ((acceptorEt ⟨some 0, 5⟩).exec ⟨.idle, .fresh ⟨some 0, 5⟩⟩ aloneEt).map
      (fun w => w.state.failure.isSome) = some true := by decide
  have plainRun : ((acceptor ⟨some 0, 5⟩).exec ⟨.idle, .fresh ⟨some 0, 5⟩⟩ alonePlain).isSome =
      true := by decide
  obtain ⟨et, replay, failure⟩ := Option.map_eq_some_iff.mp run
  obtain ⟨plain, plainReplay⟩ := Option.isSome_iff_exists.mp plainRun
  exact ⟨et, plain, replay, plainReplay, (accept_et_matches_accept_iff replay plainReplay rfl
    (Option.isSome_iff_ne_none.mp failure)).1⟩

/-- A connection, then EMFILE in the same burst: the connection is closed. -/
theorem accept_et_closes_connection : ¬ ∀ (server : TcpServer)
    (actions plainActions : List (Calls.Act Unit AcceptAnswer)) (et plain : Calls.World Accepting),
    (acceptorEt server).exec ⟨.idle, .fresh server⟩ actions = some et →
    (acceptor server).exec ⟨.idle, .fresh server⟩ plainActions = some plain →
    Calls.answers actions = Calls.answers plainActions → et.state.failure ≠ none →
      et.state.delivered = plain.state.delivered ∧ et.state.closed = [] := by
  intro always
  have run : ((acceptorEt ⟨some 0, 5⟩).exec ⟨.idle, .fresh ⟨some 0, 5⟩⟩
      [.call (), .ready, .answer (.connection 6), .answer (.failed (.other 24))]).map
        (fun w => (w.state.failure.isSome, w.state.closed)) = some (true, [⟨some 0, 6⟩]) := by decide
  have plainRun : ((acceptor ⟨some 0, 5⟩).exec ⟨.idle, .fresh ⟨some 0, 5⟩⟩
      [.call (), .answer (.connection 6), .call (), .answer (.failed (.other 24))]).isSome =
        true := by decide
  obtain ⟨et, replay, final⟩ := Option.map_eq_some_iff.mp run
  obtain ⟨plain, plainReplay⟩ := Option.isSome_iff_exists.mp plainRun
  simp only [Prod.mk.injEq] at final
  have kept := (always _ _ _ et plain replay plainReplay rfl
    (Option.isSome_iff_ne_none.mp final.1)).2
  rw [final.2] at kept
  cases kept

end TcpServer

end CoroEpoll
