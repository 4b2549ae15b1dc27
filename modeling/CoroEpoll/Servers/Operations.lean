import CoroEpoll.Library.Enactment
import CoroEpoll.Servers.Sockets
import CoroEpoll.Servers.Echo
import CoroEpoll.Tcp.Read
import CoroEpoll.Tcp.Write
import CoroEpoll.Tcp.Accept

/-! The coroutines of the sockets as the servers call them, and the operations whose successive
calls are machines: the dialogues of a coroutine are the runs of one call of its operation.
-/

set_option autoImplicit false

namespace CoroEpoll.Servers

open Routines Text

/-- How a coroutine puts the questions of an operation. -/
structure Wiring (σ Arg Out Q : Type) where
  arg : Arg
  /-- what `ensure_valid` throws -/
  invalid : σ → Option Exception
  first : Ask Q
  call : σ → Ask Q
  ready : Ask Q
  /-- what an answer to the call is to the operation -/
  out : σ → Answer → Option Out
  /-- questions that the operation knows nothing of -/
  quiet : Ask Q → Bool

def verdict : Option Exception → Answer
  | none => .done
  | some error => .threw error

section

variable {A : App} {σ Arg Out : Type} {op : Calls.Op σ Arg Out}
  {wiring : Wiring σ Arg Out A.Question} {program : A.Fn → Routine (net A)}
  {stmt : Stmt (net A)} {s : Locals A.Own} {w u : Calls.World σ}
  {post : Flow (net A) → Calls.World σ → Prop}

namespace Wiring

def asks (wiring : Wiring σ Arg Out A.Question) (w : Calls.World σ) : Ask A.Question :=
  match w.phase with
  | .idle => wiring.first
  | .running => wiring.call w.state
  | .suspended => wiring.ready

def Fits (wiring : Wiring σ Arg Out A.Question) (question : Ask A.Question) (w : Calls.World σ) :
    Prop :=
  question = wiring.asks w ∨ wiring.quiet question = true

/-- What an answer is to the operation; the wait for readiness succeeds, and so does what the
operation knows nothing of. -/
def sense (wiring : Wiring σ Arg Out A.Question) :
    Sense (net A) (Calls.World σ) (Calls.Act Arg Out) :=
  fun w question answer =>
    if wiring.quiet question then
      if answer = .done then some [] else none
    else
      match w.phase with
      | .idle =>
        if answer = verdict (wiring.invalid w.state) then some [.call wiring.arg] else none
      | .running => (wiring.out w.state answer).map fun out => [.answer out]
      | .suspended => if answer = .done then some [.ready] else none

abbrev steps (op : Calls.Op σ Arg Out) : Transition.Machine (Calls.World σ) (Calls.Act Arg Out) :=
  op.machine fun _ => True

variable (op) in
abbrev observer (wiring : Wiring σ Arg Out A.Question) : Observer (net A) (Calls.World σ) :=
  follower (steps op) wiring.sense

variable (op) in
abbrev actions (wiring : Wiring σ Arg Out A.Question) (w : Calls.World σ)
    (dialogue : Dialogue (net A)) : List (Calls.Act Arg Out) :=
  acts (steps op) wiring.sense w dialogue

/-- Every dialogue of a coroutine is a run of its operation, and the coroutine is where the
operation is. -/
def Follows (op : Calls.Op σ Arg Out) (wiring : Wiring σ Arg Out A.Question)
    (program : A.Fn → Routine (net A)) (stmt : Stmt (net A)) (s : Locals A.Own)
    (w : Calls.World σ) (post : Flow (net A) → Calls.World σ → Prop) : Prop :=
  ∀ dialogue result, Talks program stmt s dialogue result →
    (wiring.observer op).Expects w dialogue →
    (steps op).exec w (wiring.actions op w dialogue) =
        some ((wiring.observer op).after w dialogue) ∧
      result.Meets wiring.Fits post ((wiring.observer op).after w dialogue)

/-- Every run of one call of an operation is a dialogue of a coroutine. -/
def Covers (op : Calls.Op σ Arg Out) (wiring : Wiring σ Arg Out A.Question)
    (program : A.Fn → Routine (net A)) (stmt : Stmt (net A)) (s : Locals A.Own)
    (w : Calls.World σ) (post : Flow (net A) → Calls.World σ → Prop) : Prop :=
  ∀ rest v, (∀ a ∈ rest, ∀ arg, a ≠ .call arg) →
    (steps op).exec w (.call wiring.arg :: rest) = some v →
    ∃ dialogue result, Talks program stmt s dialogue result ∧
      (wiring.observer op).Expects w dialogue ∧
      wiring.actions op w dialogue = .call wiring.arg :: rest ∧
      result.Meets wiring.Fits post v

theorem exec_single (w : Calls.World σ) (a : Calls.Act Arg Out) :
    (steps op).exec w [a] = op.step w a := by
  exact Option.bind_fun_some _

theorem begins (idle : w.phase = .idle) {question : Ask A.Question}
    (loud : wiring.quiet question = false) {answer : Answer}
    (expected : (wiring.observer op).expects w question answer) :
    answer = verdict (wiring.invalid w.state) ∧ ∃ next,
      op.begin w.state wiring.arg = some next ∧
        (wiring.observer op).note w question answer = op.land next := by
  obtain ⟨v, replay⟩ := Option.isSome_iff_exists.mp expected
  obtain ⟨actions, means, replay⟩ := Option.bind_eq_some_iff.mp replay
  have note := (follower_eq (L := net A) means replay).2
  simp only [sense, loud, idle, Bool.false_eq_true, if_false, Option.ite_none_right_eq_some, Option.some.injEq] at means
  obtain ⟨answer_eq, rfl⟩ := means
  rw [exec_single] at replay
  simp only [Calls.Op.step, idle, if_true, Option.map_eq_some_iff] at replay
  obtain ⟨next, began, rfl⟩ := replay
  exact ⟨answer_eq, next, began, note⟩

theorem answered (running : w.phase = .running) {question : Ask A.Question}
    (loud : wiring.quiet question = false) {answer : Answer}
    (expected : (wiring.observer op).expects w question answer) :
    ∃ out, wiring.out w.state answer = some out ∧ op.allowed w.state out = true ∧
      (wiring.observer op).note w question answer = op.land (op.body w.state out) := by
  obtain ⟨v, replay⟩ := Option.isSome_iff_exists.mp expected
  obtain ⟨actions, means, replay⟩ := Option.bind_eq_some_iff.mp replay
  have note := (follower_eq (L := net A) means replay).2
  simp only [sense, loud, running, Bool.false_eq_true, if_false, Option.map_eq_some_iff] at means
  obtain ⟨out, means, rfl⟩ := means
  rw [exec_single] at replay
  simp only [Calls.Op.step, running, true_and, Option.ite_none_right_eq_some,
    Option.some.injEq] at replay
  obtain ⟨allowed, rfl⟩ := replay
  exact ⟨out, means, allowed, note⟩

theorem readied (suspended : w.phase = .suspended) {question : Ask A.Question}
    (loud : wiring.quiet question = false) {answer : Answer}
    (expected : (wiring.observer op).expects w question answer) :
    answer = .done ∧ (wiring.observer op).note w question answer = op.head w.state := by
  obtain ⟨v, replay⟩ := Option.isSome_iff_exists.mp expected
  obtain ⟨actions, means, replay⟩ := Option.bind_eq_some_iff.mp replay
  have note := (follower_eq (L := net A) means replay).2
  simp only [sense, loud, suspended, Bool.false_eq_true, if_false, Option.ite_none_right_eq_some, Option.some.injEq] at means
  obtain ⟨answer_eq, rfl⟩ := means
  rw [exec_single] at replay
  simp only [Calls.Op.step, suspended, if_true, Option.some.injEq] at replay
  exact ⟨answer_eq, note.trans replay.symm⟩

theorem follows (meets : Meets program (wiring.observer op) wiring.Fits stmt s w post) :
    Follows op wiring program stmt s w post :=
  fun dialogue result talks expected =>
    ⟨exec_acts expected, meets dialogue result talks expected⟩

theorem sense_of_step (loud : ∀ question, wiring.quiet question = false)
    (answers : ∀ state out, op.allowed state out = true →
      ∃ answer, wiring.out state answer = some out) (question : Ask A.Question)
    {a : Calls.Act Arg Out} (inner : ∀ arg, a ≠ .call arg) {v : Calls.World σ}
    (step : op.step w a = some v) : ∃ answer, wiring.sense w question answer = some [a] := by
  cases Calls.Op.step_moves step with
  | call arg => exact absurd rfl (inner arg)
  | answer out running allowed =>
    obtain ⟨answer, means⟩ := answers w.state out allowed
    exact ⟨answer, by simp [sense, loud, running, means]⟩
  | ready suspended => exact ⟨.done, by simp [sense, loud, suspended]⟩

theorem no_step (idle : w.phase = .idle) {a : Calls.Act Arg Out} (inner : ∀ arg, a ≠ .call arg) :
    op.step w a = none := by
  cases a with
  | call arg => exact absurd rfl (inner arg)
  | answer out | ready => simp [Calls.Op.step, idle]

/-- A coroutine that asks nothing else performs all the runs of the operation. -/
theorem covers (loud : ∀ question, wiring.quiet question = false) (idle : w.phase = .idle)
    (rests : ComesToRest program stmt) (starts : Talks program stmt s [] (.asks wiring.first))
    (answers : ∀ state out, op.allowed state out = true →
      ∃ answer, wiring.out state answer = some out)
    (meets : Meets program (wiring.observer op) wiring.Fits stmt s w post)
    (ended : ∀ flow v, post flow v → v.phase = .idle) :
    Covers op wiring program stmt s w post := by
  intro rest v inner replay
  obtain ⟨u, step, later⟩ := Transition.Machine.exec_cons_eq_some.mp replay
  obtain ⟨result, talks⟩ : ∃ result, Talks program stmt s
      [(wiring.first, verdict (wiring.invalid w.state))] result := starts.extend rests _
  have means : wiring.sense w wiring.first (verdict (wiring.invalid w.state)) =
      some [.call wiring.arg] := by
    simp [sense, loud, idle]
  obtain ⟨expects, note⟩ := follower_eq (L := net A) means ((exec_single w _).trans step)
  have after : (wiring.observer op).after w
      [(wiring.first, verdict (wiring.invalid w.state))] = u := note
  obtain ⟨more, result', talks', expected, acts_eq⟩ := enacts (fun a => ∀ arg, a ≠ .call arg)
    rests meets (fun question u a t _ inner step => sense_of_step loud answers question inner step)
    (fun flow u a met inner => no_step (ended flow u met) inner) talks ⟨expects, trivial⟩ inner
    (after.symm ▸ later)
  have acts_all : wiring.actions op w
      ([(wiring.first, verdict (wiring.invalid w.state))] ++ more) =
      .call wiring.arg :: rest := by
    rw [after] at acts_eq
    rw [List.singleton_append, actions, acts, means, note, acts_eq]
    rfl
  have same : (steps op).exec w (wiring.actions op w _) = some _ := exec_acts expected
  rw [acts_all, replay, Option.some.injEq] at same
  exact ⟨_, result', talks', expected, acts_all, same ▸ meets _ result' talks' expected⟩

/-! ## What every operation begins and waits with -/

theorem demand_begins {question : Locals A.Own → Ask A.Question} (asked : question s = wiring.first)
    (loud : wiring.quiet (question s) = false) (idle : w.phase = .idle)
    (goes : ∀ next, wiring.invalid w.state = none → op.begin w.state wiring.arg = some next →
      post (.normal { s with answer := .done }) (op.land next))
    (throws : ∀ error next, wiring.invalid w.state = some error →
      op.begin w.state wiring.arg = some next →
      post (.threw error { s with answer := .threw error }) (op.land next)) :
    Meets program (wiring.observer op) wiring.Fits
      (demand question) s w post := by
  have fit : question s = wiring.asks w := by
    rw [asked, asks, idle]
  apply Meets.seq
  apply Meets.wait (.inl fit)
  intro answer expected
  obtain ⟨answer_eq, next, began, note⟩ := begins idle loud expected
  rw [note]
  cases invalid : wiring.invalid w.state with
  | none =>
    rw [invalid] at answer_eq
    subst answer_eq
    exact Meets.untaken rfl (Meets.skip (goes next invalid began))
  | some error =>
    rw [invalid] at answer_eq
    subst answer_eq
    exact Meets.taken rfl (Meets.throw (throws error next invalid began))

theorem demand_readied {question : Locals A.Own → Ask A.Question} (asked : question s = wiring.ready)
    (loud : wiring.quiet (question s) = false) (suspended : w.phase = .suspended)
    (goes : post (.normal { s with answer := .done }) (op.head w.state)) :
    Meets program (wiring.observer op) wiring.Fits
      (demand question) s w post := by
  have fit : question s = wiring.asks w := by
    rw [asked, asks, suspended]
  apply Meets.seq
  apply Meets.wait (.inl fit)
  intro answer expected
  obtain ⟨rfl, note⟩ := readied suspended loud expected
  rw [note]
  exact Meets.untaken rfl (Meets.skip goes)

theorem retry_follows {what : String} {direction : Direction} {edgeTrigger : Bool} {errno : Errno}
    (failed : s.answer = .failed errno)
    (asked : Ask.ready s.socket direction edgeTrigger = wiring.ready)
    (loud : wiring.quiet (.ready s.socket direction edgeTrigger) = false)
    (interrupted : errno = .EINTR → post (.normal s) w)
    (blocked : errno = .EAGAIN →
      w.phase = .suspended ∧ post (.normal { s with answer := .done }) (op.head w.state))
    (throws : errno.hard = true → post (.threw (.std (.systemError errno what)) s) w) :
    Meets program (wiring.observer op) wiring.Fits
      (retry what direction edgeTrigger) s w post := by
  have errno_eq : s.answer.errno = some errno := by
    rw [failed]
    rfl
  apply Meets.branch
  · intro same
    rw [errno_eq, decide_eq_true_eq, Option.some.injEq] at same
    exact Meets.skip (interrupted same)
  · intro notInterrupted
    apply Meets.branch
    · intro same
      rw [errno_eq, decide_eq_true_eq, Option.some.injEq] at same
      obtain ⟨suspended, goes⟩ := blocked same
      exact demand_readied asked loud suspended goes
    · intro notBlocked
      rw [errno_eq, decide_eq_false_iff_not, Option.some.injEq] at notInterrupted notBlocked
      have hard : errno.hard = true := by
        cases errno <;> simp_all [Errno.hard]
      apply Meets.throw
      rw [errno_eq, Option.getD_some]
      exact throws hard

end Wiring

end

/-! ## Reading -/

section

variable {A : App} {program : A.Fn → Routine (net A)} {s : Locals A.Own}
  {w : Calls.World TcpSocket.Reading} {buffer : Bytes} {size : SizeT}

def received (state : TcpSocket.Reading) : Answer → Option TcpSocket.RecvAnswer
  | .bytes [] => some .zero
  | .bytes data =>
    if data = state.unread.take data.length then some (.bytes data.length) else none
  | .failed errno => some (.failed errno)
  | _ => none

def reads {Q : Type} (socket : SocketId) (buffer : Bytes) (size : SizeT) (edgeTrigger : Bool)
    (room : TcpSocket.Reading → SizeT) :
    Wiring TcpSocket.Reading (List UInt8 × SizeT) TcpSocket.RecvAnswer Q where
  arg := (buffer, size)
  invalid state := state.socket.ensureValid
  first := .ensureValid socket
  call state := .recv socket (room state).toNat
  ready := .ready socket .read edgeTrigger
  out := received
  quiet _ := false

/-- A call has returned what it has read, and reading stops where it has read nothing or has
thrown. -/
def ReadEnds (w : Calls.World TcpSocket.Reading) :
    Flow (net A) → Calls.World TcpSocket.Reading → Prop
  | .returned (.bytes data), v => v.phase = .idle ∧
      v.state.delivered = w.state.delivered ++ data ∧
      v.state.stop = if data = [] then some .zero else none
  | .threw error _, v => v.phase = .idle ∧ v.state.delivered = w.state.delivered ∧
      v.state.stop = some (.threw error)
  | _, _ => False

theorem ReadEnds.idle {flow : Flow (net A)} {v : Calls.World TcpSocket.Reading}
    (ends : ReadEnds w flow v) : v.phase = .idle := by
  unfold ReadEnds at ends
  split at ends
  · exact ends.1
  · exact ends.1
  · exact ends.elim

theorem received_eq_bytes {state : TcpSocket.Reading} {data : Bytes} (some_data : data ≠ [])
    {out : TcpSocket.RecvAnswer} (means : received state (.bytes data) = some out) :
    data = state.unread.take data.length ∧ out = .bytes data.length := by
  cases data with
  | nil => exact absurd rfl some_data
  | cons byte data =>
    simp only [received, Option.ite_none_right_eq_some, Option.some.injEq] at means
    exact ⟨means.1, means.2.symm⟩

theorem received_answers {state : TcpSocket.Reading} {room : SizeT} {out : TcpSocket.RecvAnswer}
    (allowed : state.mayAnswer room out = true) : ∃ answer, received state answer = some out := by
  cases out with
  | zero => exact ⟨.bytes [], rfl⟩
  | failed errno => exact ⟨.failed errno, rfl⟩
  | bytes count =>
    obtain ⟨positive, _, there⟩ := of_decide_eq_true allowed
    have length : (state.unread.take count).length = count := by
      rw [List.length_take]
      omega
    refine ⟨.bytes (state.unread.take count), ?_⟩
    cases data : state.unread.take count with
    | nil =>
      rw [data, List.length_nil] at length
      omega
    | cons byte rest =>
      rw [data] at length
      simp only [received, length, data, if_true]

def opened (state : TcpSocket.Reading) (buffer : Bytes) (size : SizeT) : TcpSocket.Reading :=
  { state with buffer, size, total := 0 }

theorem start_eq {state : TcpSocket.Reading} {next : Retry.Next TcpSocket.Reading TcpSocket.Reading}
    (began : state.start buffer size = some next) :
    state.stop = none ∧ size ≠ 0 ∧ buffer.length = size.toNat ∧
      next = match state.socket.ensureValid with
        | some error => .finish ((opened state buffer size).throws error)
        | none => .again (opened state buffer size) := by
  simp only [TcpSocket.Reading.start, Option.ite_none_right_eq_some] at began
  obtain ⟨⟨going, positive, length⟩, began⟩ := began
  refine ⟨going, positive, length, ?_⟩
  cases invalid : state.socket.ensureValid with
  | none =>
    simp only [invalid, Option.some.injEq] at began
    exact began.symm
  | some error =>
    simp only [invalid, Option.some.injEq] at began
    exact began.symm

theorem received_front (state : TcpSocket.Reading) {data : Bytes}
    (within : state.total.toNat ≤ state.size.toNat) (length : state.buffer.length = state.size.toNat)
    (read : data = state.unread.take data.length)
    (fits : data.length ≤ (state.size - state.total).toNat) :
    (state.total + BitVec.ofNat 64 data.length).toNat = state.total.toNat + data.length ∧
      (state.receive state.total data.length).buffer.length = state.size.toNat ∧
      (state.receive state.total data.length).buffer.take (state.total.toNat + data.length) =
        state.buffer.take state.total.toNat ++ data := by
  have room := SizeT.toNat_room within
  have there : data.length ≤ state.unread.length := by
    have lengths := congrArg List.length read
    rw [List.length_take] at lengths
    omega
  have bound : state.total.toNat + data.length ≤ state.buffer.length := by omega
  refine ⟨SizeT.toNat_advance within fits, ?_, ?_⟩
  · rw [TcpSocket.Reading.length_receive bound there, length]
  · rw [TcpSocket.Reading.take_receive bound there, ← read]

theorem asyncRead_steps (idle : w.phase = .idle) (room : s.size = size.toNat) :
    Meets program ((reads s.socket buffer size false (·.size)).observer TcpSocket.asyncRead)
      (reads s.socket buffer size false (·.size)).Fits asyncRead s w (ReadEnds w) := by
  apply Meets.seq
  apply Wiring.demand_begins rfl rfl idle
  case throws =>
    intro error next invalid began
    obtain ⟨_, _, _, rfl⟩ := start_eq began
    have invalid : w.state.socket.ensureValid = some error := invalid
    simp only [Then, invalid]
    exact ⟨rfl, rfl, rfl⟩
  intro next valid began
  obtain ⟨going, positive, length, rfl⟩ := start_eq began
  have valid : w.state.socket.ensureValid = none := valid
  simp only [Then, valid]
  -- nothing has been read at the head of the loop
  refine Meets.forever (fun env u => env.socket = s.socket ∧ env.size = size.toNat ∧
    u = ⟨.running, opened w.state buffer size⟩) ⟨rfl, room, rfl⟩ ?_
  rintro env u ⟨socket, size_eq, rfl⟩
  apply Meets.seq
  have asks : Ask.recv (Q := A.Question) env.socket env.size = .recv s.socket size.toNat := by
    rw [socket, size_eq]
  apply Meets.wait (.inl asks)
  intro answer expected
  obtain ⟨out, means, allowed, note⟩ := Wiring.answered rfl rfl expected
  rw [note]
  cases answer with
  | bytes data =>
    apply Meets.taken rfl
    apply Meets.ret
    by_cases nothing : data = []
    · subst nothing
      cases means
      exact ⟨rfl, rfl, rfl⟩
    · obtain ⟨read, rfl⟩ := received_eq_bytes nothing means
      obtain ⟨some_bytes, fits, _⟩ := of_decide_eq_true allowed
      have fits : data.length ≤ (size - 0).toNat := by simpa [opened] using fits
      obtain ⟨count, _, front⟩ := received_front (opened w.state buffer size)
        (Nat.zero_le _) length read fits
      have zero : (opened w.state buffer size).total = 0 := rfl
      have zero_nat : (0 : SizeT).toNat = 0 := rfl
      have count : (BitVec.ofNat 64 data.length).toNat = data.length := by
        simpa only [zero, BitVec.ofNat_eq_ofNat, BitVec.zero_add, BitVec.toNat_zero,
          Nat.zero_add] using count
      rw [zero, zero_nat, Nat.zero_add, List.take_zero, List.nil_append] at front
      refine ⟨rfl, ?_, ?_⟩
      · show w.state.delivered ++ ((opened w.state buffer size).receive 0 data.length).buffer.take
          (BitVec.ofNat 64 data.length).toNat = w.state.delivered ++ data
        rw [count, front]
      · have positive : BitVec.ofNat 64 data.length ≠ 0 := by
          intro nothing
          rw [nothing, zero_nat] at count
          omega
        rw [if_neg nothing]
        exact (if_neg positive).trans going
  | failed errno =>
    cases means
    apply Meets.untaken rfl
    apply Wiring.retry_follows rfl
    · show Ask.ready env.socket .read false = Ask.ready s.socket .read false
      rw [socket]
    · rfl
    · rintro rfl
      exact ⟨socket, size_eq, rfl⟩
    · rintro rfl
      exact ⟨rfl, socket, size_eq, rfl⟩
    · intro hard
      cases errno with
      | EINTR | EAGAIN => cases hard
      | EBADF | ENOENT | EEXIST | other code => exact ⟨rfl, rfl, rfl⟩
  | done | datagram | count | descriptor | threw => cases means

/-- The dialogues of `async_read` are the runs of one call of the operation. -/
theorem asyncRead_performs (idle : w.phase = .idle) (room : s.size = size.toNat) :
    Wiring.Follows TcpSocket.asyncRead (reads s.socket buffer size false (·.size)) program
        asyncRead s w (ReadEnds w) ∧
      Wiring.Covers TcpSocket.asyncRead (reads s.socket buffer size false (·.size)) program
        asyncRead s w (ReadEnds w) := by
  constructor
  · exact Wiring.follows (asyncRead_steps idle room)
  · apply Wiring.covers (fun _ => rfl) idle comesToRest_asyncRead
      (.inside rfl (.inside rfl (.asks _ _))) _ (asyncRead_steps idle room)
      fun _ _ => ReadEnds.idle
    intro state out allowed
    exact received_answers allowed

def twoBytes : Locals Echo.app.Own := ⟨0, 2, [], 0, -1, [], .done, ()⟩

def threeBytes : Calls.World TcpSocket.Reading :=
  ⟨.idle, .fresh ⟨some 0, 5⟩ [104, 105, 33] none⟩

theorem asyncRead_performs_waits : ∃ dialogue result,
    Talks (L := net Echo.app) Echo.code asyncRead twoBytes dialogue result ∧
      (reads 0 [0, 0] 2 false (·.size)).actions TcpSocket.asyncRead threeBytes dialogue =
        [.call ([0, 0], 2), .answer (.failed .EAGAIN), .ready, .answer (.bytes 2)] := by
  obtain ⟨v, replay⟩ : ∃ v, (Wiring.steps TcpSocket.asyncRead).exec threeBytes
      [.call ([0, 0], 2), .answer (.failed .EAGAIN), .ready, .answer (.bytes 2)] = some v :=
    Option.isSome_iff_exists.mp (by decide)
  obtain ⟨dialogue, result, talks, _, actions, _⟩ :=
    (asyncRead_performs (A := Echo.app) (w := threeBytes) (s := twoBytes) rfl rfl).2 _ v (by simp) replay
  exact ⟨dialogue, result, talks, actions⟩

structure Gathers (s : Locals A.Own) (w : Calls.World TcpSocket.Reading) (size : SizeT)
    (env : Locals A.Own) (state : TcpSocket.Reading) : Prop where
  socket : env.socket = s.socket
  room : env.size = size.toNat
  size : state.size = size
  going : state.stop = none
  delivered : state.delivered = w.state.delivered
  within : state.total.toNat ≤ state.size.toNat
  length : state.buffer.length = state.size.toNat
  buffer : env.buffer = state.buffer.take state.total.toNat

namespace Gathers

variable {env : Locals A.Own} {state : TcpSocket.Reading}

theorem length_buffer (gathers : Gathers s w size env state) :
    env.buffer.length = state.total.toNat := by
  have within := gathers.within
  rw [gathers.buffer, List.length_take, gathers.length]
  omega

theorem empty_iff (gathers : Gathers s w size env state) : env.buffer = [] ↔ state.total = 0 := by
  rw [← List.length_eq_zero_iff, gathers.length_buffer]
  constructor
  · intro nothing
    exact BitVec.eq_of_toNat_eq nothing
  · intro nothing
    rw [nothing]
    rfl

theorem positive_iff (gathers : Gathers s w size env state) : state.total > 0 ↔ env.buffer ≠ [] := by
  have zero_nat : (0 : SizeT).toNat = 0 := rfl
  rw [gt_iff_lt, BitVec.lt_def, zero_nat, ← gathers.length_buffer, List.length_pos_iff]

theorem answers (gathers : Gathers s w size env state) (answer : Answer) :
    Gathers s w size { env with answer } state :=
  ⟨gathers.socket, gathers.room, gathers.size, gathers.going, gathers.delivered, gathers.within,
    gathers.length, gathers.buffer⟩

theorem asks (gathers : Gathers s w size env state) :
    Ask.recv (Q := A.Question) env.socket (env.size - env.buffer.length) =
      .recv s.socket (state.size - state.total).toNat := by
  rw [SizeT.toNat_room gathers.within, gathers.socket, gathers.room, gathers.length_buffer,
    gathers.size]

theorem returns (gathers : Gathers s w size env state) :
    ReadEnds (A := A) w (.returned (.bytes env.buffer)) ⟨.idle, state.returns state.total⟩ := by
  refine ⟨rfl, ?_, ?_⟩
  · show state.delivered ++ state.buffer.take state.total.toNat = w.state.delivered ++ env.buffer
    rw [gathers.delivered, gathers.buffer]
  · show (if state.total = 0 then some TcpSocket.Stop.zero else state.stop) = _
    rw [gathers.going]
    exact if_congr gathers.empty_iff.symm rfl rfl

theorem receives (gathers : Gathers s w size env state) {data : Bytes}
    (read : data = state.unread.take data.length)
    (fits : data.length ≤ (state.size - state.total).toNat) (answer : Answer) :
    Gathers s w size { env with buffer := env.buffer ++ data, answer }
      { state.receive state.total data.length with
        total := state.total + BitVec.ofNat 64 data.length } := by
  obtain ⟨count, length, front⟩ := received_front state gathers.within gathers.length read fits
  have room := SizeT.toNat_room gathers.within
  have within := gathers.within
  refine ⟨gathers.socket, gathers.room, gathers.size, gathers.going, gathers.delivered, ?_,
    length, ?_⟩
  · show (state.total + BitVec.ofNat 64 data.length).toNat ≤ state.size.toNat
    omega
  · show env.buffer ++ data = (state.receive state.total data.length).buffer.take
      (state.total + BitVec.ofNat 64 data.length).toNat
    rw [count, front, gathers.buffer]

end Gathers

theorem comesToRest_asyncReadEt : ComesToRest program asyncReadEt := by
  refine .seq (comesToRest_demand _) (.seq (.assign _) (.loop _ (.seq (.wait _ _) ?_) ?_))
  · exact .branch _ (.ret _) (.branch _ (.assign _) (.branch _ (.ret _) (comesToRest_retry _ _ _)))
  · exact .seq _ (.wait _ _)

theorem asyncReadEt_steps (idle : w.phase = .idle) (room : s.size = size.toNat) :
    Meets program ((reads s.socket buffer size true fun state => state.size - state.total).observer
        TcpSocket.asyncReadEt)
      (reads s.socket buffer size true fun state => state.size - state.total).Fits asyncReadEt s w
      (ReadEnds w) := by
  apply Meets.seq
  apply Wiring.demand_begins rfl rfl idle
  case throws =>
    intro error next invalid began
    obtain ⟨_, _, _, rfl⟩ := start_eq began
    have invalid : w.state.socket.ensureValid = some error := invalid
    simp only [Then, invalid]
    exact ⟨rfl, rfl, rfl⟩
  intro next valid began
  obtain ⟨going, positive, length, rfl⟩ := start_eq began
  have valid : w.state.socket.ensureValid = none := valid
  simp only [Then, valid]
  apply Meets.seq
  apply Meets.assign
  refine Meets.forever (fun env u => ∃ state, u = ⟨.running, state⟩ ∧ Gathers s w size env state)
    ⟨opened w.state buffer size, rfl, rfl, room, rfl, going, rfl, Nat.zero_le _, length, rfl⟩ ?_
  rintro env u ⟨state, rfl, gathers⟩
  apply Meets.seq
  apply Meets.wait (.inl gathers.asks)
  intro answer expected
  obtain ⟨out, means, allowed, note⟩ := Wiring.answered rfl rfl expected
  rw [note]
  cases answer with
  | bytes data =>
    by_cases nothing : data = []
    · subst nothing
      cases means
      exact Meets.taken rfl (Meets.ret gathers.returns)
    · obtain ⟨read, rfl⟩ := received_eq_bytes nothing means
      obtain ⟨_, fits, _⟩ := of_decide_eq_true allowed
      apply Meets.untaken (by simpa using nothing)
      apply Meets.taken rfl
      apply Meets.assign
      exact ⟨_, rfl, gathers.receives read fits (.bytes data)⟩
  | failed errno =>
    cases means
    apply Meets.untaken rfl
    apply Meets.untaken rfl
    apply Meets.branch
    · intro drained
      obtain ⟨something, blocked⟩ := of_decide_eq_true drained
      cases blocked
      apply Meets.ret
      have some_bytes : state.total > 0 := gathers.positive_iff.mpr something
      have note : TcpSocket.asyncReadEt.land (state.roundEt (.failed .EAGAIN)) =
          ⟨.idle, state.returns state.total⟩ := by
        rw [TcpSocket.Reading.roundEt, if_pos some_bytes]
        rfl
      exact note ▸ gathers.returns
    · intro waits
      apply Wiring.retry_follows rfl
      · show Ask.ready env.socket .read true = Ask.ready s.socket .read true
        rw [gathers.socket]
      · rfl
      · rintro rfl
        exact ⟨state, rfl, gathers.answers _⟩
      · rintro rfl
        have nothing : ¬ state.total > 0 := by
          intro some_bytes
          simp [gathers.positive_iff.mp some_bytes, Answer.errno] at waits
        have note : TcpSocket.asyncReadEt.land (state.roundEt (.failed .EAGAIN)) =
            ⟨.suspended, state⟩ := by
          rw [TcpSocket.Reading.roundEt, if_neg nothing]
          rfl
        refine ⟨congrArg (·.phase) note, state, ?_, gathers.answers _⟩
        exact congrArg (TcpSocket.asyncReadEt.head ·.state) note
      · intro hard
        cases errno with
        | EINTR | EAGAIN => cases hard
        | EBADF | ENOENT | EEXIST | other code => exact ⟨rfl, gathers.delivered, rfl⟩
  | done | datagram | count | descriptor | threw => cases means

/-- The dialogues of `async_read_et` are the runs of one call of the operation. -/
theorem asyncReadEt_performs (idle : w.phase = .idle) (room : s.size = size.toNat) :
    Wiring.Follows TcpSocket.asyncReadEt
        (reads s.socket buffer size true fun state => state.size - state.total) program
        asyncReadEt s w (ReadEnds w) ∧
      Wiring.Covers TcpSocket.asyncReadEt
        (reads s.socket buffer size true fun state => state.size - state.total) program
        asyncReadEt s w (ReadEnds w) := by
  constructor
  · exact Wiring.follows (asyncReadEt_steps idle room)
  · apply Wiring.covers (fun _ => rfl) idle comesToRest_asyncReadEt
      (.inside rfl (.inside rfl (.asks _ _))) _ (asyncReadEt_steps idle room)
      fun _ _ => ReadEnds.idle
    intro state out allowed
    exact received_answers allowed

theorem asyncReadEt_performs_drains : ∃ dialogue result,
    Talks (L := net Echo.app) Echo.code asyncReadEt twoBytes dialogue result ∧
      (reads 0 [0, 0] 2 true fun state => state.size - state.total).actions TcpSocket.asyncReadEt
          threeBytes dialogue =
        [.call ([0, 0], 2), .answer (.bytes 1), .answer (.failed .EINTR), .answer (.bytes 1),
          .answer (.failed .EAGAIN)] := by
  obtain ⟨v, replay⟩ : ∃ v, (Wiring.steps TcpSocket.asyncReadEt).exec threeBytes
      [.call ([0, 0], 2), .answer (.bytes 1), .answer (.failed .EINTR), .answer (.bytes 1),
        .answer (.failed .EAGAIN)] = some v :=
    Option.isSome_iff_exists.mp (by decide)
  obtain ⟨dialogue, result, talks, _, actions, _⟩ :=
    (asyncReadEt_performs (A := Echo.app) (w := threeBytes) (s := twoBytes) rfl rfl).2 _ v (by simp) replay
  exact ⟨dialogue, result, talks, actions⟩

end

/-! ## Writing -/

section

variable {A : App} {program : A.Fn → Routine (net A)} {s : Locals A.Own}
  {w : Calls.World TcpSocket.Sending} {size : SizeT}

def sent : Answer → Option TcpSocket.SendAnswer
  | .count count => some (.accepted count)
  | .failed errno => some (.failed errno)
  | _ => none

def writes {Q : Type} (socket : SocketId) (buffer : Bytes) (size : SizeT) :
    Wiring TcpSocket.Sending (List UInt8 × SizeT) TcpSocket.SendAnswer Q where
  arg := (buffer, size)
  invalid state := state.socket.ensureValid
  first := .ensureValid socket
  call state := .send socket (state.buffer.drop state.total.toNat)
  ready := .ready socket .write false
  out _ := sent
  quiet _ := false

def WriteEnds : Flow (net A) → Calls.World TcpSocket.Sending → Prop
  | .returned (.count count), v => v.phase = .idle ∧
      ∃ total, v.state.result = some (.ok total) ∧ count = total.toNat
  | .threw error _, v => v.phase = .idle ∧ v.state.result = some (.error error)
  | _, _ => False

theorem WriteEnds.idle {flow : Flow (net A)} {v : Calls.World TcpSocket.Sending}
    (ends : WriteEnds flow v) : v.phase = .idle := by
  unfold WriteEnds at ends
  split at ends
  · exact ends.1
  · exact ends.1
  · exact ends.elim

structure Sends (s : Locals A.Own) (size : SizeT) (env : Locals A.Own) (state : TcpSocket.Sending) :
    Prop where
  socket : env.socket = s.socket
  buffer : env.buffer = s.buffer
  same : state.buffer = s.buffer
  size : state.size = size
  total : env.total = state.total.toNat
  within : state.total.toNat ≤ state.size.toNat

namespace Sends

variable {env : Locals A.Own} {state : TcpSocket.Sending}

theorem answers (sends : Sends s size env state) (outcome : TcpSocket.SendAnswer) (answer : Answer) :
    Sends s size { env with answer } (state.send outcome) := by
  cases outcome with
  | accepted count =>
    exact ⟨sends.socket, sends.buffer, sends.same, sends.size, sends.total, sends.within⟩
  | failed errno =>
    exact ⟨sends.socket, sends.buffer, sends.same, sends.size, sends.total, sends.within⟩

theorem advances (sends : Sends s size env state) {count : Nat}
    (fits : count ≤ (state.size - state.total).toNat) (answer : Answer) :
    Sends s size { env with total := env.total + count, answer }
      { state.send (.accepted count) with total := state.total + BitVec.ofNat 64 count } := by
  have advanced := SizeT.toNat_advance sends.within fits
  have room := SizeT.toNat_room sends.within
  have within := sends.within
  refine ⟨sends.socket, sends.buffer, sends.same, sends.size, ?_, ?_⟩
  · show env.total + count = (state.total + BitVec.ofNat 64 count).toNat
    rw [advanced, sends.total]
  · show (state.total + BitVec.ofNat 64 count).toNat ≤ state.size.toNat
    omega

theorem asks (sends : Sends s size env state) :
    Ask.send (Q := A.Question) env.socket (env.buffer.drop env.total) =
      .send s.socket (state.buffer.drop state.total.toNat) := by
  rw [sends.socket, sends.buffer, sends.total, sends.same]

theorem head (sends : Sends s size env state) (length : s.buffer.length = size.toNat) :
    TcpSocket.asyncWrite.head state =
      if env.total < env.buffer.length then ⟨.running, state⟩
      else ⟨.idle, { state with result := some (.ok state.total) }⟩ := by
  have test : state.total < state.size ↔ env.total < env.buffer.length := by
    rw [BitVec.lt_def, sends.total, sends.buffer, length, sends.size]
  unfold Calls.Op.head
  by_cases more : state.total < state.size
  · rw [if_pos (test.mp more)]
    simp only [TcpSocket.asyncWrite, if_pos more]
  · rw [if_neg fun below => more (test.mpr below)]
    simp only [TcpSocket.asyncWrite, if_neg more]

end Sends

theorem asyncWrite_steps (idle : w.phase = .idle) (length : s.buffer.length = size.toNat) :
    Meets program ((writes s.socket s.buffer size).observer TcpSocket.asyncWrite)
      (writes s.socket s.buffer size).Fits asyncWrite s w WriteEnds := by
  apply Meets.seq
  apply Wiring.demand_begins rfl rfl idle
  case throws =>
    intro error next invalid began
    have invalid : w.state.socket.ensureValid = some error := invalid
    cases Option.some.inj began
    simp only [Then, TcpSocket.Sending.start, invalid]
    exact ⟨rfl, rfl⟩
  intro next valid began
  have valid : w.state.socket.ensureValid = none := valid
  cases Option.some.inj began
  simp only [Then, TcpSocket.Sending.start, valid]
  apply Meets.seq
  apply Meets.assign
  apply Meets.seq
  refine Meets.loop (fun env u => ∃ state, u = TcpSocket.asyncWrite.head state ∧
    Sends s size env state) ⟨_, rfl, rfl, rfl, rfl, rfl, rfl, Nat.zero_le _⟩ ?_ ?_
  · rintro env u ⟨state, rfl, sends⟩ more
    rw [sends.head length, if_pos (of_decide_eq_true more)]
    apply Meets.seq
    apply Meets.wait (.inl sends.asks)
    intro answer expected
    obtain ⟨out, means, allowed, note⟩ := Wiring.answered rfl rfl expected
    rw [note]
    cases answer with
    | count count =>
      cases means
      have fits : count ≤ (state.size - state.total).toNat := of_decide_eq_true allowed
      cases count with
      | zero =>
        -- a send of no byte waits for room
        apply Meets.untaken rfl
        apply Meets.taken rfl
        apply Wiring.demand_readied
        · show Ask.ready env.socket .write false = Ask.ready s.socket .write false
          rw [sends.socket]
        · rfl
        · rfl
        · exact ⟨_, rfl, sends.answers (.accepted 0) .done⟩
      | succ count =>
        apply Meets.taken rfl
        apply Meets.assign
        exact ⟨_, rfl, sends.advances fits (.count (count + 1))⟩
    | failed errno =>
      cases means
      apply Meets.untaken rfl
      apply Meets.untaken rfl
      apply Wiring.retry_follows rfl
      · show Ask.ready env.socket .write false = Ask.ready s.socket .write false
        rw [sends.socket]
      · rfl
      · rintro rfl
        exact ⟨_, rfl, sends.answers (.failed .EINTR) _⟩
      · rintro rfl
        exact ⟨rfl, _, rfl, sends.answers (.failed .EAGAIN) _⟩
      · intro hard
        cases errno with
        | EINTR | EAGAIN => cases hard
        | EBADF | ENOENT | EEXIST | other code => exact ⟨rfl, rfl⟩
    | done | bytes | datagram | descriptor | threw => cases means
  · rintro env u ⟨state, rfl, sends⟩ finished
    rw [sends.head length, if_neg (of_decide_eq_false finished)]
    apply Meets.ret
    exact ⟨rfl, state.total, rfl, sends.total⟩

/-- The dialogues of `async_write` are the runs of one call of the operation. -/
theorem asyncWrite_performs (idle : w.phase = .idle) (length : s.buffer.length = size.toNat) :
    Wiring.Follows TcpSocket.asyncWrite (writes s.socket s.buffer size) program asyncWrite s w
        WriteEnds ∧
      Wiring.Covers TcpSocket.asyncWrite (writes s.socket s.buffer size) program asyncWrite s w
        WriteEnds := by
  constructor
  · exact Wiring.follows (asyncWrite_steps idle length)
  · apply Wiring.covers (fun _ => rfl) idle comesToRest_asyncWrite
      (.inside rfl (.inside rfl (.asks _ _))) _ (asyncWrite_steps idle length)
      fun _ _ => WriteEnds.idle
    intro state out _
    cases out with
    | accepted count => exact ⟨.count count, rfl⟩
    | failed errno => exact ⟨.failed errno, rfl⟩

theorem asyncWrite_performs_backpressure : ∃ dialogue result,
    Talks (L := net Echo.app) Echo.code asyncWrite { twoBytes with buffer := [104, 105] } dialogue result ∧
      (writes 0 [104, 105] 2).actions TcpSocket.asyncWrite ⟨.idle, .fresh ⟨some 0, 5⟩⟩ dialogue =
        [.call ([104, 105], 2), .answer (.accepted 1), .answer (.failed .EAGAIN), .ready,
          .answer (.accepted 1)] := by
  obtain ⟨v, replay⟩ : ∃ v, (Wiring.steps TcpSocket.asyncWrite).exec ⟨.idle, .fresh ⟨some 0, 5⟩⟩
      [.call ([104, 105], 2), .answer (.accepted 1), .answer (.failed .EAGAIN), .ready,
        .answer (.accepted 1)] = some v :=
    Option.isSome_iff_exists.mp (by decide)
  obtain ⟨dialogue, result, talks, _, actions, _⟩ :=
    (asyncWrite_performs (A := Echo.app) (w := ⟨.idle, .fresh ⟨some 0, 5⟩⟩)
      (s := { twoBytes with buffer := [104, 105] }) rfl rfl).2 _ v (by simp) replay
  exact ⟨dialogue, result, talks, actions⟩

end

/-! ## Accepting -/

section

variable {A : App} {program : A.Fn → Routine (net A)} {s : Locals A.Own}
  {w : Calls.World TcpServer.Accepting}

def connected : Answer → Option TcpServer.AcceptAnswer
  | .descriptor fd => some (.connection fd)
  | .failed errno => some (.failed errno)
  | _ => none

def accepts {Q : Type} (socket : SocketId) (edgeTrigger : Bool) :
    Wiring TcpServer.Accepting Unit TcpServer.AcceptAnswer Q where
  arg := ()
  invalid state := state.server.ensureValid
  first := .ensureValid socket
  call _ := .accept socket
  ready := .ready socket .read edgeTrigger
  out _ := connected
  quiet
    | .configure _ | .closeFd _ => true
    | _ => false

def AcceptEnds (w : Calls.World TcpServer.Accepting) :
    Flow (net A) → Calls.World TcpServer.Accepting → Prop
  | .returned (.descriptor fd), v => v.phase = .idle ∧
      v.state.delivered = w.state.delivered ++ [w.state.socket fd]
  | .returned (.descriptors fds), v => v.phase = .idle ∧
      v.state.delivered = w.state.delivered ++ fds.map w.state.socket
  | .threw error _, v => v.phase = .idle ∧ v.state.delivered = w.state.delivered ∧
      v.state.failure = some error
  | _, _ => False

structure Collects (s : Locals A.Own) (w : Calls.World TcpServer.Accepting) (env : Locals A.Own)
    (state : TcpServer.Accepting) : Prop where
  socket : env.socket = s.socket
  server : state.server = w.state.server
  delivered : state.delivered = w.state.delivered
  sockets : state.sockets = env.batch.map w.state.socket

namespace Collects

variable {env : Locals A.Own} {state : TcpServer.Accepting}

theorem returns (collects : Collects s w env state) :
    AcceptEnds (A := A) w (.returned (.descriptors env.batch))
      ⟨.idle, { state with sockets := [], delivered := state.delivered ++ state.sockets }⟩ := by
  refine ⟨rfl, ?_⟩
  show state.delivered ++ state.sockets = w.state.delivered ++ env.batch.map w.state.socket
  rw [collects.delivered, collects.sockets]

end Collects

end

end CoroEpoll.Servers
