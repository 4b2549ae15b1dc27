import CoroEpoll.Library.Calls
import CoroEpoll.Tcp.Socket

/-! `async_write`: the whole buffer by as many sends as the kernel asks for. -/

set_option autoImplicit false

namespace CoroEpoll.TcpSocket

/-- What `send` answers: how many of the bytes offered it accepted, or an errno. -/
inductive SendAnswer where
  | accepted (count : Nat)
  | failed (errno : Errno)
  deriving DecidableEq, Repr

/-- The variables of `async_write`, with what the kernel has seen of the call. -/
structure Sending where
  socket : TcpSocket
  buffer : List UInt8
  size : SizeT
  total : SizeT
  /-- the bytes accepted by the kernel -/
  accepted : List UInt8
  /-- where each send started in the buffer, and how many bytes it offered -/
  offered : List (SizeT × SizeT)
  result : Option (Except Exception SizeT)

namespace Sending

/-- `::send(fd_, buffer + total, size - total, ...)` -/
def send (s : Sending) (answer : SendAnswer) : Sending :=
  let s := { s with offered := s.offered ++ [(s.total, s.size - s.total)] }
  match answer with
  | .accepted count =>
    { s with accepted := s.accepted ++ (s.buffer.drop s.total.toNat).take count }
  | .failed _ => s

def start (s : Sending) (buffer : List UInt8) (size : SizeT) : Retry.Next Sending Sending :=
  let s := { s with buffer, size, total := 0, accepted := [], offered := [], result := none }
  match s.socket.ensureValid with
  | some error => .finish { s with result := some (.error error) }
  | none => .again s

def round (s : Sending) (answer : SendAnswer) : Retry.Next Sending Sending :=
  let s := s.send answer
  match answer with
  | .accepted 0 => .suspend s
  | .accepted count => .again { s with total := s.total + BitVec.ofNat 64 count }
  | .failed .EINTR => .again s
  | .failed .EAGAIN => .suspend s
  | .failed errno => .finish { s with result := some (.error (.std (.systemError errno "send"))) }

end Sending

def asyncWrite : Calls.Op Sending (List UInt8 × SizeT) SendAnswer where
  begin s arg := some (s.start arg.1 arg.2)
  exit s := if s.total < s.size then none else some { s with result := some (.ok s.total) }
  -- the kernel accepts no more bytes than it is offered
  allowed s answer :=
    match answer with
    | .accepted count => count ≤ (s.size - s.total).toNat
    | .failed _ => true
  body := Sending.round

def Sending.fresh (socket : TcpSocket) : Sending := ⟨socket, [], 0, 0, [], [], none⟩

def writer (socket : TcpSocket) :
    Transition.Machine (Calls.World Sending) (Calls.Act (List UInt8 × SizeT) SendAnswer) :=
  asyncWrite.machine (· = Sending.fresh socket)

/-! ## What every run keeps -/

/-- The kernel has the beginning of the buffer up to `total`, and no send has offered a
byte behind its end. -/
structure Sending.InOrder (s : Sending) : Prop where
  within : s.total.toNat ≤ s.size.toNat
  accepted : s.accepted = s.buffer.take s.total.toNat
  offered : ∀ offer ∈ s.offered, offer.1.toNat + offer.2.toNat = s.size.toNat

/-- How a call ends: with the whole buffer sent, at once on an invalid socket, or at a
hard error. -/
def Sending.Ended (s : Sending) : Prop :=
  match s.result with
  | none => True
  | some (.ok count) => count = s.size ∧ s.total = s.size
  | some (.error error) =>
    s.socket.ensureValid = some error ∧ s.accepted = [] ∨
      ∃ errno : Errno, errno.hard = true ∧ error = .std (.systemError errno "send")

def Sending.Between (s : Sending) : Prop := s.InOrder ∧ s.Ended
def Sending.Inside (s : Sending) : Prop := s.InOrder ∧ s.result = none

theorem Sending.inOrder_send {s : Sending} (inOrder : s.InOrder) (errno : Errno) :
    (s.send (.failed errno)).InOrder where
  within := inOrder.within
  accepted := inOrder.accepted
  offered offer member := by
    rcases List.mem_append.mp member with before | now
    · exact inOrder.offered offer before
    · have room := SizeT.toNat_room inOrder.within
      have within := inOrder.within
      rw [List.mem_singleton.mp now]
      show s.total.toNat + (s.size - s.total).toNat = s.size.toNat
      omega

/-- `total` advances by what the kernel accepts, so the next send starts where it stopped. -/
theorem Sending.inOrder_advance {s : Sending} (inOrder : s.InOrder) {count : Nat}
    (fits : count ≤ (s.size - s.total).toNat) :
    InOrder { s.send (.accepted count) with total := s.total + BitVec.ofNat 64 count } := by
  have advanced := SizeT.toNat_advance inOrder.within fits
  constructor
  · show (s.total + BitVec.ofNat 64 count).toNat ≤ s.size.toNat
    have room := SizeT.toNat_room inOrder.within
    have within := inOrder.within
    omega
  · show s.accepted ++ (s.buffer.drop s.total.toNat).take count =
      s.buffer.take (s.total + BitVec.ofNat 64 count).toNat
    rw [advanced, inOrder.accepted, List.take_add]
  · exact (s.inOrder_send inOrder .EINTR).offered

theorem Sending.start_inside (s : Sending) (buffer : List UInt8) (size : SizeT) :
    Calls.Op.Meets Between Inside (s.start buffer size) := by
  have inOrder : InOrder ⟨s.socket, buffer, size, 0, [], [], none⟩ :=
    ⟨Nat.zero_le _, by simp, by simp⟩
  unfold start
  dsimp only
  split
  · rename_i error invalid
    exact ⟨⟨inOrder.within, inOrder.accepted, inOrder.offered⟩, Or.inl ⟨invalid, rfl⟩⟩
  · exact ⟨inOrder, rfl⟩

theorem Sending.round_inside {s : Sending} (inside : s.Inside) {answer : SendAnswer}
    (allowed : asyncWrite.allowed s answer = true) :
    Calls.Op.Meets Between Inside (s.round answer) := by
  obtain ⟨inOrder, unfinished⟩ := inside
  cases answer with
  | accepted count =>
    have fits : count ≤ (s.size - s.total).toNat := of_decide_eq_true allowed
    cases count with
    | zero =>
      -- a send of no byte leaves `total` where it is
      have same := s.inOrder_advance inOrder fits
      rw [BitVec.add_zero] at same
      exact ⟨same, unfinished⟩
    | succ count => exact ⟨s.inOrder_advance inOrder fits, unfinished⟩
  | failed errno =>
    have same := s.inOrder_send inOrder errno
    cases errno with
    | EINTR | EAGAIN => exact ⟨same, unfinished⟩
    | EBADF | ENOENT | EEXIST | other code =>
      exact ⟨⟨same.within, same.accepted, same.offered⟩, Or.inr ⟨_, rfl, rfl⟩⟩

theorem Sending.exit_between {s s' : Sending} (inside : s.Inside)
    (left : asyncWrite.exit s = some s') : s'.Between := by
  obtain ⟨inOrder, _⟩ := inside
  simp only [asyncWrite, Option.ite_none_left_eq_some, Option.some.injEq] at left
  obtain ⟨reached, rfl⟩ := left
  -- the loop is left with `total` not below `size`, and it is never above
  have whole : s.total = s.size := by
    have within := inOrder.within
    rw [BitVec.lt_def] at reached
    exact BitVec.eq_of_toNat_eq (by omega)
  exact ⟨⟨inOrder.within, inOrder.accepted, inOrder.offered⟩, whole, whole⟩

theorem writer_holds {socket : TcpSocket} {w : Calls.World Sending}
    (reached : (writer socket).Reachable w) : asyncWrite.Holds Sending.Between Sending.Inside w := by
  apply Calls.Op.Holds.of_reachable _ _ (fun _ _ => Sending.exit_between) _ reached
  · rintro s rfl
    exact ⟨⟨Nat.le_refl _, rfl, by simp [Sending.fresh]⟩, trivial⟩
  · intro s arg next _ began
    cases Option.some.inj began
    exact s.start_inside arg.1 arg.2
  · intro s answer inside allowed
    exact Sending.round_inside inside allowed

theorem head_error {s : Sending} (unfinished : s.result = none) (error : Exception) :
    (asyncWrite.head s).state.result ≠ some (.error error) := by
  unfold Calls.Op.head
  split
  · simp [unfinished]
  · rename_i s' left
    simp only [asyncWrite, Option.ite_none_left_eq_some, Option.some.injEq] at left
    obtain ⟨_, rfl⟩ := left
    simp

theorem land_error {next : Retry.Next Sending Sending} {error : Exception}
    (meets : Calls.Op.Meets Sending.Between Sending.Inside next)
    (threw : (asyncWrite.land next).state.result = some (.error error)) :
    ∃ s, next = .finish s ∧ s.result = some (.error error) := by
  cases next with
  | again s => exact absurd threw (head_error meets.2 error)
  | suspend s =>
    have unfinished : s.result = none := meets.2
    simp [Calls.Op.land, unfinished] at threw
  | finish s => exact ⟨s, rfl, threw⟩

theorem step_error {socket : TcpSocket} {w w' : Calls.World Sending}
    {a : Calls.Act (List UInt8 × SizeT) SendAnswer} (reached : (writer socket).Reachable w)
    (step : (writer socket).step w a = some w') {error : Exception}
    (threw : w'.state.result = some (.error error)) :
    (∃ errno : Errno, errno.hard = true ∧ a = .answer (.failed errno) ∧
        error = .std (.systemError errno "send")) ∨
      ∃ arg, a = .call arg ∧ w.state.socket.ensureValid = some error := by
  have holds := writer_holds reached
  cases Calls.Op.step_moves step with
  | call arg next idle began =>
    cases Option.some.inj began
    -- only an invalid socket ends a call before its first send
    obtain ⟨s, finished, thrown⟩ := land_error (w.state.start_inside arg.1 arg.2) threw
    unfold Sending.start at finished
    dsimp only at finished
    split at finished
    · rename_i invalid
      cases finished
      simp only [Option.some.injEq, Except.error.injEq] at thrown
      exact Or.inr ⟨arg, rfl, thrown ▸ invalid⟩
    · cases finished
  | answer answer running allowed =>
    obtain ⟨s, finished, thrown⟩ :=
      land_error (Sending.round_inside (holds.running running).1 allowed) threw
    change w.state.round answer = .finish s at finished
    cases answer with
    | accepted count => cases count <;> cases finished
    | failed errno =>
      cases errno with
      | EINTR | EAGAIN => cases finished
      | EBADF | ENOENT | EEXIST | other code =>
        cases finished
        simp only [Option.some.injEq, Except.error.injEq] at thrown
        exact Or.inl ⟨_, rfl, rfl, thrown.symm⟩
  | ready suspended => exact absurd threw (head_error (holds.suspended suspended).2 error)

/-- In every run of `async_write`, whatever the kernel accepts and whenever it suspends
the coroutine: the kernel has accepted the first `total` bytes, every send has offered
the rest of the buffer and nothing behind it, the call returns only with the whole buffer
sent, and throws only at a hard error, or on an invalid socket with nothing sent. -/
theorem write_sends_in_order {socket : TcpSocket} {w : Calls.World Sending}
    (reached : (writer socket).Reachable w) :
    w.state.accepted = w.state.buffer.take w.state.total.toNat ∧
    w.state.total.toNat ≤ w.state.size.toNat ∧
    (∀ offer ∈ w.state.offered, offer.1.toNat + offer.2.toNat = w.state.size.toNat) ∧
    (∀ count, w.state.result = some (.ok count) →
      count = w.state.size ∧ w.state.accepted = w.state.buffer.take w.state.size.toNat) ∧
    ∀ a w' error, (writer socket).step w a = some w' → w'.state.result = some (.error error) →
      (∃ errno : Errno, errno.hard = true ∧ a = .answer (.failed errno) ∧
        error = .std (.systemError errno "send") ∧
        w'.state.accepted = w'.state.buffer.take w'.state.total.toNat) ∨
      ∃ arg, a = .call arg ∧ w.state.socket.ensureValid = some error ∧ w'.state.accepted = [] := by
  have inOrder : ∀ {w : Calls.World Sending}, (writer socket).Reachable w → w.state.InOrder := by
    intro w reached
    rcases (writer_holds reached).state with ⟨_, between⟩ | ⟨_, inside⟩
    · exact between.1
    · exact inside.1
  obtain ⟨within, accepted, offered⟩ := inOrder reached
  refine ⟨accepted, within, offered, ?_, ?_⟩
  · intro count returned
    rcases (writer_holds reached).state with ⟨_, _, ended⟩ | ⟨_, _, unfinished⟩
    · rw [Sending.Ended, returned] at ended
      exact ⟨ended.1, by rw [accepted, ended.2]⟩
    · cases unfinished.symm.trans returned
  · intro a w' error step threw
    rcases step_error reached step threw with
      ⟨errno, hard, act, same⟩ | ⟨arg, rfl, invalid⟩
    · exact Or.inl ⟨errno, hard, act, same, (inOrder (reached.next trivial step)).accepted⟩
    · refine Or.inr ⟨arg, rfl, invalid, ?_⟩
      simp only [writer, Calls.Op.machine, Calls.Op.step, asyncWrite, Sending.start, invalid,
        Option.map_some, Calls.Op.land, Option.ite_none_right_eq_some, Option.some.injEq] at step
      obtain ⟨_, rfl⟩ := step
      rfl

theorem write_sends_in_order_backpressure : ∃ w, (writer ⟨some 0, 5⟩).exec
      ⟨.idle, Sending.fresh ⟨some 0, 5⟩⟩ [.call ([7, 8, 9], 3), .answer (.accepted 1),
        .answer (.failed .EAGAIN), .ready, .answer (.accepted 2)] = some w ∧
    w.state.result = some (.ok 3) ∧ w.state.accepted = [7, 8, 9] := by
  have run : ((writer ⟨some 0, 5⟩).exec ⟨.idle, Sending.fresh ⟨some 0, 5⟩⟩
      [.call ([7, 8, 9], 3), .answer (.accepted 1), .answer (.failed .EAGAIN), .ready,
        .answer (.accepted 2)]).map (fun w => (w.state.result, w.state.buffer, w.state.size)) =
      some (some (.ok 3), [7, 8, 9], 3) := by rfl
  obtain ⟨w, replay, final⟩ := Option.map_eq_some_iff.mp run
  simp only [Prod.mk.injEq] at final
  obtain ⟨returned, buffer, size⟩ := final
  have reached : (writer ⟨some 0, 5⟩).Reachable w :=
    Transition.Machine.ReachableWhere.replay (.start ⟨rfl, rfl⟩) replay
  have whole := ((write_sends_in_order reached).2.2.2.1 3 returned).2
  exact ⟨w, replay, returned, by rw [whole, buffer, size]; rfl⟩

end CoroEpoll.TcpSocket
