import CoroEpoll.Library.Retry
import CoroEpoll.System.Interface
import Mathlib.Data.List.Induction

/-! Receiving datagrams. The plain call returns one datagram, the edge-triggered one all
that have arrived; both write them to the caller's buffer.
-/

set_option autoImplicit false

namespace CoroEpoll

structure UdpEndpoint where
  address : BitVec 32
  port : BitVec 16
  deriving DecidableEq, Repr

structure UdpReceiveResult where
  size : Nat
  endpoint : UdpEndpoint
  deriving DecidableEq, Repr

abbrev Buffer := List UInt8

def Buffer.copy (buffer : Buffer) (bytes : List UInt8) : Buffer := bytes ++ buffer.drop bytes.length

/-- What recvfrom meets: the next datagram of the socket's queue, or an errno. -/
inductive Arrival where
  | datagram (payload : List UInt8) (sender : UdpEndpoint)
  | failed (errno : Errno)
  deriving DecidableEq, Repr

/-- `recvfrom` copies what fits of a datagram to the front of the buffer and drops the rest. -/
def recvfrom (size : Nat) (buffer : Buffer) : Arrival → Except Errno UdpReceiveResult × Buffer
  | .datagram payload sender =>
    let copied := payload.take size
    (.ok ⟨copied.length, sender⟩, buffer.copy copied)
  | .failed errno => (.error errno, buffer)

structure UdpSocket where
  /-- the event loop, by its identity -/
  loop : Option Nat
  fd : Fd
  deriving DecidableEq, Repr

namespace UdpSocket

def ensureValid (socket : UdpSocket) : Option Exception :=
  if socket.loop = none ∨ socket.fd < 0 then some (.std (.runtimeError "invalid UdpSocket"))
  else none

def recvFromRound (size : Nat) (buffer : Buffer) (arrival : Arrival) :
    Retry.Next Buffer (Except Exception UdpReceiveResult × Buffer) :=
  match recvfrom size buffer arrival with
  | (.ok result, buffer) => .finish (.ok result, buffer)
  | (.error .EINTR, buffer) => .again buffer
  | (.error .EAGAIN, buffer) => .suspend buffer
  | (.error errno, buffer) => .finish (.error (.std (.systemError errno "recvfrom")), buffer)

def asyncRecvFrom (socket : UdpSocket) (size : Nat) (buffer : Buffer) (arrivals : List Arrival) :
    Option ((Except Exception UdpReceiveResult × Buffer) × List Arrival) :=
  match socket.ensureValid with
  | some error => some ((.error error, buffer), arrivals)
  | none => Retry.run (recvFromRound size) (.failed .EAGAIN) buffer arrivals

def recvFromEtRound (size : Nat) (state : Buffer × List UdpReceiveResult) (arrival : Arrival) :
    Retry.Next (Buffer × List UdpReceiveResult) (Except Exception (List UdpReceiveResult) × Buffer) :=
  match recvfrom size state.1 arrival with
  | (.ok result, buffer) => .again (buffer, state.2 ++ [result])
  | (.error .EINTR, buffer) => .again (buffer, state.2)
  | (.error .EAGAIN, buffer) =>
    if state.2 ≠ [] then .finish (.ok state.2, buffer) else .suspend (buffer, state.2)
  | (.error errno, buffer) => .finish (.error (.std (.systemError errno "recvfrom")), buffer)

def asyncRecvFromEt (socket : UdpSocket) (size : Nat) (buffer : Buffer) (arrivals : List Arrival) :
    Option ((Except Exception (List UdpReceiveResult) × Buffer) × List Arrival) :=
  match socket.ensureValid with
  | some error => some ((.error error, buffer), arrivals)
  | none => Retry.run (recvFromEtRound size) (.failed .EAGAIN) (buffer, []) arrivals

end UdpSocket

/-! ## Successive calls -/

def datagrams : List Arrival → List (List UInt8 × UdpEndpoint)
  | [] => []
  | .datagram payload sender :: rest => (payload, sender) :: datagrams rest
  | .failed _ :: rest => datagrams rest

def failed {α : Type} : Except Exception α → Bool
  | .ok _ => false
  | .error _ => true

/-- The front of the buffer that a caller takes for a result. -/
def readResult (buffer : Buffer) (result : UdpReceiveResult) : List UInt8 × UdpEndpoint :=
  (buffer.take result.size, result.endpoint)

def readOne : Except Exception UdpReceiveResult × Buffer → List (List UInt8 × UdpEndpoint)
  | (.ok result, buffer) => [readResult buffer result]
  | (.error _, _) => []

def readAll : Except Exception (List UdpReceiveResult) × Buffer → List (List UInt8 × UdpEndpoint)
  | (.ok results, buffer) => results.map (readResult buffer)
  | (.error _, _) => []

def receivePlain (socket : UdpSocket) (size : Nat) (buffer : Buffer) (arrivals : List Arrival) :
    List (List UInt8 × UdpEndpoint) :=
  (Retry.session (socket.asyncRecvFrom size) failed (datagrams arrivals).length buffer
    arrivals).flatMap readOne

def receiveEt (socket : UdpSocket) (size : Nat) (buffer : Buffer) (arrivals : List Arrival) :
    List (List UInt8 × UdpEndpoint) :=
  (Retry.session (socket.asyncRecvFromEt size) failed (datagrams arrivals).length buffer
    arrivals).flatMap readAll

/-! ## One buffer for a batch -/

def Comparable (first second : List UInt8) : Prop := first <+: second ∨ second <+: first

theorem prefix_copy {buffer : Buffer} {bytes earlier : List UInt8} (kept : earlier <+: buffer)
    (comparable : Comparable earlier bytes) : earlier <+: buffer.copy bytes := by
  rcases comparable with shorter | longer
  · exact shorter.trans (List.prefix_append ..)
  · -- the copy rewrites the beginning of what is there already
    obtain ⟨tail, rfl⟩ := longer
    obtain ⟨after, rfl⟩ := kept
    refine ⟨after, ?_⟩
    simp [Buffer.copy, List.append_assoc]

/-- All the payloads copied one over the other can be read from the buffer exactly when
they are pairwise comparable. -/
theorem prefix_copies_iff (buffer : Buffer) (payloads : List (List UInt8)) :
    (∀ bytes ∈ payloads, bytes <+: payloads.foldl Buffer.copy buffer) ↔
      payloads.Pairwise Comparable := by
  constructor
  · intro kept
    rw [List.pairwise_iff_forall_sublist]
    intro first second sublist
    have firstKept := kept first (sublist.subset List.mem_cons_self)
    have secondKept := kept second (sublist.subset (by simp))
    exact List.prefix_or_prefix_of_prefix firstKept secondKept
  · intro comparable
    induction payloads using List.reverseRecOn with
    | nil =>
      intro bytes member
      cases member
    | append_singleton earlier last ih =>
      rw [List.pairwise_append] at comparable
      obtain ⟨among, _, across⟩ := comparable
      intro bytes member
      rw [List.foldl_append, List.foldl_cons, List.foldl_nil]
      rcases List.mem_append.mp member with before | now
      · exact prefix_copy (ih among bytes before) (across bytes before last List.mem_cons_self)
      · rw [List.mem_singleton.mp now]
        exact List.prefix_append ..

/-! ## Batches -/

def Arrival.Soft : Arrival → Prop
  | .datagram _ _ => True
  | .failed errno => errno = .EINTR ∨ errno = .EAGAIN

/-- The datagrams that arrive between two EAGAIN answers, grouped; `batch` holds those met
since the last one. -/
def batches (batch : List (List UInt8 × UdpEndpoint)) :
    List Arrival → List (List (List UInt8 × UdpEndpoint))
  | [] => if batch = [] then [] else [batch]
  | .datagram payload sender :: rest => batches (batch ++ [(payload, sender)]) rest
  | .failed .EAGAIN :: rest => if batch = [] then batches [] rest else batch :: batches [] rest
  | .failed _ :: rest => batches batch rest

def fitted (size : Nat) (datagram : List UInt8 × UdpEndpoint) : List UInt8 × UdpEndpoint :=
  (datagram.1.take size, datagram.2)

def resultOf (size : Nat) (datagram : List UInt8 × UdpEndpoint) : UdpReceiveResult :=
  ⟨(datagram.1.take size).length, datagram.2⟩

def filled (size : Nat) (buffer : Buffer) (batch : List (List UInt8 × UdpEndpoint)) : Buffer :=
  (batch.map fun datagram => datagram.1.take size).foldl Buffer.copy buffer

theorem readResult_resultOf {size : Nat} {buffer : Buffer} {datagram : List UInt8 × UdpEndpoint} :
    readResult buffer (resultOf size datagram) = fitted size datagram ↔
      datagram.1.take size <+: buffer := by
  simp only [readResult, resultOf, fitted, Prod.mk.injEq, and_true]
  rw [List.prefix_iff_eq_take, eq_comm]

theorem readOne_session {socket : UdpSocket} (valid : socket.ensureValid = none) (size : Nat)
    {arrivals : List Arrival} (soft : ∀ arrival ∈ arrivals, arrival.Soft) (calls : Nat)
    (buffer : Buffer) :
    (Retry.session (socket.asyncRecvFrom size) failed calls buffer arrivals).flatMap readOne =
      ((datagrams arrivals).take calls).map (fitted size) := by
  have call : ∀ buffer arrivals, socket.asyncRecvFrom size buffer arrivals =
      Retry.run (UdpSocket.recvFromRound size) (.failed .EAGAIN) buffer arrivals := by
    intro buffer arrivals
    simp only [UdpSocket.asyncRecvFrom, valid]
  induction arrivals generalizing calls buffer with
  | nil =>
    rw [Retry.session_none]
    · simp [datagrams]
    · rw [call]
      rfl
  | cons arrival rest ih =>
    have softRest : ∀ arrival ∈ rest, arrival.Soft :=
      fun later member => soft later (List.mem_cons_of_mem _ member)
    cases arrival with
    | datagram payload sender =>
      cases calls with
      | zero => simp [Retry.session]
      | succ calls =>
        have returned : socket.asyncRecvFrom size buffer (.datagram payload sender :: rest) =
            some ((.ok (resultOf size (payload, sender)), buffer.copy (payload.take size)), rest) :=
          call _ _
        rw [Retry.session_succ returned rfl, List.flatMap_cons, ih softRest]
        have read : readResult (buffer.copy (payload.take size)) (resultOf size (payload, sender)) =
            fitted size (payload, sender) := readResult_resultOf.mpr (List.prefix_append ..)
        simp only [readOne, datagrams, List.take_succ_cons, List.map_cons, read,
          List.singleton_append]
    | failed errno =>
      have skipped : socket.asyncRecvFrom size buffer (.failed errno :: rest) =
          socket.asyncRecvFrom size buffer rest := by
        rw [call, call]
        rcases soft _ List.mem_cons_self with rfl | rfl <;> rfl
      rw [Retry.session_congr skipped, ih softRest]
      rfl

/-- One edge-triggered call returns the next batch, or waits for ever when none is left. -/
theorem asyncRecvFromEt_run (size : Nat) (buffer : Buffer) {arrivals : List Arrival}
    (soft : ∀ arrival ∈ arrivals, arrival.Soft) (batch : List (List UInt8 × UdpEndpoint)) :
    (batch ++ datagrams arrivals = [] ∧ batches batch arrivals = [] ∧
      Retry.run (UdpSocket.recvFromEtRound size) (.failed .EAGAIN)
        (filled size buffer batch, batch.map (resultOf size)) arrivals = none) ∨
    ∃ next rest, next ≠ [] ∧ batch ++ datagrams arrivals = next ++ datagrams rest ∧
      batches batch arrivals = next :: batches [] rest ∧ (∀ arrival ∈ rest, arrival.Soft) ∧
      Retry.run (UdpSocket.recvFromEtRound size) (.failed .EAGAIN)
        (filled size buffer batch, batch.map (resultOf size)) arrivals =
          some ((.ok (next.map (resultOf size)), filled size buffer next), rest) := by
  induction arrivals generalizing batch with
  | nil =>
    by_cases empty : batch = []
    · subst empty
      exact Or.inl ⟨rfl, rfl, rfl⟩
    · refine Or.inr ⟨batch, [], empty, rfl, ?_, soft, ?_⟩
      · simp only [batches, empty, if_false, if_true]
      · simp [Retry.run, UdpSocket.recvFromEtRound, recvfrom, empty]
  | cons arrival rest ih =>
    have softRest : ∀ arrival ∈ rest, arrival.Soft :=
      fun later member => soft later (List.mem_cons_of_mem _ member)
    cases arrival with
    | datagram payload sender =>
      have filledNext : filled size buffer (batch ++ [(payload, sender)]) =
          (filled size buffer batch).copy (payload.take size) := by
        simp [filled]
      have step := ih softRest (batch ++ [(payload, sender)])
      rw [filledNext, List.map_append, List.append_assoc] at step
      exact step
    | failed errno =>
      rcases soft _ List.mem_cons_self with rfl | rfl
      · exact ih softRest batch
      · by_cases empty : batch = []
        · subst empty
          exact ih softRest []
        · refine Or.inr ⟨batch, rest, empty, rfl, ?_, softRest, ?_⟩
          · simp only [batches, empty, if_false]
          · exact Retry.run_finish (by simp [UdpSocket.recvFromEtRound, recvfrom, empty]) rest

theorem readAll_batch_iff (size : Nat) (buffer : Buffer) (batch : List (List UInt8 × UdpEndpoint)) :
    (batch.map (resultOf size)).map (readResult (filled size buffer batch)) =
        batch.map (fitted size) ↔
      (batch.map fun datagram => datagram.1.take size).Pairwise Comparable := by
  rw [List.map_map, List.map_inj_left, ← prefix_copies_iff buffer]
  simp only [Function.comp_apply, readResult_resultOf, List.forall_mem_map, filled]

theorem readAll_session_iff {socket : UdpSocket} (valid : socket.ensureValid = none) (size : Nat)
    (calls : Nat) {arrivals : List Arrival} (soft : ∀ arrival ∈ arrivals, arrival.Soft)
    (enough : (datagrams arrivals).length ≤ calls) (buffer : Buffer) :
    (Retry.session (socket.asyncRecvFromEt size) failed calls buffer arrivals).flatMap readAll =
        (datagrams arrivals).map (fitted size) ↔
      ∀ batch ∈ batches [] arrivals,
        (batch.map fun datagram => datagram.1.take size).Pairwise Comparable := by
  have call : ∀ buffer arrivals, socket.asyncRecvFromEt size buffer arrivals =
      Retry.run (UdpSocket.recvFromEtRound size) (.failed .EAGAIN)
        (filled size buffer [], [].map (resultOf size)) arrivals := by
    intro buffer arrivals
    simp only [UdpSocket.asyncRecvFromEt, valid]
    rfl
  induction calls generalizing arrivals buffer with
  | zero =>
    have consumed : datagrams arrivals = [] := List.eq_nil_of_length_eq_zero (Nat.le_zero.mp enough)
    rcases asyncRecvFromEt_run size buffer soft [] with
      ⟨_, none, _⟩ | ⟨batch, rest, nonempty, split, _⟩
    · simp [Retry.session, consumed, none]
    · rw [List.nil_append, consumed] at split
      exact absurd (List.append_eq_nil_iff.mp split.symm).1 nonempty
  | succ calls ih =>
    rcases asyncRecvFromEt_run size buffer soft [] with
      ⟨consumed, none, blocked⟩ | ⟨batch, rest, nonempty, split, more, softRest, returned⟩
    · rw [List.nil_append] at consumed
      rw [Retry.session_none ((call buffer arrivals).trans blocked), consumed, none]
      simp
    · rw [List.nil_append] at split
      have fewer : (datagrams rest).length ≤ calls := by
        have positive := List.length_pos_iff.mpr nonempty
        rw [split, List.length_append] at enough
        omega
      have head := readAll_batch_iff size buffer batch
      have tail := ih softRest fewer (filled size buffer batch)
      rw [Retry.session_succ ((call buffer arrivals).trans returned) rfl, more, split,
        List.flatMap_cons, List.map_append, List.forall_mem_cons]
      constructor
      · intro same
        obtain ⟨first, later⟩ := List.append_inj same (by simp [readAll])
        exact ⟨head.mp first, tail.mp later⟩
      · rintro ⟨comparable, later⟩
        rw [tail.mpr later]
        exact congrArg (· ++ _) (head.mpr comparable)

/-- The edge-triggered calls deliver the datagrams that the plain calls deliver exactly
when the datagrams of each batch can share the buffer. -/
theorem receiveEt_eq_receivePlain_iff {socket : UdpSocket} (valid : socket.ensureValid = none)
    (size : Nat) (buffer : Buffer) {arrivals : List Arrival}
    (soft : ∀ arrival ∈ arrivals, arrival.Soft) :
    receiveEt socket size buffer arrivals = receivePlain socket size buffer arrivals ↔
      ∀ batch ∈ batches [] arrivals,
        (batch.map fun datagram => datagram.1.take size).Pairwise Comparable := by
  rw [receiveEt, receivePlain, readOne_session valid size soft, List.take_length]
  exact readAll_session_iff valid size _ soft (Nat.le_refl _) buffer

def sharing : List Arrival :=
  [.datagram [1, 2] ⟨1, 1⟩, .datagram [1] ⟨2, 1⟩, .failed .EAGAIN, .datagram [3] ⟨1, 1⟩]

theorem receiveEt_eq_receivePlain_iff_sharing :
    receiveEt ⟨some 0, 5⟩ 2 [0, 0] sharing = receivePlain ⟨some 0, 5⟩ 2 [0, 0] sharing := by
  have grouped : batches [] sharing = [[([1, 2], ⟨1, 1⟩), ([1], ⟨2, 1⟩)], [([3], ⟨1, 1⟩)]] := rfl
  refine (receiveEt_eq_receivePlain_iff (by decide) 2 [0, 0] (by simp [sharing, Arrival.Soft])).mpr ?_
  rw [grouped]
  simp [Comparable]

/-- Two datagrams in one batch: the caller reads the second one twice. -/
theorem receiveEt_repeats_last : ¬ ∀ (socket : UdpSocket) (size : Nat) (buffer : Buffer)
    (arrivals : List Arrival), socket.ensureValid = none → (∀ arrival ∈ arrivals, arrival.Soft) →
      receiveEt socket size buffer arrivals = receivePlain socket size buffer arrivals := by
  intro same
  have soft : ∀ arrival ∈ [Arrival.datagram [1] ⟨1, 1⟩, .datagram [2] ⟨1, 1⟩], arrival.Soft := by
    simp [Arrival.Soft]
  have differ : receiveEt ⟨some 0, 5⟩ 2 [0, 0] [.datagram [1] ⟨1, 1⟩, .datagram [2] ⟨1, 1⟩] ≠
      receivePlain ⟨some 0, 5⟩ 2 [0, 0] [.datagram [1] ⟨1, 1⟩, .datagram [2] ⟨1, 1⟩] := by decide
  exact differ (same _ 2 [0, 0] _ (by decide) soft)

end CoroEpoll
