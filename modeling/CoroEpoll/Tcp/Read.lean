import CoroEpoll.Library.Calls
import CoroEpoll.Tcp.Socket

/-! `async_read` and `async_read_et`, called until one of them returns 0 or throws, on a
stream that its peer ends by a shutdown or by an error.
-/

set_option autoImplicit false

namespace CoroEpoll.TcpSocket

/-- What `recv` answers: a positive number of bytes, 0, or an errno. -/
inductive RecvAnswer where
  | bytes (count : Nat)
  | zero
  | failed (errno : Errno)
  deriving DecidableEq, Repr

inductive Stop where
  | zero
  | threw (error : Exception)
  deriving DecidableEq, Repr

structure Reading where
  socket : TcpSocket
  /-- the error that ends the stream, or `none` for end of file -/
  ending : Option Errno
  /-- the bytes of the stream that no recv has returned yet -/
  unread : List UInt8
  buffer : List UInt8
  size : SizeT
  total : SizeT
  /-- the bytes that the calls have returned so far -/
  delivered : List UInt8
  /-- set by the first call that returns 0 or throws -/
  stop : Option Stop
  deriving DecidableEq

namespace Reading

def receive (s : Reading) (offset : SizeT) (count : Nat) : Reading :=
  { s with
    buffer := s.buffer.take offset.toNat ++ s.unread.take count ++
      s.buffer.drop (offset.toNat + count)
    unread := s.unread.drop count }

def returns (s : Reading) (count : SizeT) : Reading :=
  { s with
    delivered := s.delivered ++ s.buffer.take count.toNat
    stop := if count = 0 then some .zero else s.stop }

def throws (s : Reading) (error : Exception) : Reading := { s with stop := some (.threw error) }

/-- What the kernel may answer to a recv that has room for so many bytes. -/
def mayAnswer (s : Reading) (room : SizeT) : RecvAnswer → Bool
  | .bytes count => 0 < count ∧ count ≤ room.toNat ∧ count ≤ s.unread.length
  | .zero => room = 0 ∨ s.unread = [] ∧ s.ending = none
  | .failed errno => errno.hard = true → s.ending = some errno ∧ (room = 0 ∨ s.unread = [])

/-- The caller passes a buffer that is not empty, and stops at the first 0 or exception. -/
def start (s : Reading) (buffer : List UInt8) (size : SizeT) : Option (Retry.Next Reading Reading) :=
  if s.stop = none ∧ size ≠ 0 ∧ buffer.length = size.toNat then
    let s := { s with buffer, size, total := 0 }
    match s.socket.ensureValid with
    | some error => some (.finish (s.throws error))
    | none => some (.again s)
  else none

def round (s : Reading) : RecvAnswer → Retry.Next Reading Reading
  | .bytes count => .finish ((s.receive 0 count).returns (BitVec.ofNat 64 count))
  | .zero => .finish (s.returns 0)
  | .failed .EINTR => .again s
  | .failed .EAGAIN => .suspend s
  | .failed errno => .finish (s.throws (.std (.systemError errno "recv")))

def roundEt (s : Reading) : RecvAnswer → Retry.Next Reading Reading
  | .bytes count =>
    let s := s.receive s.total count
    .again { s with total := s.total + BitVec.ofNat 64 count }
  | .zero => .finish (s.returns s.total)
  | .failed .EINTR => .again s
  | .failed .EAGAIN => if s.total > 0 then .finish (s.returns s.total) else .suspend s
  | .failed errno => .finish (s.throws (.std (.systemError errno "recv")))

end Reading

def asyncRead : Calls.Op Reading (List UInt8 × SizeT) RecvAnswer where
  begin s arg := s.start arg.1 arg.2
  exit _ := none
  allowed s answer := s.mayAnswer s.size answer
  body := Reading.round

def asyncReadEt : Calls.Op Reading (List UInt8 × SizeT) RecvAnswer where
  begin s arg := s.start arg.1 arg.2
  exit _ := none
  allowed s answer := s.mayAnswer (s.size - s.total) answer
  body := Reading.roundEt

def Reading.fresh (socket : TcpSocket) (stream : List UInt8) (ending : Option Errno) : Reading :=
  ⟨socket, ending, stream, [], 0, 0, [], none⟩

def reader (socket : TcpSocket) (stream : List UInt8) (ending : Option Errno) :
    Transition.Machine (Calls.World Reading) (Calls.Act (List UInt8 × SizeT) RecvAnswer) :=
  asyncRead.machine (· = Reading.fresh socket stream ending)

def readerEt (socket : TcpSocket) (stream : List UInt8) (ending : Option Errno) :
    Transition.Machine (Calls.World Reading) (Calls.Act (List UInt8 × SizeT) RecvAnswer) :=
  asyncReadEt.machine (· = Reading.fresh socket stream ending)

/-! ## Where the bytes of the stream are -/

def Stop.of : Option Errno → Stop
  | none => .zero
  | some errno => .threw (.std (.systemError errno "recv"))

section
variable (stream : List UInt8) (ending : Option Errno)

structure Reading.Inside (s : Reading) : Prop where
  valid : s.socket.ensureValid = none
  ends : s.ending = ending
  going : s.stop = none
  positive : s.size ≠ 0
  length : s.buffer.length = s.size.toNat
  within : s.total.toNat ≤ s.size.toNat
  bytes : s.delivered ++ s.buffer.take s.total.toNat ++ s.unread = stream

structure Reading.Between (s : Reading) : Prop where
  valid : s.socket.ensureValid = none
  ends : s.ending = ending
  bytes : s.stop = none → s.delivered ++ s.unread = stream
  stopped : ∀ stop, s.stop = some stop → stop = .of ending
  whole : s.stop = some .zero → s.delivered = stream

def Reading.Complete (s : Reading) : Prop := s.stop ≠ none → s.delivered = stream

end

variable {stream : List UInt8} {ending : Option Errno}

namespace Reading

theorem length_receive {s : Reading} {offset : SizeT} {count : Nat}
    (fits : offset.toNat + count ≤ s.buffer.length) (there : count ≤ s.unread.length) :
    (s.receive offset count).buffer.length = s.buffer.length := by
  simp only [receive, List.length_append, List.length_take, List.length_drop]
  omega

/-- The front of the buffer after a recv has appended its bytes. -/
theorem take_receive {s : Reading} {offset : SizeT} {count : Nat}
    (fits : offset.toNat + count ≤ s.buffer.length) (there : count ≤ s.unread.length) :
    (s.receive offset count).buffer.take (offset.toNat + count) =
      s.buffer.take offset.toNat ++ s.unread.take count := by
  have length : (s.buffer.take offset.toNat ++ s.unread.take count).length =
      offset.toNat + count := by
    simp only [List.length_append, List.length_take]
    omega
  exact List.take_left' length

theorem start_inside {s : Reading} (between : s.Between stream ending) {buffer : List UInt8}
    {size : SizeT} {next : Retry.Next Reading Reading} (began : s.start buffer size = some next) :
    Calls.Op.Meets (Between stream ending) (Inside stream ending) next := by
  simp only [start, between.valid, Option.ite_none_right_eq_some, Option.some.injEq] at began
  obtain ⟨⟨going, positive, length⟩, rfl⟩ := began
  exact ⟨between.valid, between.ends, going, positive, length, Nat.zero_le _,
    by simpa using between.bytes going⟩

theorem returns_between {s : Reading} (valid : s.socket.ensureValid = none)
    (ends : s.ending = ending) (going : s.stop = none) {count : SizeT}
    (bytes : s.delivered ++ s.buffer.take count.toNat ++ s.unread = stream)
    (atEnd : count = 0 → s.unread = [] ∧ s.ending = none) :
    (s.returns count).Between stream ending := by
  by_cases zero : count = 0
  · obtain ⟨empty, eof⟩ := atEnd zero
    have stop_eq : (s.returns count).stop = some .zero := if_pos zero
    refine ⟨valid, ends, fun _ => bytes, ?_, fun _ => ?_⟩
    · intro stop stopped
      rw [stop_eq] at stopped
      rw [← Option.some.inj stopped, ← ends, eof]
      rfl
    · rw [empty, List.append_nil] at bytes
      exact bytes
  · have stop_eq : (s.returns count).stop = none := (if_neg zero).trans going
    refine ⟨valid, ends, fun _ => bytes, ?_, ?_⟩ <;> simp [stop_eq]

theorem throws_between {s : Reading} (inside : s.Inside stream ending) {errno : Errno}
    (ends : s.ending = some errno) :
    (s.throws (.std (.systemError errno "recv"))).Between stream ending := by
  refine ⟨inside.valid, inside.ends, by simp [throws], ?_, by simp [throws]⟩
  intro stop stopped
  rw [← Option.some.inj stopped, ← inside.ends, ends]
  rfl

theorem roundEt_inside {s : Reading} (inside : s.Inside stream ending) {answer : RecvAnswer}
    (allowed : s.mayAnswer (s.size - s.total) answer = true) :
    Calls.Op.Meets (Between stream ending) (Inside stream ending) (s.roundEt answer) := by
  cases answer with
  | bytes count =>
    obtain ⟨_, fits, there⟩ := of_decide_eq_true allowed
    have room := SizeT.toNat_room inside.within
    have advanced := SizeT.toNat_advance inside.within fits
    have bound : s.total.toNat + count ≤ s.buffer.length := by
      have length := inside.length
      have within := inside.within
      omega
    -- the bytes go behind those that the call has read, and off the stream
    have front := take_receive bound there
    have length := length_receive bound there
    refine ⟨inside.valid, inside.ends, inside.going, inside.positive, ?_, ?_, ?_⟩
    · exact length.trans inside.length
    · show (s.total + BitVec.ofNat 64 count).toNat ≤ s.size.toNat
      rw [advanced, ← inside.length]
      exact bound
    · show s.delivered ++ (s.receive s.total count).buffer.take
        (s.total + BitVec.ofNat 64 count).toNat ++ s.unread.drop count = stream
      rw [advanced, front, ← inside.bytes]
      simp only [List.append_assoc, List.take_append_drop]
  | zero =>
    apply returns_between inside.valid inside.ends inside.going inside.bytes
    intro nothing
    -- with room in the buffer, 0 means end of file
    have space : s.size - s.total ≠ 0 := by simpa [nothing] using inside.positive
    exact (of_decide_eq_true allowed).resolve_left space
  | failed errno =>
    cases errno with
    | EINTR => exact inside
    | EAGAIN =>
      simp only [roundEt]
      split
      · rename_i some
        apply returns_between inside.valid inside.ends inside.going inside.bytes
        intro nothing
        rw [nothing] at some
        exact absurd some (BitVec.lt_irrefl _)
      · exact inside
    | EBADF | ENOENT | EEXIST | other code =>
      exact throws_between inside (of_decide_eq_true allowed rfl).1

end Reading

/-- The edge-triggered reader meets the hard error in a call that has read nothing yet. -/
def ErrorAlone (w : Calls.World Reading) : Calls.Act (List UInt8 × SizeT) RecvAnswer → Prop
  | .answer (.failed errno) => errno.hard = true → w.state.total = 0
  | _ => True

theorem Reading.fresh_between {socket : TcpSocket} (valid : socket.ensureValid = none) :
    (fresh socket stream ending).Between stream ending :=
  ⟨valid, rfl, fun _ => rfl, by simp [fresh], by simp [fresh]⟩

theorem readerEt_step {w w' : Calls.World Reading} {a : Calls.Act (List UInt8 × SizeT) RecvAnswer}
    (holds : asyncReadEt.Holds (Reading.Between stream ending) (Reading.Inside stream ending) w)
    (step : asyncReadEt.step w a = some w') :
    asyncReadEt.Holds (Reading.Between stream ending) (Reading.Inside stream ending) w' := by
  apply holds.step _ (by simp [asyncReadEt]) _ step
  · intro s arg next between began
    exact Reading.start_inside between began
  · intro s answer inside allowed
    exact Reading.roundEt_inside inside allowed

theorem Reading.Between.complete {s : Reading} (between : s.Between stream ending)
    (quiet : ∀ error, s.stop ≠ some (.threw error)) : s.Complete stream := by
  intro stopped
  cases stop_eq : s.stop with
  | none => exact absurd stop_eq stopped
  | some stop =>
    cases stop with
    | zero => exact between.whole stop_eq
    | threw error => exact absurd stop_eq (quiet error)

theorem complete_of_not_threw {op : Calls.Op Reading (List UInt8 × SizeT) RecvAnswer}
    {w : Calls.World Reading}
    (holds : op.Holds (Reading.Between stream ending) (Reading.Inside stream ending) w)
    (quiet : ∀ error, w.state.stop ≠ some (.threw error)) : w.state.Complete stream := by
  rcases holds.state with ⟨_, between⟩ | ⟨_, inside⟩
  · exact between.complete quiet
  · exact fun stopped => absurd inside.going stopped

theorem throws_complete_iff {s : Reading} (inside : s.Inside stream ending) {errno : Errno}
    (allowed : s.mayAnswer (s.size - s.total) (.failed errno) = true) (hard : errno.hard = true) :
    s.delivered = stream ↔ s.total = 0 := by
  have atEnd := (of_decide_eq_true allowed hard).2
  constructor
  · intro whole
    -- the bytes in the buffer are part of the stream, so that there are none
    have lengths := congrArg List.length inside.bytes
    simp only [whole, List.length_append, List.length_take] at lengths
    have length := inside.length
    have within := inside.within
    have nothing : s.total.toNat = 0 := by omega
    exact BitVec.eq_of_toNat_eq nothing
  · intro nothing
    have space : s.size - s.total ≠ 0 := by simpa [nothing] using inside.positive
    have bytes := inside.bytes
    rw [nothing, atEnd.resolve_left space, List.append_nil] at bytes
    have zero : (0 : SizeT).toNat = 0 := rfl
    rw [zero, List.take_zero, List.append_nil] at bytes
    exact bytes

theorem step_complete_iff {w w' : Calls.World Reading}
    {a : Calls.Act (List UInt8 × SizeT) RecvAnswer}
    (holds : asyncReadEt.Holds (Reading.Between stream ending) (Reading.Inside stream ending) w)
    (step : asyncReadEt.step w a = some w') : w'.state.Complete stream ↔ ErrorAlone w a := by
  have next := readerEt_step holds step
  have quietly : (∀ error, w'.state.stop ≠ some (.threw error)) → ErrorAlone w a →
      (w'.state.Complete stream ↔ ErrorAlone w a) :=
    fun quiet alone => iff_of_true (complete_of_not_threw next quiet) alone
  cases Calls.Op.step_moves step with
  | call arg started idle began =>
    apply quietly _ trivial
    simp only [asyncReadEt, Reading.start, (holds.idle idle).valid,
      Option.ite_none_right_eq_some, Option.some.injEq] at began
    obtain ⟨⟨going, _⟩, rfl⟩ := began
    intro error
    simp [Calls.Op.land, Calls.Op.head, asyncReadEt, going]
  | ready suspended =>
    apply quietly _ trivial
    intro error
    simp [Calls.Op.head, asyncReadEt, (holds.suspended suspended).going]
  | answer answer running allowed =>
    obtain ⟨inside, _⟩ := holds.running running
    have going := inside.going
    cases answer with
    | bytes count => exact quietly (by simp [Calls.Op.land, Calls.Op.head, asyncReadEt,
        Reading.roundEt, Reading.receive, going]) trivial
    | zero => exact quietly (by
        intro error
        simp only [Calls.Op.land, asyncReadEt, Reading.roundEt, Reading.returns, going]
        split <;> simp) trivial
    | failed errno =>
      cases errno with
      | EINTR => exact quietly (by simp [Calls.Op.land, Calls.Op.head, asyncReadEt,
          Reading.roundEt, going]) (by simp [ErrorAlone, Errno.hard])
      | EAGAIN =>
        refine quietly ?_ (by simp [ErrorAlone, Errno.hard])
        intro error
        simp only [asyncReadEt, Reading.roundEt]
        split
        · simp only [Calls.Op.land, Reading.returns, going]
          split <;> simp
        · simp [Calls.Op.land, going]
      -- the call throws and the bytes in its buffer are never returned
      | EBADF | ENOENT | EEXIST | other code =>
        have lost := throws_complete_iff inside allowed rfl
        simpa [Reading.Complete, ErrorAlone, Calls.Op.land, asyncReadEt, Reading.roundEt, Reading.throws,
          Errno.hard] using lost

/-! ## The plain reader -/

/-- The plain reader never has bytes in hand: it is complete whenever it stops. -/
def Reading.PlainBetween (stream : List UInt8) (ending : Option Errno) (s : Reading) : Prop :=
  s.Between stream ending ∧ s.Complete stream

def Reading.PlainInside (stream : List UInt8) (ending : Option Errno) (s : Reading) : Prop :=
  s.Inside stream ending ∧ s.total = 0

theorem Reading.returns_not_threw {s : Reading} (going : s.stop = none) (count : SizeT)
    (error : Exception) : (s.returns count).stop ≠ some (.threw error) := by
  simp only [returns, going]
  split <;> simp

theorem Reading.round_inside {s : Reading} (inside : s.PlainInside stream ending)
    {answer : RecvAnswer} (allowed : s.mayAnswer s.size answer = true) :
    Calls.Op.Meets (PlainBetween stream ending) (PlainInside stream ending) (s.round answer) := by
  -- with nothing in hand the stream is what is delivered and what is unread
  obtain ⟨inside, nothing⟩ := inside
  have bytes := inside.bytes
  have zero : (0 : SizeT).toNat = 0 := rfl
  rw [nothing, zero, List.take_zero, List.append_nil] at bytes
  cases answer with
  | bytes count =>
    obtain ⟨positive, fits, there⟩ := of_decide_eq_true allowed
    have bound := s.size.isLt
    have count_eq : (BitVec.ofNat 64 count).toNat = count := by
      rw [BitVec.toNat_ofNat]
      exact Nat.mod_eq_of_lt (by omega)
    have front : (s.receive 0 count).buffer.take ((0 : SizeT).toNat + count) =
        s.buffer.take (0 : SizeT).toNat ++ s.unread.take count :=
      take_receive (by rw [inside.length, zero]; omega) there
    rw [zero, Nat.zero_add, List.take_zero, List.nil_append] at front
    have returned : ((s.receive 0 count).returns (BitVec.ofNat 64 count)).Between stream ending := by
      apply returns_between (s := s.receive 0 count) inside.valid inside.ends inside.going
      · rw [count_eq, front, ← bytes]
        simp [receive]
      · intro none
        have := congrArg BitVec.toNat none
        rw [count_eq] at this
        omega
    exact ⟨returned, returned.complete (returns_not_threw inside.going _)⟩
  | zero =>
    have returned : (s.returns 0).Between stream ending := by
      apply returns_between inside.valid inside.ends inside.going
      · simpa using bytes
      · exact fun _ => (of_decide_eq_true allowed).resolve_left inside.positive
    exact ⟨returned, returned.complete (returns_not_threw inside.going _)⟩
  | failed errno =>
    cases errno with
    | EINTR | EAGAIN => exact ⟨inside, nothing⟩
    | EBADF | ENOENT | EEXIST | other code =>
      obtain ⟨ends, atEnd⟩ := of_decide_eq_true allowed rfl
      refine ⟨throws_between inside ends, fun _ => ?_⟩
      rw [atEnd.resolve_left inside.positive, List.append_nil] at bytes
      exact bytes

theorem reader_holds {socket : TcpSocket} (valid : socket.ensureValid = none)
    {w : Calls.World Reading} (reached : (reader socket stream ending).Reachable w) :
    asyncRead.Holds (Reading.PlainBetween stream ending) (Reading.PlainInside stream ending) w := by
  apply Calls.Op.Holds.of_reachable _ _ (by simp [asyncRead]) _ reached
  · rintro s rfl
    exact ⟨Reading.fresh_between valid, fun stopped => absurd rfl stopped⟩
  · intro s arg next between began
    have inside := Reading.start_inside between.1 began
    simp only [asyncRead, Reading.start, between.1.valid, Option.ite_none_right_eq_some,
      Option.some.injEq] at began
    obtain ⟨_, rfl⟩ := began
    exact ⟨inside, rfl⟩
  · intro s answer inside allowed
    exact Reading.round_inside inside allowed

/-! ## Both readers on one stream -/

theorem readerEt_holds {socket : TcpSocket} (valid : socket.ensureValid = none)
    {w : Calls.World Reading} (reached : (readerEt socket stream ending).Reachable w) :
    asyncReadEt.Holds (Reading.Between stream ending) (Reading.Inside stream ending) w := by
  apply Calls.Op.Holds.of_reachable _ _ (by simp [asyncReadEt]) _ reached
  · rintro s rfl
    exact Reading.fresh_between valid
  · intro s arg next between began
    exact Reading.start_inside between began
  · intro s answer inside allowed
    exact Reading.roundEt_inside inside allowed

theorem stopped_stays {w w' : Calls.World Reading}
    {a : Calls.Act (List UInt8 × SizeT) RecvAnswer}
    (holds : asyncReadEt.Holds (Reading.Between stream ending) (Reading.Inside stream ending) w)
    (step : asyncReadEt.step w a = some w') : w.state.stop = none := by
  cases Calls.Op.step_moves step with
  | call arg next idle began =>
    simp only [asyncReadEt, Reading.start, Option.ite_none_right_eq_some] at began
    exact began.1.1
  | answer answer running => exact (holds.running running).1.going
  | ready suspended => exact (holds.suspended suspended).going

/-- A session of edge-triggered reads returns the whole stream exactly when its hard error
is met alone. -/
theorem readerEt_complete_iff {socket : TcpSocket} (valid : socket.ensureValid = none)
    {actions : List (Calls.Act (List UInt8 × SizeT) RecvAnswer)} {w : Calls.World Reading}
    (replay : (readerEt socket stream ending).exec ⟨.idle, .fresh socket stream ending⟩ actions =
      some w) :
    w.state.Complete stream ↔
      (readerEt socket stream ending).Each ErrorAlone ⟨.idle, .fresh socket stream ending⟩ actions := by
  let start : Calls.World Reading := ⟨.idle, .fresh socket stream ending⟩
  have holds : asyncReadEt.Holds (Reading.Between stream ending) (Reading.Inside stream ending) start :=
    readerEt_holds valid (.start ⟨rfl, rfl⟩)
  have complete : start.state.Complete stream := fun stopped => absurd rfl stopped
  have always_iff : (readerEt socket stream ending).Throughout (fun w => w.state.Complete stream)
      start actions ↔ (readerEt socket stream ending).Each ErrorAlone start actions :=
    Transition.Machine.throughout_iff_each
      (fun _ _ _ holds _ step => readerEt_step holds step)
      (fun _ _ _ holds _ _ step => step_complete_iff holds step)
      holds complete (Transition.Machine.each_true start actions) replay
  rw [← always_iff]
  constructor
  · intro last
    -- only a reader that has stopped can lack bytes, and it makes no further step
    have goesOn : ∀ w a w', asyncReadEt.Holds (Reading.Between stream ending)
        (Reading.Inside stream ending) w → (readerEt socket stream ending).step w a = some w' →
        w.state.Complete stream :=
      fun _ _ _ holds step stopped => absurd (stopped_stays holds step) stopped
    exact Transition.Machine.Throughout.of_last (fun _ _ _ holds step => readerEt_step holds step)
      goesOn holds replay last
  · exact fun always => always.last replay

/-- The edge-triggered read waits only when its last recv answered EAGAIN and it has read
nothing. -/
theorem readEt_waits {w w' : Calls.World Reading} {a : Calls.Act (List UInt8 × SizeT) RecvAnswer}
    (step : asyncReadEt.step w a = some w') (waits : w'.phase = .suspended) :
    a = .answer (.failed .EAGAIN) ∧ w.state.total = 0 := by
  cases Calls.Op.step_moves step with
  | call arg next idle began =>
    simp only [asyncReadEt, Reading.start, Option.ite_none_right_eq_some] at began
    obtain ⟨_, began⟩ := began
    split at began <;> cases Option.some.inj began <;> cases waits
  | ready => cases waits
  | answer answer =>
    cases answer with
    | bytes count | zero => cases waits
    | failed errno =>
      cases errno with
      | EAGAIN =>
        -- a call with bytes in hand returns them instead
        by_cases some : w.state.total > 0
        · have returned : asyncReadEt.body w.state (.failed .EAGAIN) =
              .finish (w.state.returns w.state.total) := if_pos some
          rw [returned] at waits
          cases waits
        · refine ⟨rfl, BitVec.eq_of_toNat_eq ?_⟩
          have none := BitVec.not_lt.mp some
          exact Nat.le_zero.mp none
      | EINTR | EBADF | ENOENT | EEXIST | other code => cases waits

theorem Reading.Between.stop_eq {s : Reading} (between : s.Between stream ending)
    (stopped : s.stop ≠ none) : s.stop = some (.of ending) := by
  obtain ⟨stop, stop_eq⟩ := Option.ne_none_iff_exists'.mp stopped
  rw [stop_eq, between.stopped stop stop_eq]

/-- The edge-triggered reads return the bytes that the plain reads return exactly when no
hard error is met in a call that has read bytes; both stop with 0 at end of file and with
an exception at a hard error. The edge-triggered read never passes the end of its buffer,
and waits only after EAGAIN with nothing read. -/
theorem read_et_matches_read_iff {socket : TcpSocket} (valid : socket.ensureValid = none)
    {actions : List (Calls.Act (List UInt8 × SizeT) RecvAnswer)} {et plain : Calls.World Reading}
    (replay : (readerEt socket stream ending).exec ⟨.idle, .fresh socket stream ending⟩ actions =
      some et) (stoppedEt : et.state.stop ≠ none)
    (reached : (reader socket stream ending).Reachable plain) (stopped : plain.state.stop ≠ none) :
    (et.state.delivered = plain.state.delivered ↔
      (readerEt socket stream ending).Each ErrorAlone ⟨.idle, .fresh socket stream ending⟩ actions) ∧
    et.state.stop = some (.of ending) ∧ plain.state.stop = some (.of ending) ∧
    ∀ w, (readerEt socket stream ending).Reachable w →
      (w.phase ≠ .idle → w.state.total.toNat + (w.state.size - w.state.total).toNat =
        w.state.size.toNat ∧ w.state.buffer.length = w.state.size.toNat) ∧
      ∀ a w', (readerEt socket stream ending).step w a = some w' → w'.phase = .suspended →
        a = .answer (.failed .EAGAIN) ∧ w.state.total = 0 := by
  have holdsPlain := reader_holds valid reached
  have reachedEt : (readerEt socket stream ending).Reachable et :=
    Transition.Machine.ReachableWhere.replay (.start ⟨rfl, rfl⟩) replay
  have holdsEt := readerEt_holds valid reachedEt
  -- both have stopped, and so are between two calls
  have plainEnd : Reading.PlainBetween stream ending plain.state := by
    rcases holdsPlain.state with ⟨_, between⟩ | ⟨_, inside⟩
    · exact between
    · exact absurd inside.1.going stopped
  have etEnd : Reading.Between stream ending et.state := by
    rcases holdsEt.state with ⟨_, between⟩ | ⟨_, inside⟩
    · exact between
    · exact absurd inside.going stoppedEt
  refine ⟨?_, etEnd.stop_eq stoppedEt, plainEnd.1.stop_eq stopped, ?_⟩
  · rw [← readerEt_complete_iff valid replay, plainEnd.2 stopped]
    exact ⟨fun whole _ => whole, fun complete => complete stoppedEt⟩
  · intro w reached
    have holds := readerEt_holds valid reached
    refine ⟨fun busy => ?_, fun a w' step waits => readEt_waits step waits⟩
    have inside : Reading.Inside stream ending w.state := by
      rcases holds.state with ⟨idle, _⟩ | ⟨_, inside⟩
      · exact absurd idle busy
      · exact inside
    have room := SizeT.toNat_room inside.within
    have within := inside.within
    exact ⟨by omega, inside.length⟩

def plainCalls : List (Calls.Act (List UInt8 × SizeT) RecvAnswer) :=
  [.call ([0, 0], 2), .answer (.bytes 2), .call ([0, 0], 2), .answer (.failed (.other 104))]

/-- The same by edge-triggered calls, the first of which fills its buffer. -/
def etCalls : List (Calls.Act (List UInt8 × SizeT) RecvAnswer) :=
  [.call ([0, 0], 2), .answer (.bytes 2), .answer .zero, .call ([0, 0], 2),
    .answer (.failed (.other 104))]

def etCallBehind : List (Calls.Act (List UInt8 × SizeT) RecvAnswer) :=
  [.call ([0, 0, 0], 3), .answer (.bytes 2), .answer (.failed (.other 104))]

theorem plainCalls_read : ∃ plain, (reader ⟨some 0, 5⟩ [1, 2] (some (.other 104))).Reachable plain ∧
    plain.state.stop ≠ none ∧ plain.state.delivered = [1, 2] := by
  have run : ((reader ⟨some 0, 5⟩ [1, 2] (some (.other 104))).exec
      ⟨.idle, .fresh ⟨some 0, 5⟩ [1, 2] (some (.other 104))⟩ plainCalls).map
        (fun w => (w.state.stop.isSome, w.state.delivered)) = some (true, [1, 2]) := by decide
  obtain ⟨plain, replay, final⟩ := Option.map_eq_some_iff.mp run
  simp only [Prod.mk.injEq] at final
  exact ⟨plain, Transition.Machine.ReachableWhere.replay (.start ⟨rfl, rfl⟩) replay,
    Option.isSome_iff_ne_none.mp final.1, final.2⟩

theorem read_et_matches_read_iff_filled : ∃ et plain,
    (readerEt ⟨some 0, 5⟩ [1, 2] (some (.other 104))).exec
      ⟨.idle, .fresh ⟨some 0, 5⟩ [1, 2] (some (.other 104))⟩ etCalls = some et ∧
    (reader ⟨some 0, 5⟩ [1, 2] (some (.other 104))).Reachable plain ∧
    (et.state.delivered = plain.state.delivered ↔
      (readerEt ⟨some 0, 5⟩ [1, 2] (some (.other 104))).Each ErrorAlone
        ⟨.idle, .fresh ⟨some 0, 5⟩ [1, 2] (some (.other 104))⟩ etCalls) := by
  have run : ((readerEt ⟨some 0, 5⟩ [1, 2] (some (.other 104))).exec
      ⟨.idle, .fresh ⟨some 0, 5⟩ [1, 2] (some (.other 104))⟩ etCalls).map
        (fun w => w.state.stop.isSome) = some true := by decide
  obtain ⟨et, replay, stopped⟩ := Option.map_eq_some_iff.mp run
  obtain ⟨plain, reached, plainStopped, _⟩ := plainCalls_read
  exact ⟨et, plain, replay, reached, (read_et_matches_read_iff (by decide) replay
    (Option.isSome_iff_ne_none.mp stopped) reached plainStopped).1⟩

/-- The bytes read before the reset are lost with the exception. -/
theorem read_et_loses_bytes : ¬ ∀ (socket : TcpSocket) (stream : List UInt8)
    (ending : Option Errno) (et plain : Calls.World Reading), socket.ensureValid = none →
    (readerEt socket stream ending).Reachable et → et.state.stop ≠ none →
    (reader socket stream ending).Reachable plain → plain.state.stop ≠ none →
      et.state.delivered = plain.state.delivered := by
  intro always
  have run : ((readerEt ⟨some 0, 5⟩ [1, 2] (some (.other 104))).exec
      ⟨.idle, .fresh ⟨some 0, 5⟩ [1, 2] (some (.other 104))⟩ etCallBehind).map
        (fun w => (w.state.stop.isSome, w.state.delivered)) = some (true, []) := by decide
  obtain ⟨et, replay, final⟩ := Option.map_eq_some_iff.mp run
  simp only [Prod.mk.injEq] at final
  obtain ⟨plain, reached, stopped, delivered⟩ := plainCalls_read
  have same := always ⟨some 0, 5⟩ [1, 2] (some (.other 104)) et plain (by decide)
    (Transition.Machine.ReachableWhere.replay (.start ⟨rfl, rfl⟩) replay)
    (Option.isSome_iff_ne_none.mp final.1) reached stopped
  rw [final.2, delivered] at same
  cases same

end CoroEpoll.TcpSocket
