import CoroEpoll.System.Interface

/-! A TCP socket as its coroutines see it, and `size_t`. -/

set_option autoImplicit false

namespace CoroEpoll

abbrev SizeT := BitVec 64

structure TcpSocket where
  /-- the event loop, by its identity -/
  loop : Option Nat
  fd : Fd
  deriving DecidableEq, Repr

def TcpSocket.ensureValid (socket : TcpSocket) : Option Exception :=
  if socket.loop = none ∨ socket.fd < 0 then some (.std (.runtimeError "invalid TcpSocket"))
  else none

/-- An errno that a retry does not mend. -/
def Errno.hard : Errno → Bool
  | .EINTR | .EAGAIN => false
  | _ => true

namespace SizeT

/-- `size - total`, the room that is left. -/
theorem toNat_room {size total : SizeT} (within : total.toNat ≤ size.toNat) :
    (size - total).toNat = size.toNat - total.toNat :=
  BitVec.toNat_sub_of_le within

/-- `total += count` for a count that fits the room. -/
theorem toNat_advance {size total : SizeT} (within : total.toNat ≤ size.toNat) {count : Nat}
    (fits : count ≤ (size - total).toNat) :
    (total + BitVec.ofNat 64 count).toNat = total.toNat + count := by
  rw [toNat_room within] at fits
  have bound := size.isLt
  rw [BitVec.toNat_add, BitVec.toNat_ofNat, Nat.mod_eq_of_lt (show count < 2 ^ 64 by omega),
    Nat.mod_eq_of_lt (by omega)]

end SizeT

end CoroEpoll
