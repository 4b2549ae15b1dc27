import Mathlib.Logic.Function.Basic

/-! What the library sees of the operating system and of the language: descriptor
numbers, errno values, and exceptions as the handlers of `run()` tell them apart.
-/

set_option autoImplicit false

namespace CoroEpoll

/-- A C `int` used as a file descriptor; negative numbers are invalid. -/
abbrev Fd := Int

inductive Errno where
  | EINTR | EAGAIN | EBADF | ENOENT | EEXIST
  | other (code : Nat)
  deriving DecidableEq, Repr

inductive StdException where
  | invalidArgument (what : String)
  | runtimeError (what : String)
  | systemError (code : Errno) (what : String)
  deriving DecidableEq, Repr

/-- A thrown value; `foreign` is one of a type not derived from `std::exception`. -/
inductive Exception where
  | std (error : StdException)
  | foreign (value : Nat)
  deriving DecidableEq, Repr

/-- Whether `catch (const std::exception&)` catches it. -/
def Exception.isStd : Exception → Bool
  | .std _ => true
  | .foreign _ => false

inductive Direction where
  | read | write
  deriving DecidableEq, Repr

def Direction.other : Direction → Direction
  | .read => .write
  | .write => .read

@[simp] theorem Direction.other_ne (d : Direction) : d.other ≠ d := by
  cases d <;> decide

/-- One entry of the array filled by epoll_wait or kevent, with the identity of
the open file it was made for. The program only ever sees the event. -/
structure Report (Ev : Type) where
  event : Ev
  socket : Nat
  deriving DecidableEq, Repr

/-- The kernel beside the calls made by the event loop: the descriptor table, the results
a blocking wait may give, and what happens outside the program. -/
structure System (K Ev Env : Type) where
  /-- a kernel just after the loop's constructor has registered the wakeup descriptor -/
  fresh : Fd → K → Prop
  sockets : K → Fd → Option Nat
  wait : List (Report Ev) → K → Option K
  change : Env → K → Option K
  openFd : Fd → K → Option K
  closeFd : Fd → K → K

end CoroEpoll
