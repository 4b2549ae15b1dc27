import CoroEpoll.System.Interface

/-! The epoll interface and a model of the kernel behind it.

A level-triggered registration is reported while the readiness meets its mask, an
edge-triggered one once after each ADD or MOD that finds it ready and once after
each later readiness change inside its mask. EPOLLERR and EPOLLHUP belong to
every mask.
-/

set_option autoImplicit false

namespace CoroEpoll

abbrev EventMask := BitVec 32

def EPOLLIN : EventMask := 0x001#32
def EPOLLOUT : EventMask := 0x004#32
def EPOLLERR : EventMask := 0x008#32
def EPOLLHUP : EventMask := 0x010#32
def EPOLLRDHUP : EventMask := 0x2000#32
def EPOLLET : EventMask := 0x80000000#32

/-- `(events & bits) != 0` -/
def overlaps (events bits : EventMask) : Bool := (events &&& bits) != 0#32

theorem overlaps_or (events first second : EventMask) :
    overlaps events (first ||| second) = (overlaps events first || overlaps events second) := by
  rw [Bool.eq_iff_iff]
  simp only [overlaps, bne_iff_ne, ne_eq, Bool.or_eq_true, BitVec.and_or_distrib_left,
    BitVec.or_eq_zero_iff, not_and_or]

theorem overlaps_comm (first second : EventMask) : overlaps first second = overlaps second first := by
  simp only [overlaps, BitVec.and_comm]

theorem overlaps_and (events mask bits : EventMask) :
    overlaps (events &&& mask) bits = overlaps events (mask &&& bits) := by
  simp only [overlaps, BitVec.and_assoc]

theorem overlaps_or_left (first second bits : EventMask) :
    overlaps (first ||| second) bits = (overlaps first bits || overlaps second bits) := by
  rw [overlaps_comm, overlaps_or, overlaps_comm bits, overlaps_comm bits]

def Includes (mask bits : EventMask) : Prop := mask &&& bits = bits

theorem Includes.or {mask first second : EventMask} (left : Includes mask first)
    (right : Includes mask second) : Includes mask (first ||| second) := by
  rw [Includes, BitVec.and_or_distrib_left, left, right]

theorem Includes.or_left {mask bits : EventMask} (included : Includes mask bits)
    (more : EventMask) : Includes (mask ||| more) bits := by
  rw [Includes, BitVec.and_comm, BitVec.and_or_distrib_left, BitVec.and_comm bits mask, included]
  ext i bound
  simp only [BitVec.getElem_or, BitVec.getElem_and, Bool.or_and_distrib_left, Bool.or_self]
  cases bits[i] <;> simp

theorem Includes.overlaps_and {mask bits : EventMask} (included : Includes mask bits)
    (events : EventMask) : overlaps (events &&& mask) bits = overlaps events bits := by
  rw [CoroEpoll.overlaps_and, included]

theorem Includes.overlaps {mask bits events : EventMask} (included : Includes mask bits)
    (met : overlaps events bits = true) : overlaps events mask = true := by
  rw [← included.overlaps_and] at met
  simp only [CoroEpoll.overlaps, bne_iff_ne, ne_eq] at met ⊢
  intro zero
  exact met (by rw [zero, BitVec.zero_and])

/-- Bits that were not met before are met after a change exactly when it changes them. -/
theorem overlaps_xor {before after bits : EventMask} (absent : overlaps before bits = false) :
    overlaps (before ^^^ after) bits = overlaps after bits := by
  have zero : before &&& bits = 0#32 := by simpa [overlaps] using absent
  have split : (before ^^^ after) &&& bits = (before &&& bits) ^^^ (after &&& bits) := by
    ext i bound
    simp only [BitVec.getElem_and, BitVec.getElem_xor]
    cases before[i] <;> cases after[i] <;> cases bits[i] <;> rfl
  rw [overlaps, split, zero, BitVec.zero_xor, overlaps]

structure EpollEvent where
  events : EventMask
  fd : Fd
  deriving DecidableEq, Repr

/-- An epoll_ctl request. DEL passes no event. -/
inductive CtlOp where
  | add (events : EventMask)
  | mod (events : EventMask)
  | del
  deriving DecidableEq, Repr

/-- What the event loop calls: epoll_ctl, which answers `none` or an errno, and
the reads that empty the wakeup descriptor. -/
structure EpollApi (K : Type) where
  ctl : CtlOp → Fd → K → Option Errno × K
  drain : Fd → K → K

namespace Epoll

structure Registration where
  events : EventMask
  /-- an edge is still to be reported -/
  armed : Bool
  deriving DecidableEq, Repr

def Registration.edgeTriggered (r : Registration) : Bool := overlaps r.events EPOLLET

def Registration.watched (r : Registration) : EventMask :=
  (r.events &&& ~~~EPOLLET) ||| (EPOLLERR ||| EPOLLHUP)

structure Kernel where
  /-- the open file behind each descriptor number -/
  sockets : Fd → Option Nat
  /-- number of files opened so far -/
  opened : Nat
  ready : Fd → EventMask
  interest : Fd → Option Registration
  /-- the error the next epoll_ctl call will meet for want of a resource -/
  fault : Option Errno

namespace Kernel

def register (fd : Fd) (events : EventMask) (k : Kernel) : Kernel :=
  let fresh : Registration := ⟨events, false⟩
  let armed := overlaps (k.ready fd) fresh.watched
  { k with interest := Function.update k.interest fd (some ⟨events, armed⟩) }

theorem interest_register_same (fd : Fd) (events : EventMask) (k : Kernel) :
    (k.register fd events).interest fd =
      some ⟨events, overlaps (k.ready fd) (Registration.watched ⟨events, false⟩)⟩ :=
  Function.update_self ..

theorem interest_register_ne {fd other : Fd} (different : other ≠ fd) (events : EventMask)
    (k : Kernel) : (k.register fd events).interest other = k.interest other :=
  Function.update_of_ne different ..

def ctl (op : CtlOp) (fd : Fd) (k : Kernel) : Option Errno × Kernel :=
  match k.fault with
  | some errno => (some errno, { k with fault := none })
  | none =>
    if k.sockets fd = none then (some .EBADF, k) else
    match op, k.interest fd with
    | .add events, none => (none, k.register fd events)
    | .add _, some _ => (some .EEXIST, k)
    | .mod events, some _ => (none, k.register fd events)
    | .mod _, none => (some .ENOENT, k)
    | .del, some _ => (none, { k with interest := Function.update k.interest fd none })
    | .del, none => (some .ENOENT, k)

@[simp] theorem sockets_ctl (op : CtlOp) (fd : Fd) (k : Kernel) :
    (k.ctl op fd).2.sockets = k.sockets := by
  unfold ctl
  split
  · rfl
  · split
    · rfl
    · split <;> rfl

@[simp] theorem ready_ctl (op : CtlOp) (fd : Fd) (k : Kernel) :
    (k.ctl op fd).2.ready = k.ready := by
  unfold ctl
  split
  · rfl
  · split
    · rfl
    · split <;> rfl

theorem fault_ctl {k : Kernel} (faultless : k.fault = none) (op : CtlOp) (fd : Fd) :
    (k.ctl op fd).2.fault = none := by
  unfold ctl
  rw [faultless]
  dsimp only
  split
  · exact faultless
  · split <;> simp [register, faultless]

theorem interest_ctl_ne {fd other : Fd} (different : other ≠ fd) (op : CtlOp) (k : Kernel) :
    (k.ctl op fd).2.interest other = k.interest other := by
  unfold ctl
  split
  · rfl
  · split
    · rfl
    · split <;> simp [register, Function.update_of_ne different]

theorem ctl_closed {k : Kernel} {fd : Fd} (faultless : k.fault = none) (closed : k.sockets fd = none)
    (op : CtlOp) : k.ctl op fd = (some .EBADF, k) := by
  simp [ctl, faultless, closed]

theorem ctl_add {k : Kernel} {fd : Fd} (faultless : k.fault = none) (isOpen : k.sockets fd ≠ none)
    (absent : k.interest fd = none) (events : EventMask) :
    k.ctl (.add events) fd = (none, k.register fd events) := by
  simp [ctl, faultless, isOpen, absent]

theorem ctl_exists {k : Kernel} {fd : Fd} (faultless : k.fault = none) (isOpen : k.sockets fd ≠ none)
    (present : k.interest fd ≠ none) (events : EventMask) :
    k.ctl (.add events) fd = (some .EEXIST, k) := by
  obtain ⟨r, found⟩ := Option.ne_none_iff_exists'.mp present
  simp [ctl, faultless, isOpen, found]

theorem ctl_mod {k : Kernel} {fd : Fd} (faultless : k.fault = none) (isOpen : k.sockets fd ≠ none)
    (present : k.interest fd ≠ none) (events : EventMask) :
    k.ctl (.mod events) fd = (none, k.register fd events) := by
  obtain ⟨r, found⟩ := Option.ne_none_iff_exists'.mp present
  simp [ctl, faultless, isOpen, found]

theorem interest_ctl_del {k : Kernel} {fd : Fd} (faultless : k.fault = none)
    (isOpen : k.sockets fd ≠ none) : (k.ctl .del fd).2.interest fd = none := by
  cases found : k.interest fd <;> simp [ctl, faultless, isOpen, found]

theorem open_of_ctl {k : Kernel} {op : CtlOp} {fd : Fd} (succeeded : (k.ctl op fd).1 = none) :
    k.sockets fd ≠ none := by
  intro closed
  cases fault : k.fault <;> simp [ctl, fault, closed] at succeeded

/-- A readiness change. An edge-triggered registration is armed by a change
inside its mask. -/
def setReady (fd : Fd) (bits : EventMask) (k : Kernel) : Kernel :=
  { k with
    ready := Function.update k.ready fd bits
    interest := Function.update k.interest fd ((k.interest fd).map fun r =>
      { r with armed := r.armed || overlaps (k.ready fd ^^^ bits) r.watched }) }

theorem interest_setReady_same (fd : Fd) (bits : EventMask) (k : Kernel) :
    (k.setReady fd bits).interest fd = (k.interest fd).map fun r =>
      { r with armed := r.armed || overlaps (k.ready fd ^^^ bits) r.watched } :=
  Function.update_self ..

theorem interest_setReady_ne {fd other : Fd} (different : other ≠ fd) (bits : EventMask)
    (k : Kernel) : (k.setReady fd bits).interest other = k.interest other :=
  Function.update_of_ne different ..

def reported (fd : Fd) (r : Registration) (k : Kernel) : EventMask := k.ready fd &&& r.watched

def pending (fd : Fd) (k : Kernel) : Bool :=
  match k.interest fd with
  | none => false
  | some r => k.reported fd r != 0#32 && (!r.edgeTriggered || r.armed)

def mayReport (report : Report EpollEvent) (k : Kernel) : Bool :=
  k.pending report.event.fd && k.sockets report.event.fd == some report.socket &&
    (k.interest report.event.fd).any fun r => k.reported report.event.fd r == report.event.events

/-- epoll_wait returns any subset of the pending reports, at most one for each
descriptor, and disarms the edge-triggered ones among them. -/
def wait (reports : List (Report EpollEvent)) (k : Kernel) : Option Kernel :=
  if (reports.map (·.event.fd)).Nodup ∧ ∀ r ∈ reports, k.mayReport r then
    some { k with interest := fun fd =>
      if fd ∈ reports.map (·.event.fd) then (k.interest fd).map fun r => { r with armed := false }
      else k.interest fd }
  else none

def openFd (fd : Fd) (k : Kernel) : Option Kernel :=
  if 0 ≤ fd ∧ k.sockets fd = none then
    some { k with
      sockets := Function.update k.sockets fd (some k.opened)
      opened := k.opened + 1
      ready := Function.update k.ready fd 0#32
      interest := Function.update k.interest fd none }
  else none

/-- `::close`: the registration goes with the file. -/
def closeFd (fd : Fd) (k : Kernel) : Kernel :=
  { k with
    sockets := Function.update k.sockets fd none
    interest := Function.update k.interest fd none }

theorem closeFd_ctl_del {k : Kernel} (faultless : k.fault = none) (fd : Fd) :
    (k.ctl .del fd).2.closeFd fd = k.closeFd fd := by
  by_cases closed : k.sockets fd = none
  · rw [ctl_closed faultless closed]
  · cases found : k.interest fd <;> simp [ctl, closeFd, faultless, closed, found]

end Kernel

/-- What happens outside the program: readiness changes, resource exhaustion. -/
inductive Change where
  | ready (fd : Fd) (bits : EventMask)
  | fault (errno : Errno)
  deriving DecidableEq, Repr

def Kernel.change : Change → Kernel → Option Kernel
  | .ready fd bits, k => some (k.setReady fd bits)
  | .fault errno, k => some { k with fault := some errno }

structure Kernel.Fresh (wakeupFd : Fd) (k : Kernel) : Prop where
  registered : ∃ armed, k.interest wakeupFd = some ⟨EPOLLIN, armed⟩
  others : ∀ fd, fd ≠ wakeupFd → k.interest fd = none
  wakeup_open : k.sockets wakeupFd ≠ none
  numbered : ∀ fd n, k.sockets fd = some n → n < k.opened
  distinct : ∀ fd fd' n, k.sockets fd = some n → k.sockets fd' = some n → fd = fd'
  faultless : k.fault = none

def Kernel.boot (wakeupFd : Fd) : Kernel where
  sockets := Function.update (fun _ => none) wakeupFd (some 0)
  opened := 1
  ready _ := 0#32
  interest := Function.update (fun _ => none) wakeupFd (some ⟨EPOLLIN, false⟩)
  fault := none

theorem Kernel.boot_fresh (wakeupFd : Fd) : (Kernel.boot wakeupFd).Fresh wakeupFd where
  registered := ⟨false, by simp [boot]⟩
  others _ different := by simp [boot, different]
  wakeup_open := by simp [boot]
  numbered fd n isOpen := by
    simp only [boot, Function.update_apply] at isOpen ⊢
    split at isOpen
    · cases isOpen
      exact Nat.zero_lt_one
    · cases isOpen
  distinct fd fd' n first second := by
    simp only [boot, Function.update_apply] at first second
    split at first
    · split at second
      · rename_i left right
        exact left.trans right.symm
      · cases second
    · cases first
  faultless := rfl

def api : EpollApi Kernel where
  ctl := Kernel.ctl
  drain fd k := k.setReady fd 0#32

def system : System Kernel EpollEvent Change where
  fresh := Kernel.Fresh
  sockets := Kernel.sockets
  wait := Kernel.wait
  change := Kernel.change
  openFd := Kernel.openFd
  closeFd := Kernel.closeFd

end Epoll

end CoroEpoll
