import CoroEpoll.Sockets.SetUp

/-! Who owns the descriptors: `TcpSocket` and `UdpSocket` objects that are constructed, moved,
waited on, closed, bound and destroyed in any order.
-/

set_option autoImplicit false

namespace CoroEpoll.Ownership

inductive Object where
  | tcp (socket : TcpSocket)
  | udp (socket : UdpSocket)
  deriving DecidableEq, Repr

namespace Object

def loop : Object → Option Nat
  | .tcp socket => socket.loop
  | .udp socket => socket.loop

def fd : Object → Fd
  | .tcp socket => socket.fd
  | .udp socket => socket.fd

def ensureValid : Object → Option Exception
  | .tcp socket => socket.ensureValid
  | .udp socket => socket.ensureValid

/-- What a move leaves of the object it takes from. -/
def moved : Object → Object
  | .tcp _ => .tcp ⟨none, -1⟩
  | .udp _ => .udp ⟨none, -1⟩

def sameClass : Object → Object → Bool
  | .tcp _, .tcp _ | .udp _, .udp _ => true
  | _, _ => false

variable {K Ev Env : Type} (B : Backend K Ev Env)

def close (object : Object) (p : Process K) : Object × Process K :=
  match object with
  | .tcp socket => let (socket, p) := socket.close B p; (.tcp socket, p)
  | .udp socket => let (socket, p) := socket.close B p; (.udp socket, p)

end Object

def construct (l : Nat) (fd : Fd) : Except Exception TcpSocket :=
  if fd < 0 then
    .error (.std (.invalidArgument "TcpSocket requires a valid file descriptor"))
  else .ok ⟨some l, fd⟩

structure World (K : Type) where
  process : Process K
  /-- the live objects -/
  objects : Nat → Option Object

inductive Act (K Ev : Type) where
  /-- `TcpSocket()` -/
  | default (id : Nat)
  /-- `TcpSocket(loop, fd)` with a descriptor that has just been opened -/
  | construct (id : Nat) (l : Nat) (fd : Fd)
  /-- `UdpSocket(loop)` -/
  | constructUdp (id : Nat) (l : Nat)
  | moveConstruct (id source : Nat)
  | moveAssign (target source : Nat)
  | bind (id : Nat) (port : BitVec 16) (reusePort : Bool) (answers : Answers)
  | wait (id : Nat) (d : Direction) (et : Bool) (w : Waiter)
  | close (id : Nat)
  | destroy (id : Nat)
  | dispatch (l : Nat) (event : Ev)
  /-- the kernel behind a loop changes in any way -/
  | kernel (l : Nat) (kernel : K)

namespace World

variable {K Ev Env : Type}

def set (id : Nat) (object : Option Object) (s : World K) : World K :=
  { s with objects := Function.update s.objects id object }

def add (id : Nat) (object : Object) (s : World K) : Option (World K) :=
  match s.objects id with
  | none => some (s.set id (some object))
  | some _ => none

def take (id source : Nat) (object : Object) (s : World K) : World K :=
  (s.set source (some object.moved)).set id (some object)

section
variable (B : Backend K Ev Env)

def close (id : Nat) (object : Object) (s : World K) : World K :=
  { s.set id (some (object.close B s.process).1) with process := (object.close B s.process).2 }

def wait (object : Object) (d : Direction) (et : Bool) (w : Waiter) (s : World K) : World K :=
  match object.ensureValid, object.loop with
  | none, some l =>
    { s with process := s.process.onLoop l fun loop => (B.awaitSuspend object.fd d et w loop).1 }
  | _, _ => s

def bind (platform : Platform) (id : Nat) (socket : UdpSocket) (port : BitVec 16)
    (reusePort : Bool) (answers : Answers) (s : World K) : World K :=
  let result := socket.bind platform B port reusePort answers s.process
  { s.set id (some (.udp result.socket)) with process := result.process }

end

end World

variable {K Ev Env : Type} (B : Backend K Ev Env) (platform : Platform)

def step (s : World K) : Act K Ev → Option (World K)
  | .default id => s.add id (.tcp ⟨none, -1⟩)
  | .construct id l fd =>
    match Ownership.construct l fd with
    | .error _ => some s
    | .ok socket =>
      if s.process.free fd then
        (s.add id (.tcp socket)).map fun after => { after with process := s.process.openFd fd }
      else none
  | .constructUdp id l => s.add id (.udp ⟨some l, -1⟩)
  | .moveConstruct id source =>
    match s.objects id, s.objects source with
    | none, some object => some (s.take id source object)
    | _, _ => none
  | .moveAssign target source =>
    match s.objects target, s.objects source with
    | some old, some object =>
      if old.sameClass object then
        if target = source then some s
        else some ((s.close B target old).take target source object)
      else none
    | _, _ => none
  | .bind id port reusePort answers =>
    match s.objects id with
    | some (.udp socket) =>
      if answers.possible (socket.close B s.process).2 then
        some (s.bind B platform id socket port reusePort answers)
      else none
    | _ => none
  | .wait id d et w => (s.objects id).map fun object => s.wait B object d et w
  | .close id => (s.objects id).map fun object => s.close B id object
  | .destroy id => (s.objects id).map fun object => (s.close B id object).set id none
  | .dispatch l event =>
    some { s with process := s.process.onLoop l fun loop => (B.dispatch event loop).1 }
  | .kernel l kernel => some { s with process := s.process.onLoop l (·.withKernel kernel) }

structure Start (s : World K) : Prop where
  files : ∀ fd, s.process.files fd = none
  opened : s.process.opened = 0
  closings : s.process.closings = []
  states : ∀ l fd, (s.process.loops l).states fd = none
  objects : ∀ id, s.objects id = none

def machine : Transition.Machine (World K) (Act K Ev) where
  start := Start
  step := step B platform

/-- Each open descriptor has one owner among the live objects, and every object is invalid or
owns an open descriptor that no other object has. -/
structure OneOwner (s : World K) : Prop where
  owner : ∀ fd n, s.process.files fd = some n →
    ∃! id, ∃ object, s.objects id = some object ∧ object.fd = fd
  others : ∀ id object, s.objects id = some object → object.fd < 0 ∨
    s.process.files object.fd ≠ none ∧
      ∀ id' object', id' ≠ id → s.objects id' = some object' → object'.fd ≠ object.fd

/-- Once no object is left, each file has been passed to `::close` once. -/
def ClosedOnce (s : World K) : Prop :=
  (∀ id, s.objects id = none) → ∀ n, n < s.process.opened → s.process.closed.count n = 1

/-- Each call of `::close` was passed an open descriptor, for which no loop had an entry. -/
def ClosesClean (p : Process K) : Prop :=
  ∀ closing ∈ p.closings, closing.file ≠ none ∧ ∀ l, closing.registered l = false

/-! ## The books -/

def Object.holding (object : Object) : Option (Option Nat × Fd) :=
  if 0 ≤ object.fd then some (object.loop, object.fd) else none

def World.holder (s : World K) (id : Nat) : Option (Option Nat × Fd) :=
  (s.objects id).bind Object.holding

structure Books (p : Process K) (holder : Nat → Option (Option Nat × Fd)) : Prop where
  sound : p.Sound
  valid : ∀ fd n, p.files fd = some n → 0 ≤ fd
  owner : ∀ fd n, p.files fd = some n → ∃ id loop, holder id = some (loop, fd)
  isOpen : ∀ id loop fd, holder id = some (loop, fd) → p.files fd ≠ none
  apart : ∀ id id' loop loop' fd, holder id = some (loop, fd) → holder id' = some (loop', fd) →
    id = id'
  entries : ∀ l fd, (p.loops l).hasEntry fd → ∃ id, holder id = some (some l, fd)
  clean : ClosesClean p

namespace Books

variable {p : Process K} {holder : Nat → Option (Option Nat × Fd)} {id : Nat} {loop : Option Nat}
  {fd : Fd}

theorem no_entry (books : Books p holder) (free : p.files fd = none) (l : Nat) :
    ¬ (p.loops l).hasEntry fd := by
  intro entry
  obtain ⟨id, held⟩ := books.entries l fd entry
  exact books.isOpen id _ fd held free

theorem onLoop (books : Books p holder) (l : Nat)
    (change : EventLoop K Waiter → EventLoop K Waiter)
    (entries : ∀ fd, (change (p.loops l)).hasEntry fd →
      (p.loops l).hasEntry fd ∨ ∃ id, holder id = some (some l, fd)) :
    Books (p.onLoop l change) holder where
  sound := books.sound.onLoop l change
  valid := books.valid
  owner := books.owner
  isOpen := books.isOpen
  apart := books.apart
  entries l' fd entry := by
    rw [Process.loops_onLoop] at entry
    split at entry
    · rename_i same
      rw [same]
      rcases entries fd entry with old | held
      · exact books.entries l fd old
      · exact held
    · exact books.entries l' fd entry
  clean := books.clean

theorem openFd (books : Books p holder) (free : p.free fd = true) (vacant : holder id = none)
    (loop : Option Nat) :
    Books (p.openFd fd) (Function.update holder id (some (loop, fd))) := by
  obtain ⟨valid, absent⟩ := Process.free_iff.mp free
  have kept : ∀ {id' : Nat} {loop' : Option Nat} {fd' : Fd}, holder id' = some (loop', fd') →
      Function.update holder id (some (loop, fd)) id' = some (loop', fd') :=
    fun held => Table.update_of_entry held (by simp [vacant])
  constructor
  · exact books.sound.openFd absent
  · intro fd' n isOpen
    rcases Process.open_openFd.mp isOpen with ⟨same, _⟩ | ⟨_, before⟩
    · exact same ▸ valid
    · exact books.valid fd' n before
  · intro fd' n isOpen
    rcases Process.open_openFd.mp isOpen with ⟨same, _⟩ | ⟨_, before⟩
    · exact ⟨id, loop, by rw [same, Function.update_self]⟩
    · obtain ⟨id', loop', held⟩ := books.owner fd' n before
      exact ⟨id', loop', kept held⟩
  · intro id' loop' fd' held
    rw [Process.files_openFd]
    rcases Table.enter_eq_some.mp held with ⟨_, same⟩ | ⟨_, before⟩
    · cases same
      simp
    · have isOpen := books.isOpen id' loop' fd' before
      split
      · simp
      · exact isOpen
  · intro first second loop' loop'' fd' isFirst isSecond
    rcases Table.enter_eq_some.mp isFirst with ⟨left, same⟩ | ⟨_, before⟩
    · rcases Table.enter_eq_some.mp isSecond with ⟨right, _⟩ | ⟨_, before⟩
      · rw [left, right]
      · cases same
        exact absurd absent (books.isOpen second loop'' _ before)
    · rcases Table.enter_eq_some.mp isSecond with ⟨_, same⟩ | ⟨_, before'⟩
      · cases same
        exact absurd absent (books.isOpen first loop' _ before)
      · exact books.apart first second loop' loop'' fd' before before'
  · intro l fd' entry
    obtain ⟨id', held⟩ := books.entries l fd' entry
    exact ⟨id', kept held⟩
  · exact books.clean

theorem closeFd (books : Books p holder) (held : holder id = some (loop, fd))
    (absent : ∀ l, ¬ (p.loops l).hasEntry fd) :
    Books (p.closeFd fd) (Function.update holder id none) := by
  have kept : ∀ {id' : Nat} {loop' : Option Nat} {fd' : Fd}, fd' ≠ fd →
      holder id' = some (loop', fd') →
      Function.update holder id none id' = some (loop', fd') := by
    intro id' loop' fd' other held'
    apply Table.update_of_entry held'
    rw [held]
    intro same
    cases same
    exact other rfl
  constructor
  · exact books.sound.closeFd fd
  · exact fun fd' n isOpen => books.valid fd' n (Process.open_closeFd.mp isOpen).2
  · intro fd' n isOpen
    obtain ⟨other, before⟩ := Process.open_closeFd.mp isOpen
    obtain ⟨id', loop', held'⟩ := books.owner fd' n before
    exact ⟨id', loop', kept other held'⟩
  · intro id' loop' fd' held'
    obtain ⟨other, held'⟩ := Table.clear_eq_some.mp held'
    have different : fd' ≠ fd := by
      intro same
      exact other (books.apart id' id loop' loop fd (same ▸ held') held)
    rw [Process.files_closeFd, if_neg different]
    exact books.isOpen id' loop' fd' held'
  · intro first second loop' loop'' fd' isFirst isSecond
    exact books.apart first second loop' loop'' fd' (Table.clear_eq_some.mp isFirst).2
      (Table.clear_eq_some.mp isSecond).2
  · intro l fd' entry
    have different : fd' ≠ fd := fun same => absent l (same ▸ entry)
    obtain ⟨id', held'⟩ := books.entries l fd' entry
    exact ⟨id', kept different held'⟩
  · intro closing member
    rcases List.mem_append.mp member with old | new
    · exact books.clean closing old
    · rw [List.mem_singleton.mp new]
      refine ⟨books.isOpen id loop fd held, fun l => ?_⟩
      simpa [EventLoop.hasEntry] using absent l

theorem pass (books : Books p holder) {source : Nat} (vacant : holder id = none) :
    Books p (Function.update (Function.update holder source none) id (holder source)) := by
  have place : ∀ {id' : Nat} {loop' : Option Nat} {fd' : Fd},
      Function.update (Function.update holder source none) id (holder source) id' =
        some (loop', fd') →
      (id' = id ∧ holder source = some (loop', fd')) ∨
        id' ≠ source ∧ holder id' = some (loop', fd') := by
    intro id' loop' fd' held
    rw [Function.update_apply] at held
    split at held
    · rename_i same
      exact Or.inl ⟨same, held⟩
    · rw [Function.update_apply] at held
      split at held
      · cases held
      · rename_i other
        exact Or.inr ⟨other, held⟩
  have found : ∀ {id' : Nat} {loop' : Option Nat} {fd' : Fd}, holder id' = some (loop', fd') →
      ∃ id'', Function.update (Function.update holder source none) id (holder source) id'' =
        some (loop', fd') := by
    intro id' loop' fd' held
    by_cases passed : id' = source
    · exact ⟨id, by rw [Function.update_self, ← passed, held]⟩
    · refine ⟨id', ?_⟩
      rw [Function.update_of_ne, Function.update_of_ne passed, held]
      intro same
      rw [same, vacant] at held
      cases held
  constructor
  · exact books.sound
  · exact books.valid
  · intro fd' n isOpen
    obtain ⟨id', loop', held⟩ := books.owner fd' n isOpen
    obtain ⟨id'', held⟩ := found held
    exact ⟨id'', loop', held⟩
  · intro id' loop' fd' held
    rcases place held with ⟨_, held⟩ | ⟨_, held⟩
    · exact books.isOpen source loop' fd' held
    · exact books.isOpen id' loop' fd' held
  · intro first second loop' loop'' fd' isFirst isSecond
    rcases place isFirst with ⟨same, isFirst⟩ | ⟨other, isFirst⟩
    · rcases place isSecond with ⟨same', _⟩ | ⟨other', isSecond⟩
      · exact same.trans same'.symm
      · exact absurd (books.apart source second loop' loop'' fd' isFirst isSecond).symm other'
    · rcases place isSecond with ⟨_, isSecond⟩ | ⟨_, isSecond⟩
      · exact absurd (books.apart first source loop' loop'' fd' isFirst isSecond) other
      · exact books.apart first second loop' loop'' fd' isFirst isSecond
  · intro l fd' entry
    obtain ⟨id', held⟩ := books.entries l fd' entry
    exact found held
  · exact books.clean

theorem close (books : Books p holder) {B : Backend K Ev Env} (lawful : B.KeepsEntries)
    (held : holder id = some (loop, fd)) :
    Books ((p.remove B loop fd).closeFd fd) (Function.update holder id none) := by
  have isOpen := books.isOpen id loop fd held
  obtain ⟨n, named⟩ := Option.ne_none_iff_exists'.mp isOpen
  have valid := books.valid fd n named
  cases loop with
  | none =>
    apply books.closeFd held
    intro l entry
    obtain ⟨id', held'⟩ := books.entries l fd entry
    rw [books.apart id' id _ _ fd held' held, held] at held'
    cases held'
  | some own =>
    have removed : Books (p.onLoop own (B.remove fd)) holder :=
      books.onLoop own _ fun fd' entry => Or.inl (lawful.remove fd _ fd' entry)
    apply removed.closeFd held
    intro l entry
    rw [Process.loops_onLoop] at entry
    split at entry
    · exact lawful.removed fd _ valid entry
    · rename_i other
      obtain ⟨id', held'⟩ := books.entries l fd entry
      rw [books.apart id' id _ _ fd held' held, held] at held'
      cases held'
      exact other rfl

end Books

/-! ## What the operations do to the books -/

namespace Object

variable {B : Backend K Ev Env}

theorem holding_eq_some {object : Object} {loop : Option Nat} {fd : Fd} :
    object.holding = some (loop, fd) ↔ 0 ≤ fd ∧ object.loop = loop ∧ object.fd = fd := by
  unfold holding
  split
  · simp only [Option.some.injEq, Prod.mk.injEq]
    constructor
    · rintro ⟨rfl, rfl⟩
      exact ⟨by assumption, rfl, rfl⟩
    · exact fun held => held.2
  · simp only [reduceCtorEq, false_iff]
    rintro ⟨valid, _, rfl⟩
    contradiction

theorem holding_moved (object : Object) : object.moved.holding = none := by
  cases object <;> rfl

/-- An object that holds nothing is left alone by `close`; one that holds a descriptor passes
it to `remove` and then to `::close`. -/
theorem close_cases (object : Object) (p : Process K) :
    (object.close B p).1.holding = none ∧
      (object.holding = none ∧ (object.close B p).2 = p ∨
        ∃ loop fd, object.holding = some (loop, fd) ∧
          (object.close B p).2 = (p.remove B loop fd).closeFd fd) := by
  cases object with
  | tcp socket =>
    by_cases valid : 0 ≤ socket.fd
    · simp [close, TcpSocket.close, holding, fd, loop, valid]
    · simp [close, TcpSocket.close, holding, fd, valid]
  | udp socket =>
    by_cases valid : 0 ≤ socket.fd
    · simp [close, UdpSocket.close, holding, fd, loop, valid]
    · simp [close, UdpSocket.close, holding, fd, valid]

end Object

def World.Kept (s : World K) : Prop := Books s.process s.holder

theorem World.holder_set (s : World K) (id : Nat) (object : Option Object) :
    (s.set id object).holder = Function.update s.holder id (object.bind Object.holding) := by
  funext id'
  unfold World.holder World.set
  simp only [Function.update_apply]
  split
  · rfl
  · rfl

theorem World.holder_take (s : World K) (id source : Nat) (object : Object) :
    (s.take id source object).holder =
      Function.update (Function.update s.holder source none) id object.holding := by
  unfold World.take
  rw [World.holder_set, World.holder_set]
  simp only [Option.bind_some, Object.holding_moved]

theorem World.Kept.set {s : World K} (kept : s.Kept) {id : Nat} (vacant : s.holder id = none)
    {object : Option Object} (empty : object.bind Object.holding = none) :
    (s.set id object).Kept := by
  unfold World.Kept
  rw [World.holder_set, empty, ← vacant, Function.update_eq_self]
  exact kept

theorem World.Kept.onLoop {s : World K} (kept : s.Kept) (l : Nat)
    (change : EventLoop K Waiter → EventLoop K Waiter)
    (entries : ∀ fd, (change (s.process.loops l)).hasEntry fd →
      (s.process.loops l).hasEntry fd ∨ ∃ id, s.holder id = some (some l, fd)) :
    World.Kept { s with process := s.process.onLoop l change } :=
  Books.onLoop kept l change entries

theorem World.holder_close (B : Backend K Ev Env) (s : World K) (id : Nat) (object : Object) :
    (s.close B id object).holder =
      Function.update s.holder id (object.close B s.process).1.holding :=
  World.holder_set s id (some (object.close B s.process).1)

theorem World.holder_bind (B : Backend K Ev Env) (platform : Platform) (s : World K) (id : Nat)
    (socket : UdpSocket) (port : BitVec 16) (reusePort : Bool) (answers : Answers) :
    (s.bind B platform id socket port reusePort answers).holder = Function.update s.holder id
      (Object.udp (socket.bind platform B port reusePort answers s.process).socket).holding :=
  World.holder_set s id (some (.udp _))

section
variable {B : Backend K Ev Env} (lawful : B.KeepsEntries) {s : World K} (kept : s.Kept)
include lawful kept

theorem World.Kept.close {id : Nat} {object : Object} (live : s.objects id = some object) :
    (s.close B id object).Kept ∧ (s.close B id object).holder id = none := by
  have holder : s.holder id = object.holding := by simp [World.holder, live]
  have after := World.holder_close B s id object
  have process : (s.close B id object).process = (object.close B s.process).2 := rfl
  obtain ⟨released, untouched | ⟨loop, fd, held, closed⟩⟩ := Object.close_cases (B := B) object s.process
  · refine ⟨?_, by rw [after, Function.update_self, released]⟩
    unfold World.Kept
    rw [after, process, released, untouched.2, ← untouched.1, ← holder, Function.update_eq_self]
    exact kept
  · refine ⟨?_, by rw [after, Function.update_self, released]⟩
    unfold World.Kept
    rw [after, process, released, closed]
    exact Books.close kept lawful (holder.trans held)

theorem World.Kept.wait {id : Nat} {object : Object} (live : s.objects id = some object)
    (d : Direction) (et : Bool) (w : Waiter) : (s.wait B object d et w).Kept := by
  unfold World.wait
  split
  · rename_i l valid loop
    apply kept.onLoop
    intro fd entry
    rcases lawful.wait object.fd d et w _ fd entry with same | old
    · have positive : 0 ≤ object.fd := by
        cases object <;>
          simp_all [Object.ensureValid, TcpSocket.ensureValid, UdpSocket.ensureValid, Object.fd]
      refine Or.inr ⟨id, ?_⟩
      rw [World.holder, live]
      exact Object.holding_eq_some.mpr ⟨same ▸ positive, loop, same.symm⟩
    · exact Or.inl old
  · exact kept

theorem World.Kept.bind {platform : Platform} {id : Nat} {socket : UdpSocket}
    (live : s.objects id = some (.udp socket)) {port : BitVec 16} {reusePort : Bool}
    {answers : Answers} (possible : answers.possible (socket.close B s.process).2 = true) :
    (s.bind B platform id socket port reusePort answers).Kept := by
  obtain ⟨_, outcome⟩ := UdpSocket.bind_outcome platform port reusePort possible
  have released := (Object.close_cases (B := B) (.udp socket) s.process).1
  have books : Books (socket.close B s.process).2 (Function.update s.holder id none) := by
    have closed := (kept.close lawful live).1
    unfold World.Kept at closed
    rw [World.holder_close, released] at closed
    exact closed
  have vacant : Function.update s.holder id none id = none := Function.update_self ..
  unfold World.Kept
  rw [World.holder_bind]
  unfold World.bind
  generalize UdpSocket.completes platform port reusePort answers = completes at outcome
  generalize socket.bind platform B port reusePort answers s.process = result at outcome ⊢
  obtain ⟨⟨loop, fd⟩, process, thrown⟩ := result
  dsimp only at outcome ⊢
  cases outcome with
  | refused error => exact books
  | @undone fd free error =>
    have opened := books.openFd free vacant loop
    have held : Function.update (Function.update s.holder id none) id (some (loop, fd)) id =
        some (loop, fd) := Function.update_self ..
    have closed := opened.closeFd held (books.no_entry (Process.free_iff.mp free).2)
    simp only [Function.update_idem] at closed
    exact closed
  | completed free =>
    have opened := books.openFd free vacant loop
    rw [Function.update_idem] at opened
    have holding : (Object.udp ⟨loop, fd⟩).holding = some (loop, fd) :=
      Object.holding_eq_some.mpr ⟨(Process.free_iff.mp free).1, rfl, rfl⟩
    rw [holding]
    exact opened

end

/-! ## A run -/

variable {B} {platform}

theorem World.Kept.add {s t : World K} (kept : s.Kept) {id : Nat} {object : Object}
    (added : s.add id object = some t) (empty : object.holding = none) : t.Kept := by
  unfold World.add at added
  split at added
  · rename_i absent
    cases Option.some.inj added
    apply kept.set
    · simp [World.holder, absent]
    · exact empty
  · cases added

theorem World.Kept.construct {s t : World K} (kept : s.Kept) {id l : Nat} {fd : Fd}
    (free : s.process.free fd = true) (added : s.add id (.tcp ⟨some l, fd⟩) = some t) :
    World.Kept { t with process := s.process.openFd fd } := by
  unfold World.add at added
  split at added
  · rename_i absent
    cases Option.some.inj added
    have vacant : s.holder id = none := by simp [World.holder, absent]
    have holding : (Object.tcp ⟨some l, fd⟩).holding = some (some l, fd) :=
      Object.holding_eq_some.mpr ⟨(Process.free_iff.mp free).1, rfl, rfl⟩
    have holder := World.holder_set s id (some (.tcp ⟨some l, fd⟩))
    rw [Option.bind_some, holding] at holder
    have books := Books.openFd kept free vacant (some l)
    rw [← holder] at books
    exact books
  · cases added

theorem World.Kept.take {s : World K} (kept : s.Kept) {id source : Nat} {object : Object}
    (vacant : s.holder id = none) (live : s.objects source = some object) :
    (s.take id source object).Kept := by
  have holding : object.holding = s.holder source := by simp [World.holder, live]
  unfold World.Kept
  rw [World.holder_take, holding]
  exact Books.pass kept vacant

theorem World.Kept.step (lawful : B.KeepsEntries) {s t : World K} {a : Act K Ev} (kept : s.Kept)
    (step : step B platform s a = some t) : t.Kept := by
  cases a with
  | default id => exact kept.add step rfl
  | constructUdp id l => exact kept.add step rfl
  | construct id l fd =>
    simp only [Ownership.step, Ownership.construct] at step
    split at step
    · cases Option.some.inj step
      exact kept
    · rename_i socket constructed
      split at constructed
      · cases constructed
      · cases constructed
        simp only [Option.ite_none_right_eq_some, Option.map_eq_some_iff] at step
        obtain ⟨free, after, added, rfl⟩ := step
        exact kept.construct free added
  | moveConstruct id source =>
    simp only [Ownership.step] at step
    split at step
    · rename_i object absent live
      cases Option.some.inj step
      exact kept.take (by simp [World.holder, absent]) live
    · cases step
  | moveAssign target source =>
    simp only [Ownership.step] at step
    split at step
    · rename_i old object live from_live
      simp only [Option.ite_none_right_eq_some] at step
      obtain ⟨_, step⟩ := step
      split at step
      · cases Option.some.inj step
        exact kept
      · rename_i different
        cases Option.some.inj step
        obtain ⟨closed, vacant⟩ := kept.close lawful live
        apply closed.take vacant
        simp [World.close, World.set, Function.update_of_ne (Ne.symm different), from_live]
    · cases step
  | bind id port reusePort answers =>
    simp only [Ownership.step] at step
    split at step
    · rename_i socket live
      simp only [Option.ite_none_right_eq_some, Option.some.injEq] at step
      obtain ⟨possible, rfl⟩ := step
      exact kept.bind lawful live possible
    · cases step
  | wait id d et w =>
    simp only [Ownership.step, Option.map_eq_some_iff] at step
    obtain ⟨object, live, rfl⟩ := step
    exact kept.wait lawful live d et w
  | close id =>
    simp only [Ownership.step, Option.map_eq_some_iff] at step
    obtain ⟨object, live, rfl⟩ := step
    exact (kept.close lawful live).1
  | destroy id =>
    simp only [Ownership.step, Option.map_eq_some_iff] at step
    obtain ⟨object, live, rfl⟩ := step
    obtain ⟨closed, vacant⟩ := kept.close lawful live
    exact closed.set vacant rfl
  | dispatch l event =>
    cases Option.some.inj step
    exact kept.onLoop l _ fun fd entry => Or.inl (lawful.dispatch event _ fd entry)
  | kernel l kernel =>
    cases Option.some.inj step
    exact kept.onLoop l _ fun fd entry => Or.inl entry

theorem Start.kept {s : World K} (start : Start s) : s.Kept := by
  have holder : ∀ id, s.holder id = none := fun id => by simp [World.holder, start.objects id]
  constructor
  · constructor
    · simp [start.files]
    · simp [start.files]
    · simp [Process.closed, start.closings]
    · simp [Process.closed, start.closings, start.opened]
  · simp [start.files]
  · simp [start.files]
  · simp [holder]
  · simp [holder]
  · intro l fd entry
    exact absurd (start.states l fd) entry
  · simp [ClosesClean, start.closings]

theorem World.holder_eq_some {s : World K} {id : Nat} {loop : Option Nat} {fd : Fd} :
    s.holder id = some (loop, fd) ↔
      0 ≤ fd ∧ ∃ object, s.objects id = some object ∧ object.loop = loop ∧ object.fd = fd := by
  unfold World.holder
  rw [Option.bind_eq_some_iff]
  simp only [Object.holding_eq_some]
  tauto

theorem World.Kept.oneOwner {s : World K} (kept : s.Kept) : OneOwner s := by
  have held : ∀ {id : Nat} {object : Object}, s.objects id = some object → 0 ≤ object.fd →
      s.holder id = some (object.loop, object.fd) := fun live valid =>
    World.holder_eq_some.mpr ⟨valid, _, live, rfl, rfl⟩
  constructor
  · intro fd n isOpen
    have valid := kept.valid fd n isOpen
    obtain ⟨id, loop, owner⟩ := kept.owner fd n isOpen
    obtain ⟨_, object, live, _, same⟩ := World.holder_eq_some.mp owner
    refine ⟨id, ⟨object, live, same⟩, ?_⟩
    rintro id' ⟨object', live', same'⟩
    subst same'
    exact kept.apart id' id _ loop object'.fd (held live' valid) owner
  · intro id object live
    by_cases valid : 0 ≤ object.fd
    · refine Or.inr ⟨kept.isOpen id _ _ (held live valid), fun id' object' other live' same => ?_⟩
      have owner' := held live' (same ▸ valid)
      rw [same] at owner'
      exact other (kept.apart id' id _ _ object.fd owner' (held live valid))
    · exact Or.inl (Int.not_le.mp valid)

theorem World.Kept.closedOnce {s : World K} (kept : s.Kept) : ClosedOnce s := by
  intro gone n below
  apply kept.sound.count_closed
  rw [kept.sound.gone]
  refine ⟨below, fun fd isOpen => ?_⟩
  obtain ⟨id, loop, owner⟩ := kept.owner fd n isOpen
  simp [World.holder, gone id] at owner

/-- In every run of the code each open descriptor has one owner, each descriptor is closed
once in the end, and none is closed while a loop has an entry for it. -/
theorem descriptors_owned (code : Implemented B) {s : World K}
    (reached : (machine B platform).Reachable s) :
    OneOwner s ∧ ClosedOnce s ∧ ClosesClean s.process := by
  have kept : s.Kept := by
    induction reached with
    | start start => exact Start.kept start
    | next _ _ step ih => exact ih.step code.keepsEntries step
  exact ⟨kept.oneOwner, kept.closedOnce, kept.clean⟩

def boot : World Epoll.Kernel where
  process := ⟨fun _ => Reactor.epollBoot.loop, fun _ => none, 0, []⟩
  objects _ := none

theorem boot_start : Start boot where
  files _ := rfl
  opened := rfl
  closings := rfl
  states _ _ := rfl
  objects _ := rfl

/-- A socket that waits is moved to another one and closed twice; a `UdpSocket` is bound
over its first descriptor, and everything is destroyed. -/
def handover : List (Act Epoll.Kernel EpollEvent) :=
  [.construct 0 0 7, .kernel 0 (((Epoll.Kernel.boot 4).openFd 7).getD (.boot 4)),
    .wait 0 .read false ⟨0, 0, 7, .read, some 1⟩, .default 1, .moveAssign 1 0, .close 1, .close 1,
    .constructUdp 2 0, .bind 2 80 false ⟨.ok 7, fun _ => none⟩,
    .bind 2 81 false ⟨.ok 8, fun _ => none⟩, .destroy 0, .destroy 2, .destroy 1]

theorem handover_owned :
    ∃ s, (machine Reactor.epoll .linux).exec boot handover = some s ∧
      s.process.closed = [0, 1, 2] ∧ OneOwner s ∧ ClosedOnce s ∧ ClosesClean s.process := by
  have ends : ((machine Reactor.epoll .linux).exec boot handover).map (·.process.closed) =
      some [0, 1, 2] := rfl
  obtain ⟨s, replay, closed⟩ := Option.map_eq_some_iff.mp ends
  exact ⟨s, replay, closed, descriptors_owned (.linux Epoll.api Epoll.system)
    (Transition.Machine.ReachableWhere.replay (.start boot_start) replay)⟩

end CoroEpoll.Ownership
