import CoroEpoll.EventLoop.Construction
import CoroEpoll.EventLoop.Reactor

/-! What becomes of the descriptors of event loops, in every run of their constructors and
destructors.
-/

set_option autoImplicit false

namespace CoroEpoll.Construction

variable {S F K : Type} {code : Code S F} {Ready : S → F → Prop} {tidy : S → Answer → Bool}
  {s t : World S F K} {a : Act}

inductive Effect (code : Code S F) (s t : World S F K) (clean : Bool) : Prop where
  | acquires (holder : Option Nat) (fresh after : List Fd) (tidy : clean = true)
      (unused : ∀ fd ∈ fresh, ¬ s.IsOpen fd) (distinct : fresh.Nodup)
      (uses : ∀ fd, t.IsOpen fd ↔ s.IsOpen fd ∨ fd ∈ fresh)
      (gets : after.Perm (s.held code holder ++ fresh))
      (held : t.held code = Function.update (s.held code) holder after)
  | releases (holder : Option Nat) (fd : Fd) (after : List Fd) (tidy : clean = true)
      (has : (s.held code holder).Perm (fd :: after))
      (uses : ∀ fd', t.IsOpen fd' ↔ s.IsOpen fd' ∧ fd' ≠ fd)
      (held : t.held code = Function.update (s.held code) holder after)
  | loses (holder : Option Nat) (after lost : List Fd) (untidy : clean = false) (some : lost ≠ [])
      (has : (s.held code holder).Perm (after ++ lost)) (uses : ∀ fd, t.IsOpen fd ↔ s.IsOpen fd)
      (held : t.held code = Function.update (s.held code) holder after)

theorem World.held_put (id : Nat) (loop : Loop S F) (s : World S F K) :
    (s.put id loop).held code = Function.update (s.held code) (some id) (loop.held code) := by
  funext holder
  cases holder with
  | none => rfl
  | some other =>
    by_cases same : other = id
    · subst same
      simp [World.held, World.put]
    · have apart : (some other : Option Nat) ≠ some id := fun equal => same (Option.some.inj equal)
      simp [World.held, World.put, same, apart]

theorem World.held_others (others : List Fd) (process : Process K) (s : World S F K) :
    ({ s with process, others } : World S F K).held code =
      Function.update (s.held code) none others := by
  funext holder
  cases holder with
  | none => rfl
  | some id => rfl

theorem World.held_some {id : Nat} {loop : Loop S F} (at_loop : s.loops id = some loop) :
    s.held code (some id) = loop.held code := by
  simp [World.held, at_loop]

theorem World.isOpen_openAll (fds : List Fd) (s : World S F K) (fd : Fd) :
    (s.openAll fds).IsOpen fd ↔ s.IsOpen fd ∨ fd ∈ fds := by
  induction fds generalizing s with
  | nil => simp [World.openAll, World.IsOpen]
  | cons first rest ih =>
    have opened := ih { s with process := s.process.openFd first }
    refine opened.trans ?_
    simp only [World.IsOpen, Process.files_openFd, List.mem_cons]
    by_cases same : fd = first
    · simp [same]
    · simp [same]

theorem World.isOpen_closeFd (fd fd' : Fd) (s : World S F K) :
    ({ s with process := s.process.closeFd fd } : World S F K).IsOpen fd' ↔
      s.IsOpen fd' ∧ fd' ≠ fd := by
  simp only [World.IsOpen, Process.files_closeFd]
  by_cases same : fd' = fd
  · simp [same]
  · simp [same]

theorem World.grants_iff {answer : Answer} : s.grants answer = true ↔
    (∀ fd ∈ answer.opened, 0 ≤ fd ∧ ¬ s.IsOpen fd) ∧ answer.opened.Nodup := by
  simp [World.grants, Process.free, World.IsOpen]

theorem Effect.same {id : Nat} {loop : Loop S F} (holds : (loop.held code).Perm (s.held code (some id))) :
    Effect code s (s.put id loop) true := by
  refine .acquires (some id) [] (loop.held code) rfl (by simp) List.nodup_nil ?_ ?_ (s.held_put id loop)
  · exact fun fd => by simp [World.IsOpen, World.put]
  · rwa [List.append_nil]

theorem step_effect (lawful : Lawful code Ready tidy)
    (ready : ∀ id own call, s.loops id = some ⟨own, .calls call⟩ → Ready call own)
    (step : step code s a = some t) : Effect code s t (Tidy tidy s a) := by
  cases a with
  | construct id =>
    simp only [Construction.step] at step
    split at step
    case h_2 => cases step
    case h_1 absent =>
      cases step
      refine Effect.same ?_
      simp [World.held, absent, Loop.held, lawful.holdsNone]
  | answer id answer =>
    simp only [Construction.step] at step
    split at step
    case h_2 => cases step
    case h_1 own call at_call =>
      obtain ⟨granted, step⟩ := Option.ite_none_right_eq_some.mp step
      obtain ⟨⟨own', next⟩, answers, rfl⟩ := Option.map_eq_some_iff.mp step
      obtain ⟨unused, distinct⟩ := World.grants_iff.mp granted
      have now : Ready call own := ready id own call at_call
      have holds : s.held code (some id) = code.valid own := World.held_some at_call
      have clean : Tidy tidy s (.answer id answer) = tidy call answer := by simp [Tidy, at_call]
      rw [clean]
      cases is_tidy : tidy call answer with
      | true =>
        refine .acquires (some id) answer.opened _ rfl (fun fd member => (unused fd member).2) distinct
          (s.isOpen_openAll answer.opened) ?_ ((s.openAll answer.opened).held_put id _)
        rw [holds]
        exact lawful.keeps now (fun fd member => (unused fd member).1) answers is_tidy
      | false =>
        obtain ⟨opens, lost, some_lost, has⟩ := lawful.loses now answers is_tidy
        rw [← holds] at has
        rw [opens]
        exact .loses (some id) _ lost rfl some_lost has (fun fd => Iff.rfl) (s.held_put id _)
  | close id =>
    simp only [Construction.step] at step
    split at step
    case h_2 => cases step
    case h_1 own fd left thrown at_close =>
      cases step
      refine .releases (some id) fd left rfl ?_ (s.isOpen_closeFd fd)
        (World.held_put id _ { s with process := s.process.closeFd fd })
      rw [World.held_some at_close]
      exact List.Perm.refl _
  | finish id =>
    simp only [Construction.step] at step
    split at step
    case h_2 => cases step
    case h_1 own thrown at_end =>
      cases step
      refine Effect.same ?_
      rw [World.held_some at_end]
      exact List.Perm.refl _
  | destroy id =>
    simp only [Construction.step] at step
    split at step
    case h_2 => cases step
    case h_1 own at_built =>
      cases step
      refine Effect.same ?_
      rw [World.held_some at_built]
      exact List.Perm.refl _
  | openOther fd =>
    obtain ⟨free, step⟩ := Option.ite_none_right_eq_some.mp step
    cases step
    refine .acquires none [fd] (fd :: s.others) rfl ?_ (List.nodup_singleton fd)
      (s.isOpen_openAll [fd]) (List.perm_append_singleton fd s.others).symm (s.held_others _ _)
    intro fd' member
    rw [List.mem_singleton.mp member, World.IsOpen, (Process.free_iff.mp free).2]
    simp
  | closeOther fd =>
    obtain ⟨member, step⟩ := Option.ite_none_right_eq_some.mp step
    cases step
    exact .releases none fd (s.others.erase fd) rfl (List.perm_cons_erase member)
      (s.isOpen_closeFd fd) (s.held_others _ _)

/-! ## Runs -/

structure Inv (code : Code S F) (Ready : S → F → Prop) (s : World S F K) : Prop where
  inUse : s.InUse code
  sound : s.process.Sound
  ready : ∀ id own call, s.loops id = some ⟨own, .calls call⟩ → Ready call own

theorem World.kept_iff (inUse : s.InUse code) : s.Kept code ↔ Holdings.Covers s.IsOpen (s.held code) := by
  constructor
  · intro kept fd isOpen
    obtain ⟨holder, holds, -⟩ := kept fd isOpen
    exact ⟨holder, holds⟩
  · intro covers fd isOpen
    obtain ⟨holder, holds⟩ := covers fd isOpen
    exact ⟨holder, holds, fun other also => inUse.apart other holder fd also holds⟩

theorem Effect.inUse {clean : Bool} (effect : Effect code s t clean) (inUse : s.InUse code) :
    t.InUse code := by
  unfold World.InUse
  cases effect with
  | acquires holder fresh after _ unused distinct uses gets held =>
    rw [held]
    exact inUse.acquire unused distinct uses gets
  | releases holder fd after _ has uses held =>
    rw [held]
    exact inUse.release has uses
  | loses holder after lost _ _ has uses held =>
    rw [held]
    have safe := inUse.lose has
    exact ⟨fun h fd member => (uses fd).mpr (safe.live h fd member), safe.once, safe.apart⟩

theorem Effect.covers_iff {clean : Bool} (effect : Effect code s t clean) (inUse : s.InUse code)
    (covers : Holdings.Covers s.IsOpen (s.held code)) :
    Holdings.Covers t.IsOpen (t.held code) ↔ clean = true := by
  cases effect with
  | acquires holder fresh after tidy _ _ uses gets held =>
    rw [held]
    exact iff_of_true (covers.acquire uses gets) tidy
  | releases holder fd after tidy has uses held =>
    rw [held]
    exact iff_of_true (covers.release has uses) tidy
  | loses holder after lost untidy some_lost has uses held =>
    rw [held]
    refine iff_of_false (fun covered => ?_) (by simp [untidy])
    exact inUse.uncovered has some_lost fun fd isOpen => covered fd ((uses fd).mpr isOpen)

theorem World.sound_openAll (fds : List Fd) (sound : s.process.Sound)
    (unused : ∀ fd ∈ fds, ¬ s.IsOpen fd) (distinct : fds.Nodup) : (s.openAll fds).process.Sound := by
  induction fds generalizing s with
  | nil => exact sound
  | cons fd rest ih =>
    have absent : s.process.files fd = none := by
      simpa [World.IsOpen] using unused fd List.mem_cons_self
    refine ih (s := { s with process := s.process.openFd fd }) (sound.openFd absent) ?_
      (List.nodup_cons.mp distinct).2
    intro fd' member isOpen
    rcases (s.isOpen_openAll [fd] fd').mp isOpen with before | new
    · exact unused fd' (List.mem_cons_of_mem fd member) before
    · rw [List.mem_singleton.mp new] at member
      exact (List.nodup_cons.mp distinct).1 member

theorem step_sound (sound : s.process.Sound) (step : step code s a = some t) : t.process.Sound := by
  cases a with
  | answer id answer =>
    simp only [Construction.step] at step
    split at step
    case h_2 => cases step
    case h_1 =>
      obtain ⟨granted, step⟩ := Option.ite_none_right_eq_some.mp step
      obtain ⟨⟨own', next⟩, _, rfl⟩ := Option.map_eq_some_iff.mp step
      obtain ⟨unused, distinct⟩ := World.grants_iff.mp granted
      exact World.sound_openAll answer.opened sound (fun fd member => (unused fd member).2) distinct
  | openOther fd =>
    obtain ⟨free, step⟩ := Option.ite_none_right_eq_some.mp step
    cases step
    exact sound.openFd (Process.free_iff.mp free).2
  | closeOther fd =>
    obtain ⟨_, step⟩ := Option.ite_none_right_eq_some.mp step
    cases step
    exact sound.closeFd fd
  | close id =>
    simp only [Construction.step] at step
    split at step
    · cases step
      exact sound.closeFd _
    · cases step
  | construct id | finish id | destroy id =>
    simp only [Construction.step] at step
    split at step
    · cases step
      exact sound
    · cases step

theorem World.ready_put {id : Nat} {loop : Loop S F}
    (ready : ∀ id own call, s.loops id = some ⟨own, .calls call⟩ → Ready call own)
    (next : ∀ own call, loop = ⟨own, .calls call⟩ → Ready call own) (id' : Nat) (own : F) (call : S)
    (at_call : (s.put id loop).loops id' = some ⟨own, .calls call⟩) : Ready call own := by
  rcases Table.enter_eq_some.mp at_call with ⟨-, here⟩ | ⟨-, there⟩
  · exact next own call here
  · exact ready id' own call there

theorem step_ready (lawful : Lawful code Ready tidy)
    (ready : ∀ id own call, s.loops id = some ⟨own, .calls call⟩ → Ready call own)
    (step : step code s a = some t) (id : Nat) (own : F) (call : S)
    (at_call : t.loops id = some ⟨own, .calls call⟩) : Ready call own := by
  cases a with
  | construct id' =>
    simp only [Construction.step] at step
    split at step
    · cases step
      refine World.ready_put ready (fun own call same => ?_) id own call at_call
      cases same
      exact lawful.initial
    · cases step
  | answer id' answer =>
    simp only [Construction.step] at step
    split at step
    case h_2 => cases step
    case h_1 own' call' at_call' =>
      obtain ⟨granted, step⟩ := Option.ite_none_right_eq_some.mp step
      obtain ⟨⟨own', next⟩, answers, rfl⟩ := Option.map_eq_some_iff.mp step
      have unused := (World.grants_iff.mp granted).1
      refine World.ready_put (s := s.openAll answer.opened) ready (fun own call same => ?_) id own call
        at_call
      cases same
      exact lawful.ready (ready _ _ _ at_call') (fun fd member => (unused fd member).1) answers
  | close id' =>
    simp only [Construction.step] at step
    split at step
    case h_2 => cases step
    case h_1 own' fd left thrown at_close =>
      cases step
      exact World.ready_put (s := { s with process := s.process.closeFd fd }) ready
        (fun own call same => by cases same) id own call at_call
  | finish id' | destroy id' =>
    simp only [Construction.step] at step
    split at step
    · cases step
      exact World.ready_put ready (fun own call same => by cases same) id own call at_call
    · cases step
  | openOther fd | closeOther fd =>
    obtain ⟨_, step⟩ := Option.ite_none_right_eq_some.mp step
    cases step
    exact ready id own call at_call

theorem Inv.step (lawful : Lawful code Ready tidy) (inv : Inv code Ready s)
    (step : step code s a = some t) : Inv code Ready t where
  inUse := (step_effect lawful inv.ready step).inUse inv.inUse
  sound := step_sound inv.sound step
  ready := step_ready lawful inv.ready step

theorem step_kept_iff (lawful : Lawful code Ready tidy) (inv : Inv code Ready s) (kept : s.Kept code)
    (step : step code s a = some t) : t.Kept code ↔ Tidy tidy s a = true := by
  have effect := step_effect lawful inv.ready step
  rw [World.kept_iff (effect.inUse inv.inUse)]
  exact effect.covers_iff inv.inUse ((World.kept_iff inv.inUse).mp kept)

theorem Start.inv (start : Start s) : Inv code Ready s where
  inUse := by
    have nothing : ∀ holder, s.held code holder = [] := by
      intro holder
      cases holder with
      | none => exact start.others
      | some id => simp [World.held, start.loops id]
    constructor
    · intro holder fd member
      simp [nothing holder] at member
    · intro holder
      simp [nothing holder]
    · intro holder other fd member
      simp [nothing holder] at member
  sound := by
    constructor
    · intro fd n isOpen
      simp [start.files fd] at isOpen
    · intro fd fd' n isOpen
      simp [start.files fd] at isOpen
    · simp [Process.closed, start.closings]
    · simp [Process.closed, start.closings, start.opened]
  ready id own call at_call := by simp [start.loops id] at at_call

theorem Start.kept (start : Start s) : s.Kept code := by
  intro fd isOpen
  simp [World.IsOpen, start.files fd] at isOpen

/-- However the constructors and destructors of loops interleave on Linux, and whichever of their
system calls fail, each open descriptor is kept by one loop or by the rest of the program, each
loop closes what is its own, and no descriptor is closed twice. -/
theorem linux_descriptors_kept {s : World LinuxCall LinuxFds K}
    (reached : (machine linux).Reachable s) : s.Kept linux ∧ s.InUse linux ∧ s.process.Sound := by
  have kept : s.Kept linux ∧ Inv linux LinuxCall.Ready s := by
    induction reached with
    | start start => exact ⟨Start.kept start, Start.inv start⟩
    | @next s t a _ _ step ih =>
      have all_tidy : Tidy (fun _ _ => true) s a = true := by
        unfold Tidy
        split
        · split <;> rfl
        · rfl
      exact ⟨(step_kept_iff linux_lawful ih.2 ih.1 step).mpr all_tidy, ih.2.step linux_lawful step⟩
  exact ⟨kept.1, kept.2.inUse, kept.2.sound⟩

def boot (S F : Type) : World S F Epoll.Kernel where
  process := ⟨fun _ => Reactor.epollBoot.loop, fun _ => none, 0, []⟩
  loops _ := none
  others := []

theorem boot_start (S F : Type) : Start (boot S F) where
  files _ := rfl
  opened := rfl
  closings := rfl
  loops _ := rfl
  others := rfl

/-- The second loop is left without a wakeup descriptor, and the third takes its number. -/
def secondFails : List Act :=
  [.construct 0, .answer 0 (.descriptor 3), .construct 1, .answer 1 (.descriptor 4), .openOther 5,
    .answer 0 (.descriptor 6), .answer 1 (.failed .EBADF), .answer 0 .done, .close 1, .construct 2,
    .answer 2 (.descriptor 4), .finish 1, .destroy 0, .close 0, .closeOther 5, .close 0]

theorem linux_descriptors_kept_secondFails :
    ∃ s, (machine linux).exec (boot LinuxCall LinuxFds) secondFails = some s ∧
      s.process.closed = [1, 3, 2, 0] ∧ s.Kept linux ∧ s.InUse linux ∧ s.process.Sound := by
  have run : ((machine linux).exec (boot LinuxCall LinuxFds) secondFails).map (·.process.closed) =
      some [1, 3, 2, 0] := rfl
  obtain ⟨s, replay, closed⟩ := Option.map_eq_some_iff.mp run
  exact ⟨s, replay, closed, linux_descriptors_kept
    (Transition.Machine.ReachableWhere.replay (.start (boot_start _ _)) replay)⟩

/-- On macOS the same holds throughout a run exactly when no constructor in it fails behind its
call of `pipe`: such a failure leaves the kqueue open, and nobody to close it. -/
theorem macOS_descriptors_kept_iff {s t : World MacCall MacFds K} {actions : List Act}
    (start : Start s) (replay : (machine macOS).exec s actions = some t) :
    (machine macOS).Throughout (World.Kept macOS) s actions ↔
      (machine macOS).Each (fun s a => Tidy MacCall.tidy s a = true) s actions :=
  Transition.Machine.throughout_iff_each (fun _ _ _ inv _ step => Inv.step macOS_lawful inv step)
    (fun _ _ _ inv kept _ step => step_kept_iff macOS_lawful inv kept step) start.inv start.kept
    (Transition.Machine.each_true s actions) replay

def registrationFails : List Act :=
  [.construct 0, .answer 0 (.descriptor 3), .answer 0 (.descriptors 4 5)] ++
    List.replicate 8 (.answer 0 .done) ++ [.answer 0 (.failed .ENOENT), .close 0, .close 0, .finish 0]

theorem kqueue_lost : ¬ (machine macOS).Throughout (World.Kept macOS) (boot MacCall MacFds)
    registrationFails := by
  have run : ((machine macOS).exec (boot MacCall MacFds) registrationFails).isSome = true := rfl
  obtain ⟨t, replay⟩ := Option.isSome_iff_exists.mp run
  rw [macOS_descriptors_kept_iff (boot_start _ _) replay]
  decide

end CoroEpoll.Construction
