import CoroEpoll.Library.Transition

/-! An object whose constructor starts threads, and whose destructor stops and joins them.

A constructor that is left by an exception does not run the body of the destructor: the
members are destroyed in the reverse order of their declarations, and the destruction of a
thread object that is joinable ends the process.
-/

set_option autoImplicit false

namespace ThreadOwner

/-- A class with a vector of threads among its members. Its threads work on the state `σ`, by
the steps `α`; its owner tells them to stop, by the steps `β`, and its users take the steps
`γ` while the object is there. -/
structure Class (μ σ α β γ : Type) where
  /-- in the order of their declarations -/
  members : List μ
  /-- the vector of threads -/
  threads : μ
  /-- a step of a thread -/
  progress : σ → Nat → α → Option σ
  /-- the function of a thread has returned -/
  returned : σ → Nat → Bool
  /-- a step of `stop()` -/
  stop : σ → β → Option σ
  /-- `stop()` has returned -/
  stopDone : σ → Bool
  use : σ → γ → Option σ
  /-- whether a thread has been told to stop -/
  told : σ → Nat → Bool

/-- Where the thread is that constructs and destroys the object. -/
inductive Phase (ε : Type) where
  /-- in the loop of the constructor that starts the threads -/
  | starting
  | built
  /-- in `stop()`, called by the destructor -/
  | stopping
  /-- in `join()`, at a thread -/
  | joining (i : Nat)
  /-- destroying the members, after an exception or the body of the destructor -/
  | unwinding (thrown : Option ε)
  | gone (thrown : Option ε)
  /-- the process has been terminated -/
  | terminated

structure World (μ σ ε : Type) where
  shared : σ
  phase : Phase ε
  /-- number of thread objects constructed -/
  created : Nat
  joinable : Nat → Bool
  /-- the members still to be destroyed, the next one first -/
  left : List μ
  /-- number of thread objects destroyed -/
  destroyed : Nat

inductive Act (α β γ ε : Type) where
  | create
  /-- the creation of a thread throws -/
  | fail (error : ε)
  | finish
  | use (c : γ)
  | destroy
  | stop (b : β)
  | stopped
  | join
  | joined
  /-- the destruction of the next thread object or member -/
  | unwind
  | progress (i : Nat) (a : α)

variable {μ σ α β γ ε : Type} (C : Class μ σ α β γ) (n : Nat)

def World.start (shared : σ) : World μ σ ε where
  shared := shared
  phase := .starting
  created := 0
  joinable _ := false
  left := C.members.reverse
  destroyed := 0

def World.create (s : World μ σ ε) : World μ σ ε :=
  { s with created := s.created + 1, joinable := Function.update s.joinable s.created true }

/-- `join()` at a thread; it blocks until the thread has returned. -/
def World.join (i : Nat) (s : World μ σ ε) : Option (World μ σ ε) :=
  if s.joinable i then
    if C.returned s.shared i then
      some { s with phase := .joining (i + 1), joinable := Function.update s.joinable i false }
    else none
  else some { s with phase := .joining (i + 1) }

def World.unwind [DecidableEq μ] (thrown : Option ε) (s : World μ σ ε) : World μ σ ε :=
  match s.left with
  | [] => { s with phase := .gone thrown }
  | member :: rest =>
    if member = C.threads ∧ s.destroyed < s.created then
      if s.joinable s.destroyed then { s with phase := .terminated }
      else { s with destroyed := s.destroyed + 1 }
    else { s with left := rest }

def step [DecidableEq μ] (s : World μ σ ε) : Act α β γ ε → Option (World μ σ ε)
  | .create =>
    match s.phase with
    | .starting => if s.created < n then some s.create else none
    | _ => none
  | .fail error =>
    match s.phase with
    | .starting => if s.created < n then some { s with phase := .unwinding (some error) } else none
    | _ => none
  | .finish =>
    match s.phase with
    | .starting => if s.created = n then some { s with phase := .built } else none
    | _ => none
  | .use c =>
    match s.phase with
    | .built => (C.use s.shared c).map fun shared => { s with shared }
    | _ => none
  | .destroy =>
    match s.phase with
    | .built => some { s with phase := .stopping }
    | _ => none
  | .stop b =>
    match s.phase with
    | .stopping => (C.stop s.shared b).map fun shared => { s with shared }
    | _ => none
  | .stopped =>
    match s.phase with
    | .stopping => if C.stopDone s.shared then some { s with phase := .joining 0 } else none
    | _ => none
  | .join =>
    match s.phase with
    | .joining i => if i < s.created then s.join C i else none
    | _ => none
  | .joined =>
    match s.phase with
    | .joining i => if i = s.created then some { s with phase := .unwinding none } else none
    | _ => none
  | .unwind =>
    match s.phase with
    | .unwinding thrown => some (s.unwind C thrown)
    | _ => none
  | .progress i a =>
    match s.phase with
    | .terminated => none
    | _ => if i < s.created then (C.progress s.shared i a).map fun shared => { s with shared } else none

def machine [DecidableEq μ] (initial : σ → Prop) : Transition.Machine (World μ σ ε) (Act α β γ ε) where
  start s := ∃ shared, initial shared ∧ s = .start C shared
  step := step C n

def World.ended (s : World μ σ ε) : Bool :=
  match s.phase with
  | .gone _ | .terminated => true
  | _ => false

/-- The object is gone, with the exception if there was one, after every thread that was
started had been told to stop and was joined. -/
structure Clean (thrown : Option ε) (s : World μ σ ε) : Prop where
  gone : s.phase = .gone thrown
  told : ∀ i, i < s.created → C.told s.shared i = true
  joined : ∀ i, i < s.created → s.joinable i = false
  returned : ∀ i, i < s.created → C.returned s.shared i = true

/-! ## What a step keeps -/

variable {C} {n} {good : σ → Prop}

structure Class.Lawful (C : Class μ σ α β γ) (n : Nat) (good : σ → Prop) : Prop where
  threads_mem : C.threads ∈ C.members
  progress_good : ∀ s i a t, good s → C.progress s i a = some t → good t
  stop_good : ∀ s b t, good s → C.stop s b = some t → good t
  use_good : ∀ s c t, good s → C.use s c = some t → good t
  progress_told : ∀ s i a t j, good s → C.progress s i a = some t → C.told s j = true →
    C.told t j = true
  progress_returned : ∀ s i a t j, good s → C.progress s i a = some t →
    C.returned s j = true → C.returned t j = true
  stop_told : ∀ s j, good s → C.stopDone s = true → j < n → C.told s j = true

structure World.Running (C : Class μ σ α β γ) (s : World μ σ ε) : Prop where
  joinable : ∀ i, i < s.created → s.joinable i = true
  left : s.left = C.members.reverse
  destroyed : s.destroyed = 0

structure World.Joined (C : Class μ σ α β γ) (i : Nat) (s : World μ σ ε) : Prop where
  joined : ∀ j, j < i → s.joinable j = false
  returned : ∀ j, j < i → C.returned s.shared j = true
  joinable : ∀ j, i ≤ j → j < s.created → s.joinable j = true

def World.Told (C : Class μ σ α β γ) (s : World μ σ ε) : Prop :=
  ∀ i, i < s.created → C.told s.shared i = true

structure World.Failing (C : Class μ σ α β γ) (s : World μ σ ε) : Prop where
  joinable : ∀ i, i < s.created → s.joinable i = true
  destroyed : s.destroyed = 0
  threads_left : 0 < s.created → C.threads ∈ s.left

def World.Placed (C : Class μ σ α β γ) (s : World μ σ ε) : Prop :=
  match s.phase with
  | .starting | .built | .stopping => s.Running C
  | .joining i => i ≤ s.created ∧ s.Told C ∧ s.Joined C i
  | .unwinding none | .gone none => s.Told C ∧ s.Joined C s.created
  | .unwinding (some _) => s.Failing C
  | .gone (some _) => s.created = 0
  | .terminated => 0 < s.created

structure Inv (C : Class μ σ α β γ) (n : Nat) (good : σ → Prop) (s : World μ σ ε) : Prop where
  good : good s.shared
  bounded : s.created ≤ n
  placed : s.Placed C

theorem start_inv {shared : σ} (initially : good shared) :
    Inv C n good (.start C shared : World μ σ ε) where
  good := initially
  bounded := Nat.zero_le n
  placed := ⟨fun i below => absurd below (Nat.not_lt_zero i), rfl, rfl⟩

theorem World.joinable_create (s : World μ σ ε) (i : Nat) :
    s.create.joinable i = if i = s.created then true else s.joinable i :=
  Function.update_apply ..

theorem World.Running.create {s : World μ σ ε} (running : s.Running C) : s.create.Running C where
  joinable i below := by
    rw [World.joinable_create]
    split
    · rfl
    · apply running.joinable
      have before : i < s.created + 1 := below
      omega
  left := running.left
  destroyed := running.destroyed

theorem World.Running.failing (lawful : C.Lawful n good) {s : World μ σ ε} (running : s.Running C)
    (phase : Phase ε) : World.Failing C { s with phase } where
  joinable := running.joinable
  destroyed := running.destroyed
  threads_left _ := by
    rw [running.left, List.mem_reverse]
    exact lawful.threads_mem

/-- Destroying the members ends the process if there is a thread. -/
theorem World.Failing.unwind [DecidableEq μ] {s : World μ σ ε} (failing : s.Failing C) {error : ε}
    (phase : s.phase = .unwinding (some error)) : (s.unwind C (some error)).Placed C := by
  unfold World.unwind
  split
  · rename_i empty
    by_contra somebody
    have left := failing.threads_left (Nat.pos_of_ne_zero somebody)
    rw [empty] at left
    cases left
  · rename_i member rest left
    split
    · rename_i atThreads
      rw [failing.destroyed] at atThreads ⊢
      rw [if_pos (failing.joinable 0 atThreads.2)]
      exact atThreads.2
    · rename_i elsewhere
      simp only [World.Placed, phase]
      refine ⟨failing.joinable, failing.destroyed, fun somebody => ?_⟩
      have before := failing.threads_left somebody
      rw [left] at before
      rcases List.mem_cons.mp before with same | later
      · exact absurd ⟨same.symm, by rw [failing.destroyed]; exact somebody⟩ elsewhere
      · exact later

theorem World.Joined.unwind [DecidableEq μ] {s : World μ σ ε} (told : s.Told C)
    (joined : s.Joined C s.created) (phase : s.phase = .unwinding none) :
    (s.unwind C none).Placed C := by
  unfold World.unwind
  split
  · exact ⟨told, joined.joined, joined.returned, joined.joinable⟩
  · split
    · rename_i atThreads
      rw [joined.joined _ atThreads.2]
      simp only [World.Placed, phase]
      exact ⟨told, joined.joined, joined.returned, joined.joinable⟩
    · simp only [World.Placed, phase]
      exact ⟨told, joined.joined, joined.returned, joined.joinable⟩

theorem World.Joined.join {s t : World μ σ ε} {i : Nat} (told : s.Told C) (joined : s.Joined C i)
    (below : i < s.created) (join : s.join C i = some t) : t.Placed C ∧ t.created = s.created := by
  unfold World.join at join
  rw [if_pos (joined.joinable i (Nat.le_refl i) below)] at join
  simp only [Option.ite_none_right_eq_some, Option.some.injEq] at join
  obtain ⟨returned, rfl⟩ := join
  refine ⟨⟨below, told, ?_⟩, rfl⟩
  constructor
  · intro j before
    dsimp only
    rw [Function.update_apply]
    split
    · rfl
    · exact joined.joined j (by omega)
  · intro j before
    by_cases last : j = i
    · exact last ▸ returned
    · exact joined.returned j (by omega)
  · intro j after within
    dsimp only at within ⊢
    rw [Function.update_of_ne (by omega)]
    exact joined.joinable j (by omega) within

theorem World.Placed.progress (lawful : C.Lawful n good) {s : World μ σ ε} (valid : good s.shared)
    (placed : s.Placed C) {i : Nat} {a : α} {shared : σ}
    (progress : C.progress s.shared i a = some shared) : World.Placed C { s with shared } := by
  have told : s.Told C → World.Told C { s with shared } := fun told j below =>
    lawful.progress_told _ i a shared j valid progress (told j below)
  have joined : ∀ {k : Nat}, s.Joined C k → World.Joined C k { s with shared } := fun joined =>
    ⟨joined.joined, fun j below =>
      lawful.progress_returned _ i a shared j valid progress (joined.returned j below),
      joined.joinable⟩
  unfold World.Placed at placed ⊢
  dsimp only
  split at placed
  · exact ⟨placed.joinable, placed.left, placed.destroyed⟩
  · exact ⟨placed.joinable, placed.left, placed.destroyed⟩
  · exact ⟨placed.joinable, placed.left, placed.destroyed⟩
  · exact ⟨placed.1, told placed.2.1, joined placed.2.2⟩
  · exact ⟨told placed.1, joined placed.2⟩
  · exact ⟨told placed.1, joined placed.2⟩
  · exact ⟨placed.joinable, placed.destroyed, placed.threads_left⟩
  · exact placed
  · exact placed

theorem World.created_unwind [DecidableEq μ] (s : World μ σ ε) (thrown : Option ε) :
    (s.unwind C thrown).created = s.created := by
  unfold World.unwind
  split
  · rfl
  · split
    · split
      · rfl
      · rfl
    · rfl

theorem World.shared_unwind [DecidableEq μ] (s : World μ σ ε) (thrown : Option ε) :
    (s.unwind C thrown).shared = s.shared := by
  unfold World.unwind
  split
  · rfl
  · split
    · split
      · rfl
      · rfl
    · rfl

theorem World.shared_join {s t : World μ σ ε} {i : Nat} (join : s.join C i = some t) :
    t.shared = s.shared := by
  unfold World.join at join
  split at join
  · simp only [Option.ite_none_right_eq_some, Option.some.injEq] at join
    rw [← join.2]
  · rw [← Option.some.inj join]

theorem Inv.step [DecidableEq μ] (lawful : C.Lawful n good) {s t : World μ σ ε} {a : Act α β γ ε}
    (inv : Inv C n good s) (step : step C n s a = some t) : Inv C n good t := by
  obtain ⟨valid, bounded, placed⟩ := inv
  cases a with
  | progress i a =>
    simp only [ThreadOwner.step] at step
    split at step
    · cases step
    · simp only [Option.ite_none_right_eq_some, Option.map_eq_some_iff] at step
      obtain ⟨_, shared, progress, rfl⟩ := step
      exact ⟨lawful.progress_good _ i a shared valid progress, bounded,
        placed.progress lawful valid progress⟩
  | create =>
    simp only [ThreadOwner.step] at step
    split at step
    · rename_i phase
      simp only [World.Placed, phase] at placed
      simp only [Option.ite_none_right_eq_some, Option.some.injEq] at step
      obtain ⟨below, rfl⟩ := step
      have starting : s.create.phase = .starting := phase
      refine ⟨valid, below, ?_⟩
      simp only [World.Placed, starting]
      exact placed.create
    · cases step
  | fail error =>
    simp only [ThreadOwner.step] at step
    split at step
    · rename_i phase
      simp only [World.Placed, phase] at placed
      simp only [Option.ite_none_right_eq_some, Option.some.injEq] at step
      obtain ⟨_, rfl⟩ := step
      exact ⟨valid, bounded, placed.failing lawful _⟩
    · cases step
  | finish =>
    simp only [ThreadOwner.step] at step
    split at step
    · rename_i phase
      simp only [World.Placed, phase] at placed
      simp only [Option.ite_none_right_eq_some, Option.some.injEq] at step
      obtain ⟨_, rfl⟩ := step
      exact ⟨valid, bounded, placed.joinable, placed.left, placed.destroyed⟩
    · cases step
  | destroy =>
    simp only [ThreadOwner.step] at step
    split at step
    · rename_i phase
      simp only [World.Placed, phase] at placed
      cases Option.some.inj step
      exact ⟨valid, bounded, placed.joinable, placed.left, placed.destroyed⟩
    · cases step
  | stop b =>
    simp only [ThreadOwner.step] at step
    split at step
    · rename_i phase
      simp only [World.Placed, phase] at placed
      simp only [Option.map_eq_some_iff] at step
      obtain ⟨shared, stop, rfl⟩ := step
      refine ⟨lawful.stop_good _ b shared valid stop, bounded, ?_⟩
      simp only [World.Placed, phase]
      exact ⟨placed.joinable, placed.left, placed.destroyed⟩
    · cases step
  | use c =>
    simp only [ThreadOwner.step] at step
    split at step
    · rename_i phase
      simp only [World.Placed, phase] at placed
      simp only [Option.map_eq_some_iff] at step
      obtain ⟨shared, use, rfl⟩ := step
      refine ⟨lawful.use_good _ c shared valid use, bounded, ?_⟩
      simp only [World.Placed, phase]
      exact ⟨placed.joinable, placed.left, placed.destroyed⟩
    · cases step
  | stopped =>
    simp only [ThreadOwner.step] at step
    split at step
    · rename_i phase
      simp only [World.Placed, phase] at placed
      simp only [Option.ite_none_right_eq_some, Option.some.injEq] at step
      obtain ⟨done, rfl⟩ := step
      refine ⟨valid, bounded, Nat.zero_le _, fun i below => ?_, ?_⟩
      · exact lawful.stop_told _ i valid done (Nat.lt_of_lt_of_le below bounded)
      · exact ⟨fun j before => absurd before (Nat.not_lt_zero j),
          fun j before => absurd before (Nat.not_lt_zero j), fun j _ => placed.joinable j⟩
    · cases step
  | join =>
    simp only [ThreadOwner.step] at step
    split at step
    · rename_i i phase
      simp only [World.Placed, phase] at placed
      simp only [Option.ite_none_right_eq_some] at step
      obtain ⟨below, join⟩ := step
      obtain ⟨next, same⟩ := placed.2.2.join placed.2.1 below join
      exact ⟨World.shared_join join ▸ valid, same ▸ bounded, next⟩
    · cases step
  | joined =>
    simp only [ThreadOwner.step] at step
    split at step
    · rename_i i phase
      simp only [World.Placed, phase] at placed
      simp only [Option.ite_none_right_eq_some, Option.some.injEq] at step
      obtain ⟨last, rfl⟩ := step
      rw [last] at placed
      exact ⟨valid, bounded, placed.2.1, placed.2.2.joined, placed.2.2.returned, placed.2.2.joinable⟩
    · cases step
  | unwind =>
    simp only [ThreadOwner.step] at step
    split at step
    · rename_i thrown phase
      cases Option.some.inj step
      refine ⟨(s.shared_unwind thrown).symm ▸ valid, (s.created_unwind thrown).symm ▸ bounded, ?_⟩
      simp only [World.Placed, phase] at placed
      cases thrown with
      | none => exact placed.2.unwind placed.1 phase
      | some error => exact placed.unwind phase
    · cases step

/-! ## The end of an object -/

/-- The destructor of an object that was fully constructed stops and joins every thread. -/
theorem Inv.destroyed_clean {s : World μ σ ε} (inv : Inv C n good s) (gone : s.phase = .gone none) :
    Clean C none s := by
  have placed := inv.placed
  simp only [World.Placed, gone] at placed
  exact ⟨gone, placed.1, placed.2.joined, placed.2.returned⟩

section
variable [DecidableEq μ] {initial : σ → Prop}

theorem reachable_inv (lawful : C.Lawful n good) (initially : ∀ shared, initial shared → good shared)
    {s : World μ σ ε} (reached : (machine (α := α) C n initial).Reachable s) : Inv C n good s := by
  induction reached with
  | start start =>
    obtain ⟨shared, first, rfl⟩ := start
    exact start_inv (initially shared first)
  | next _ _ step ih => exact ih.step lawful step

def World.Failed (error : ε) (s : World μ σ ε) : Prop :=
  s.phase = .unwinding (some error) ∨ s.phase = .gone (some error) ∨ s.phase = .terminated

theorem World.Failed.step {error : ε} {s t : World μ σ ε} {a : Act α β γ ε} (failed : s.Failed error)
    (step : step C n s a = some t) : t.Failed error ∧ t.created = s.created := by
  cases a with
  | progress i a =>
    simp only [ThreadOwner.step] at step
    split at step
    · cases step
    · simp only [Option.ite_none_right_eq_some, Option.map_eq_some_iff] at step
      obtain ⟨_, shared, _, rfl⟩ := step
      exact ⟨failed, rfl⟩
  | unwind =>
    simp only [ThreadOwner.step] at step
    split at step
    · rename_i thrown phase
      cases Option.some.inj step
      refine ⟨?_, s.created_unwind thrown⟩
      have same : thrown = some error := by
        rcases failed with unwinding | gone | terminated
        · cases phase.symm.trans unwinding
          rfl
        · cases phase.symm.trans gone
        · cases phase.symm.trans terminated
      rw [same] at phase ⊢
      unfold World.unwind
      split
      · exact Or.inr (Or.inl rfl)
      · split
        · split
          · exact Or.inr (Or.inr rfl)
          · exact Or.inl phase
        · exact Or.inl phase
    · cases step
  | create | fail error | finish | use c | destroy | stop b | stopped | join | joined =>
    simp only [ThreadOwner.step] at step
    split at step
    · rename_i phase
      rcases failed with failed | failed | failed
      all_goals cases failed.symm.trans phase
    · cases step

theorem World.Failed.exec {error : ε} {s t : World μ σ ε} {actions : List (Act α β γ ε)}
    (failed : s.Failed error) (replay : (machine C n initial).exec s actions = some t) :
    t.Failed error ∧ t.created = s.created := by
  induction actions generalizing s with
  | nil =>
    cases Option.some.inj replay
    exact ⟨failed, rfl⟩
  | cons a rest ih =>
    obtain ⟨u, step, replay⟩ := Transition.Machine.exec_cons_eq_some.mp replay
    obtain ⟨failed, created⟩ := failed.step step
    obtain ⟨failed, created'⟩ := ih failed replay
    exact ⟨failed, created'.trans created⟩

theorem World.Failing.ends {error : ε} {s : World μ σ ε} (failing : s.Failing C)
    (phase : s.phase = .unwinding (some error)) :
    ∃ actions t, (machine (α := α) C n initial).exec s actions = some t ∧ t.ended = true := by
  generalize remaining : s.left = left
  induction left generalizing s with
  | nil =>
    refine ⟨[.unwind], s.unwind C (some error), ?_, ?_⟩
    · simp [Transition.Machine.exec, machine, ThreadOwner.step, phase]
    · simp [World.unwind, remaining, World.ended]
  | cons member rest ih =>
    have next : step (α := α) C n s .unwind = some (s.unwind C (some error)) := by
      simp [ThreadOwner.step, phase]
    by_cases atThreads : member = C.threads ∧ s.destroyed < s.created
    · refine ⟨[.unwind], s.unwind C (some error), ?_, ?_⟩
      · simp [Transition.Machine.exec, machine, next]
      · have somebody : 0 < s.created := Nat.lt_of_le_of_lt (Nat.zero_le _) atThreads.2
        simp [World.unwind, remaining, atThreads.1, failing.destroyed, somebody,
          failing.joinable 0 somebody, World.ended]
    · have dropped : s.unwind C (some error) = { s with left := rest } := by
        simp only [World.unwind, remaining, if_neg atThreads]
      have placed := failing.unwind phase
      have same : (s.unwind C (some error)).phase = .unwinding (some error) := by
        rw [dropped]
        exact phase
      simp only [World.Placed, same] at placed
      obtain ⟨actions, t, replay, ended⟩ := ih placed same (by rw [dropped])
      exact ⟨.unwind :: actions, t, Transition.Machine.exec_cons_eq_some.mpr ⟨_, next, replay⟩, ended⟩

/-- The creation of a thread throws in this state: the constructor then comes to an end, and
wherever it does it has cleaned up exactly if a condition holds. -/
def CleansIf (C : Class μ σ α β γ) (n : Nat) (initial : σ → Prop) (error : ε) (cleans : Prop)
    (s : World μ σ ε) : Prop :=
  ∃ t, step C n s (.fail error) = some t ∧
    (∃ actions u, (machine C n initial).exec t actions = some u ∧ u.ended = true) ∧
    ∀ actions u, (machine C n initial).exec t actions = some u → u.ended = true →
      (Clean C (some error) u ↔ cleans)

theorem not_cleansIf_of_terminated {first s u : World μ σ ε} {error : ε}
    {before after : List (Act α β γ ε)} (replay : (machine C n initial).exec first before = some s)
    (whole : (machine C n initial).exec first (before ++ .fail error :: after) = some u)
    (terminated : u.phase = .terminated) : ¬ CleansIf C n initial error True s := by
  rintro ⟨t, failed, _, always⟩
  rw [Transition.Machine.exec_append, replay] at whole
  obtain ⟨t', again, tail⟩ := Transition.Machine.exec_cons_eq_some.mp whole
  cases failed.symm.trans again
  have ended : u.ended = true := by simp [World.ended, terminated]
  have clean := (always after u tail ended).mpr trivial
  cases clean.gone.symm.trans terminated

/-- A constructor whose thread creation throws cleans up only when no thread was running. -/
theorem Inv.cleansIf (lawful : C.Lawful n good) {s : World μ σ ε} (inv : Inv C n good s)
    (starting : s.phase = .starting) (below : s.created < n) (error : ε) :
    CleansIf C n initial error (s.created = 0) s := by
  have placed := inv.placed
  simp only [World.Placed, starting] at placed
  have failing := placed.failing lawful (.unwinding (some error))
  have thrown : ThreadOwner.step C n s (.fail error) =
      some { s with phase := .unwinding (some error) } := by
    simp [ThreadOwner.step, starting, below]
  refine ⟨_, thrown, failing.ends rfl, ?_⟩
  intro actions u replay ended
  have failed : World.Failed error { s with phase := .unwinding (some error) } := Or.inl rfl
  obtain ⟨failed, created⟩ := failed.exec replay
  have later : Inv C n good u := Transition.Machine.exec_invariant
    (fun _ _ _ inv step => inv.step lawful step) (inv.step lawful thrown) replay
  have placed := later.placed
  simp only at created
  rcases failed with unwinding | gone | terminated
  · simp [World.ended, unwinding] at ended
  · simp only [World.Placed, gone] at placed
    rw [← created]
    refine iff_of_true ⟨gone, ?_, ?_, ?_⟩ placed
    all_goals
      intro i running
      omega
  · simp only [World.Placed, terminated] at placed
    refine iff_of_false (fun clean => ?_) (by omega)
    cases terminated.symm.trans clean.gone

end

end ThreadOwner
