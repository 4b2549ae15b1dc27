import Mathlib.Logic.Function.Basic

/-! Guarded executable transition systems.

A step is a partial function of the state and an action: `none` means that the
action is not enabled. Replaying a list of actions and reasoning about every
reachable state therefore use the same guards.
-/

set_option autoImplicit false

namespace Transition

structure Machine (σ α : Type) where
  start : σ → Prop
  step : σ → α → Option σ

namespace Machine

variable {σ α : Type} (m : Machine σ α)

/-- Replay a list of actions; `none` when one of them is not enabled. -/
def exec : σ → List α → Option σ
  | s, [] => some s
  | s, a :: rest => (m.step s a).bind fun t => exec t rest

/-- States reached by steps that all meet a condition on the state they leave
and the action they take. -/
inductive ReachableWhere (ok : σ → α → Prop) : σ → Prop where
  | start {s : σ} : m.start s → ReachableWhere ok s
  | next {s t : σ} {a : α} : ReachableWhere ok s → ok s a → m.step s a = some t →
      ReachableWhere ok t

abbrev Reachable : σ → Prop := m.ReachableWhere fun _ _ => True

def Each (ok : σ → α → Prop) : σ → List α → Prop
  | _, [] => True
  | s, a :: rest => ok s a ∧ ∀ t, m.step s a = some t → Each ok t rest

def Throughout (P : σ → Prop) : σ → List α → Prop
  | s, [] => P s
  | s, a :: rest => P s ∧ ∀ t, m.step s a = some t → Throughout P t rest

def count (kind : σ → α → Bool) : σ → List α → Nat
  | _, [] => 0
  | s, a :: rest => (kind s a).toNat + ((m.step s a).map fun t => count kind t rest).getD 0

variable {m}

theorem ReachableWhere.invariant {ok : σ → α → Prop} {Inv : σ → Prop}
    (initial : ∀ s, m.start s → Inv s)
    (preserves : ∀ s a t, Inv s → ok s a → m.step s a = some t → Inv t)
    {s : σ} (reached : m.ReachableWhere ok s) : Inv s := by
  induction reached with
  | start first => exact initial _ first
  | next _ allowed step ih => exact preserves _ _ _ ih allowed step

theorem ReachableWhere.mono {ok weaker : σ → α → Prop} (implies : ∀ s a, ok s a → weaker s a)
    {s : σ} (reached : m.ReachableWhere ok s) : m.ReachableWhere weaker s := by
  induction reached with
  | start first => exact .start first
  | next _ allowed step ih => exact .next ih (implies _ _ allowed) step

theorem ReachableWhere.reachable {ok : σ → α → Prop} {s : σ}
    (reached : m.ReachableWhere ok s) : m.Reachable s :=
  reached.mono fun _ _ _ => trivial

theorem exec_cons {s t : σ} {a : α} {rest : List α} (step : m.step s a = some t) :
    m.exec s (a :: rest) = m.exec t rest := by
  simp only [exec, step, Option.bind_some]

theorem exec_append (s : σ) (first rest : List α) :
    m.exec s (first ++ rest) = (m.exec s first).bind fun t => m.exec t rest := by
  induction first generalizing s with
  | nil => rfl
  | cons a first ih =>
    simp only [List.cons_append, exec]
    cases m.step s a with
    | none => rfl
    | some t => exact ih t

theorem exec_cons_eq_some {s u : σ} {a : α} {rest : List α} :
    m.exec s (a :: rest) = some u ↔ ∃ t, m.step s a = some t ∧ m.exec t rest = some u := by
  simp only [exec, Option.bind_eq_some_iff]

theorem ReachableWhere.exec {ok : σ → α → Prop} {s t : σ} {actions : List α}
    (reached : m.ReachableWhere ok s) (each : m.Each ok s actions)
    (replay : m.exec s actions = some t) : m.ReachableWhere ok t := by
  induction actions generalizing s with
  | nil => exact Option.some.inj replay ▸ reached
  | cons a rest ih =>
    obtain ⟨u, step, tail⟩ := exec_cons_eq_some.mp replay
    exact ih (reached.next each.1 step) (each.2 u step) tail

theorem exec_invariant {Inv : σ → Prop}
    (preserves : ∀ s a t, Inv s → m.step s a = some t → Inv t) {s t : σ} {actions : List α}
    (inv : Inv s) (replay : m.exec s actions = some t) : Inv t := by
  induction actions generalizing s with
  | nil => exact Option.some.inj replay ▸ inv
  | cons a rest ih =>
    obtain ⟨u, step, tail⟩ := exec_cons_eq_some.mp replay
    exact ih (preserves s a u inv step) tail

theorem each_of_forall {ok : σ → α → Prop} {s : σ} {actions : List α}
    (met : ∀ a ∈ actions, ∀ t, ok t a) : m.Each ok s actions := by
  induction actions generalizing s with
  | nil => trivial
  | cons a rest ih =>
    exact ⟨met a List.mem_cons_self s, fun t _ => ih fun b member => met b (List.mem_cons_of_mem a member)⟩

theorem each_true (s : σ) (actions : List α) : m.Each (fun _ _ => True) s actions :=
  each_of_forall fun _ _ _ => trivial

theorem ReachableWhere.replay {s t : σ} {actions : List α} (reached : m.Reachable s)
    (replay : m.exec s actions = some t) : m.Reachable t :=
  ReachableWhere.exec reached (each_true s actions) replay

/-- A property that a step keeps exactly when the step meets the condition holds
along a whole replay exactly when each of its steps meets it. The replay may be
restricted to allowed steps, and a known invariant may be used. -/
theorem throughout_iff_each {allowed ok : σ → α → Prop} {Inv P : σ → Prop}
    (preserves : ∀ s a t, Inv s → allowed s a → m.step s a = some t → Inv t)
    (exact_step : ∀ s a t, Inv s → P s → allowed s a → m.step s a = some t → (P t ↔ ok s a))
    {s t : σ} {actions : List α} (inv : Inv s) (holds : P s) (each : m.Each allowed s actions)
    (replay : m.exec s actions = some t) :
    m.Throughout P s actions ↔ m.Each ok s actions := by
  induction actions generalizing s with
  | nil => exact ⟨fun _ => trivial, fun _ => holds⟩
  | cons a rest ih =>
    obtain ⟨u, step, tail⟩ := exec_cons_eq_some.mp replay
    have head_iff := exact_step s a u inv holds each.1 step
    have next := preserves s a u inv each.1 step
    constructor
    · rintro ⟨_, later⟩
      have at_next : P u := by
        cases rest with
        | nil => exact later u step
        | cons b rest => exact (later u step).1
      refine ⟨head_iff.mp at_next, fun v same => ?_⟩
      cases step.symm.trans same
      exact (ih next at_next (each.2 u step) tail).mp (later u step)
    · rintro ⟨met, later⟩
      refine ⟨holds, fun v same => ?_⟩
      cases step.symm.trans same
      exact (ih next (head_iff.mpr met) (each.2 u step) tail).mpr (later u step)

/-- The same when the invariant is kept by the steps that meet the condition and gives the
property, which any other step from it breaks. -/
theorem throughout_iff_each_of_keeps {ok : σ → α → Prop} {Inv P : σ → Prop}
    (gives : ∀ s, Inv s → P s)
    (keeps : ∀ s a t, Inv s → ok s a → m.step s a = some t → Inv t)
    (breaks : ∀ s a t, Inv s → ¬ ok s a → m.step s a = some t → ¬ P t)
    {s t : σ} {actions : List α} (inv : Inv s) (replay : m.exec s actions = some t) :
    m.Throughout P s actions ↔ m.Each ok s actions := by
  induction actions generalizing s with
  | nil => exact ⟨fun _ => trivial, fun _ => gives s inv⟩
  | cons a rest ih =>
    obtain ⟨u, step, tail⟩ := exec_cons_eq_some.mp replay
    constructor
    · rintro ⟨_, later⟩
      have at_next : P u := by
        cases rest with
        | nil => exact later u step
        | cons b rest => exact (later u step).1
      have met : ok s a := by
        by_contra unmet
        exact breaks s a u inv unmet step at_next
      refine ⟨met, fun v same => ?_⟩
      cases step.symm.trans same
      exact (ih (keeps s a u inv met step) tail).mp (later u step)
    · rintro ⟨met, later⟩
      refine ⟨gives s inv, fun v same => ?_⟩
      cases step.symm.trans same
      exact (ih (keeps s a u inv met step) tail).mpr (later u step)

theorem Each.cons {ok : σ → α → Prop} {s t : σ} {a : α} {rest : List α} (met : ok s a)
    (step : m.step s a = some t) (each : m.Each ok t rest) : m.Each ok s (a :: rest) := by
  refine ⟨met, fun u same => ?_⟩
  cases step.symm.trans same
  exact each

theorem Each.mono {ok weaker : σ → α → Prop} (implies : ∀ s a, ok s a → weaker s a) {s : σ}
    {actions : List α} (each : m.Each ok s actions) : m.Each weaker s actions := by
  induction actions generalizing s with
  | nil => trivial
  | cons a rest ih => exact ⟨implies s a each.1, fun t step => ih (each.2 t step)⟩

theorem Each.at {ok : σ → α → Prop} {s t : σ} {first rest : List α} {a : α}
    (each : m.Each ok s (first ++ a :: rest)) (replay : m.exec s first = some t) : ok t a := by
  induction first generalizing s with
  | nil => exact Option.some.inj replay ▸ each.1
  | cons b first ih =>
    obtain ⟨u, step, tail⟩ := exec_cons_eq_some.mp replay
    exact ih (each.2 u step) tail

theorem each_append {ok : σ → α → Prop} {s : σ} {first rest : List α} :
    m.Each ok s (first ++ rest) ↔
      m.Each ok s first ∧ ∀ t, m.exec s first = some t → m.Each ok t rest := by
  induction first generalizing s with
  | nil =>
    constructor
    · exact fun each => ⟨trivial, fun t same => Option.some.inj same ▸ each⟩
    · exact fun each => each.2 s rfl
  | cons b first ih =>
    constructor
    · rintro ⟨met, later⟩
      refine ⟨⟨met, fun t step => (ih.mp (later t step)).1⟩, fun t replay => ?_⟩
      obtain ⟨u, step, tail⟩ := exec_cons_eq_some.mp replay
      exact (ih.mp (later u step)).2 t tail
    · rintro ⟨⟨met, later⟩, last⟩
      refine ⟨met, fun t step => ih.mpr ⟨later t step, fun u tail => last u ?_⟩⟩
      rw [exec_cons step]
      exact tail

theorem each_concat {ok : σ → α → Prop} {s : σ} {first : List α} {a : α} :
    m.Each ok s (first ++ [a]) ↔ m.Each ok s first ∧ ∀ t, m.exec s first = some t → ok t a := by
  rw [each_append]
  simp [Each]

/-- Two conditions on the steps of a run can be compared under an invariant. -/
theorem Each.imp {allowed first second : σ → α → Prop} {Inv : σ → Prop}
    (preserves : ∀ s a t, Inv s → allowed s a → m.step s a = some t → Inv t)
    (implies : ∀ s a, Inv s → allowed s a → first s a → second s a) {s : σ} {actions : List α}
    (inv : Inv s) (each : m.Each allowed s actions) (met : m.Each first s actions) :
    m.Each second s actions := by
  induction actions generalizing s with
  | nil => trivial
  | cons a rest ih =>
    refine ⟨implies s a inv each.1 met.1, fun t step => ?_⟩
    exact ih (preserves s a t inv each.1 step) (each.2 t step) (met.2 t step)

/-- A replay can be checked against a decidable condition by running it. -/
instance Each.decidable {ok : σ → α → Prop} [∀ s a, Decidable (ok s a)] :
    ∀ s actions, Decidable (m.Each ok s actions)
  | _, [] => isTrue trivial
  | s, a :: rest =>
    match step : m.step s a with
    | none => decidable_of_iff (ok s a) ⟨fun met => ⟨met, by simp [step]⟩, And.left⟩
    | some t =>
      have : Decidable (m.Each ok t rest) := Each.decidable t rest
      decidable_of_iff (ok s a ∧ m.Each ok t rest) (by simp [Each, step])

theorem Throughout.last {P : σ → Prop} {s t : σ} {actions : List α}
    (always : m.Throughout P s actions) (replay : m.exec s actions = some t) : P t := by
  induction actions generalizing s with
  | nil => exact Option.some.inj replay ▸ always
  | cons a rest ih =>
    obtain ⟨u, step, tail⟩ := exec_cons_eq_some.mp replay
    exact ih (always.2 u step) tail

theorem throughout_iff_forall {P : σ → Prop} {s : σ} {actions : List α} :
    m.Throughout P s actions ↔
      ∀ first rest t, actions = first ++ rest → m.exec s first = some t → P t := by
  induction actions generalizing s with
  | nil =>
    constructor
    · rintro holds first rest t same replay
      obtain ⟨rfl, rfl⟩ := List.nil_eq_append_iff.mp same
      exact Option.some.inj replay ▸ holds
    · exact fun holds => holds [] [] s rfl rfl
  | cons a later ih =>
    constructor
    · rintro ⟨here, always⟩ first rest t same replay
      cases first with
      | nil => exact Option.some.inj replay ▸ here
      | cons b first =>
        obtain ⟨rfl, rfl⟩ := List.cons_eq_cons.mp same
        obtain ⟨u, step, tail⟩ := exec_cons_eq_some.mp replay
        exact ih.mp (always u step) first rest t rfl tail
    · intro holds
      refine ⟨holds [] _ s rfl rfl, fun t step => ih.mpr fun first rest u same replay => ?_⟩
      refine holds (a :: first) rest u (congrArg (a :: ·) same) ?_
      rw [exec_cons step]
      exact replay

/-- A property that only a last state can lack holds throughout a replay when the last
state has it. -/
theorem Throughout.of_last {Inv P : σ → Prop}
    (preserves : ∀ s a t, Inv s → m.step s a = some t → Inv t)
    (goesOn : ∀ s a t, Inv s → m.step s a = some t → P s) {s t : σ} {actions : List α}
    (inv : Inv s) (replay : m.exec s actions = some t) (last : P t) : m.Throughout P s actions := by
  induction actions generalizing s with
  | nil => exact Option.some.inj replay ▸ last
  | cons a rest ih =>
    obtain ⟨u, step, tail⟩ := exec_cons_eq_some.mp replay
    refine ⟨goesOn s a u inv step, fun v same => ?_⟩
    cases step.symm.trans same
    exact ih (preserves s a u inv step) tail

theorem count_cons {kind : σ → α → Bool} {s t : σ} {a : α} (step : m.step s a = some t)
    (rest : List α) : m.count kind s (a :: rest) = (kind s a).toNat + m.count kind t rest := by
  rw [count, step]
  rfl

theorem count_stuck {kind : σ → α → Bool} {s : σ} {a : α} (stuck : m.step s a = none)
    (rest : List α) : m.count kind s (a :: rest) = (kind s a).toNat := by
  rw [count, stuck]
  rfl

/-- Steps of a kind that settles the state, and that no settled state takes, are paid for by
the steps that unsettle it. -/
theorem count_le_count {allowed : σ → α → Prop} {Inv Settled : σ → Prop}
    {kind unsettles : σ → α → Bool}
    (preserves : ∀ s a t, Inv s → allowed s a → m.step s a = some t → Inv t)
    (quiet : ∀ s a, Inv s → Settled s → kind s a = false)
    (settles : ∀ s a t, Inv s → allowed s a → kind s a = true → m.step s a = some t → Settled t)
    (keeps : ∀ s a t, Inv s → allowed s a → Settled s → unsettles s a = false →
      m.step s a = some t → Settled t)
    {s : σ} {actions : List α} (inv : Inv s) (each : m.Each allowed s actions) :
    m.count kind s actions ≤ m.count unsettles s actions + 1 ∧
      (Settled s → m.count kind s actions ≤ m.count unsettles s actions) := by
  induction actions generalizing s with
  | nil => exact ⟨Nat.zero_le _, fun _ => Nat.le_refl _⟩
  | cons a rest ih =>
    cases step : m.step s a with
    | none =>
      rw [count_stuck step, count_stuck step]
      refine ⟨Nat.le_trans (Bool.toNat_le _) (Nat.le_add_left ..), fun settled => ?_⟩
      rw [quiet s a inv settled]
      exact Nat.zero_le _
    | some t =>
      rw [count_cons step, count_cons step]
      obtain ⟨anyway, ifSettled⟩ := ih (preserves s a t inv each.1 step) (each.2 t step)
      constructor
      · cases of_kind : kind s a with
        | false => exact Nat.le_trans (by simpa using anyway) (by omega)
        | true =>
          have paid := ifSettled (settles s a t inv each.1 of_kind step)
          simp only [Bool.toNat_true]
          omega
      · intro settled
        rw [quiet s a inv settled]
        cases unsettled : unsettles s a with
        | false =>
          have paid := ifSettled (keeps s a t inv each.1 settled unsettled step)
          simpa using paid
        | true =>
          simp only [Bool.toNat_true, Bool.toNat_false]
          omega

end Machine

end Transition
