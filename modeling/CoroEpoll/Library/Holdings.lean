import Mathlib.Data.List.Nodup
import Mathlib.Logic.Function.Basic

/-! Resources in use and who holds them.

A holder acquires what nobody uses, gives back what it holds, or loses it: a lost resource
stays in use and is held by nobody.
-/

set_option autoImplicit false

namespace Holdings

variable {R H : Type}

/-- What is held is in use, and held once by one holder. -/
structure Safe (live : R → Prop) (held : H → List R) : Prop where
  live : ∀ h r, r ∈ held h → live r
  once : ∀ h, (held h).Nodup
  apart : ∀ h h' r, r ∈ held h → r ∈ held h' → h = h'

def Covers (live : R → Prop) (held : H → List R) : Prop :=
  ∀ r, live r → ∃ h, r ∈ held h

variable {live live' : R → Prop} {held : H → List R} [DecidableEq H] {h : H} {after : List R}

theorem mem_update {h' : H} {r : R} :
    r ∈ Function.update held h after h' ↔ h' = h ∧ r ∈ after ∨ h' ≠ h ∧ r ∈ held h' := by
  by_cases same : h' = h
  · subst same
    simp
  · simp [same]

theorem Safe.acquire (safe : Safe live held) {fresh : List R} (unused : ∀ r ∈ fresh, ¬ live r)
    (distinct : fresh.Nodup) (uses : ∀ r, live' r ↔ live r ∨ r ∈ fresh)
    (gets : after.Perm (held h ++ fresh)) : Safe live' (Function.update held h after) := by
  have elsewhere : ∀ h' r, r ∈ held h' → r ∉ fresh := fun h' r member new =>
    unused r new (safe.live h' r member)
  constructor
  · intro h' r member
    rw [uses]
    rcases mem_update.mp member with ⟨-, member⟩ | ⟨-, member⟩
    · rw [gets.mem_iff, List.mem_append] at member
      exact member.imp (safe.live h r) id
    · exact Or.inl (safe.live h' r member)
  · intro h'
    by_cases same : h' = h
    · subst same
      rw [Function.update_self, gets.nodup_iff]
      exact List.Nodup.append (safe.once h') distinct fun r member new => elsewhere h' r member new
    · rw [Function.update_of_ne same]
      exact safe.once h'
  · intro first second r isFirst isSecond
    rcases mem_update.mp isFirst with ⟨rfl, member⟩ | ⟨other, member⟩
    · rcases mem_update.mp isSecond with ⟨rfl, -⟩ | ⟨-, member'⟩
      · rfl
      · rw [gets.mem_iff, List.mem_append] at member
        rcases member with member | new
        · exact safe.apart _ _ r member member'
        · exact absurd new (elsewhere second r member')
    · rcases mem_update.mp isSecond with ⟨rfl, member'⟩ | ⟨-, member'⟩
      · rw [gets.mem_iff, List.mem_append] at member'
        rcases member' with member' | new
        · exact safe.apart _ _ r member member'
        · exact absurd new (elsewhere first r member)
      · exact safe.apart _ _ r member member'

theorem Covers.acquire (covers : Covers live held) {fresh : List R}
    (uses : ∀ r, live' r ↔ live r ∨ r ∈ fresh) (gets : after.Perm (held h ++ fresh)) :
    Covers live' (Function.update held h after) := by
  intro r used
  have mine : ∀ r, r ∈ held h ∨ r ∈ fresh → ∃ h', r ∈ Function.update held h after h' := by
    intro r member
    refine ⟨h, mem_update.mpr (Or.inl ⟨rfl, ?_⟩)⟩
    rwa [gets.mem_iff, List.mem_append]
  rcases (uses r).mp used with used | new
  · obtain ⟨h', member⟩ := covers r used
    by_cases same : h' = h
    · exact mine r (Or.inl (same ▸ member))
    · exact ⟨h', mem_update.mpr (Or.inr ⟨same, member⟩)⟩
  · exact mine r (Or.inr new)

theorem Safe.release (safe : Safe live held) {r : R} (has : (held h).Perm (r :: after))
    (uses : ∀ r', live' r' ↔ live r' ∧ r' ≠ r) : Safe live' (Function.update held h after) := by
  have mine : r ∈ held h := has.mem_iff.mpr List.mem_cons_self
  have keeps : ∀ r' ∈ after, r' ∈ held h := fun r' member =>
    has.mem_iff.mpr (List.mem_cons_of_mem r member)
  have once : (r :: after).Nodup := has.nodup_iff.mp (safe.once h)
  have before : ∀ {h' r'}, r' ∈ Function.update held h after h' → r' ∈ held h' := by
    intro h' r' member
    rcases mem_update.mp member with ⟨rfl, here⟩ | ⟨-, there⟩
    · exact keeps r' here
    · exact there
  constructor
  · intro h' r' member
    rw [uses]
    refine ⟨safe.live h' r' (before member), ?_⟩
    rintro rfl
    rcases mem_update.mp member with ⟨-, member⟩ | ⟨other, member⟩
    · exact (List.nodup_cons.mp once).1 member
    · exact other (safe.apart h' h r' member mine)
  · intro h'
    by_cases same : h' = h
    · subst same
      rw [Function.update_self]
      exact (List.nodup_cons.mp once).2
    · rw [Function.update_of_ne same]
      exact safe.once h'
  · intro first second r' isFirst isSecond
    exact safe.apart first second r' (before isFirst) (before isSecond)

theorem Covers.release (covers : Covers live held) {r : R} (has : (held h).Perm (r :: after))
    (uses : ∀ r', live' r' ↔ live r' ∧ r' ≠ r) : Covers live' (Function.update held h after) := by
  intro r' used
  obtain ⟨used, other⟩ := (uses r').mp used
  obtain ⟨h', member⟩ := covers r' used
  by_cases same : h' = h
  · subst same
    rw [has.mem_iff, List.mem_cons] at member
    exact ⟨h', mem_update.mpr (Or.inl ⟨rfl, member.resolve_left other⟩)⟩
  · exact ⟨h', mem_update.mpr (Or.inr ⟨same, member⟩)⟩

theorem Safe.lose (safe : Safe live held) {lost : List R} (has : (held h).Perm (after ++ lost)) :
    Safe live (Function.update held h after) := by
  have before : ∀ {h' r}, r ∈ Function.update held h after h' → r ∈ held h' := by
    intro h' r member
    rcases mem_update.mp member with ⟨rfl, here⟩ | ⟨-, there⟩
    · exact has.mem_iff.mpr (List.mem_append_left lost here)
    · exact there
  constructor
  · exact fun h' r member => safe.live h' r (before member)
  · intro h'
    by_cases same : h' = h
    · subst same
      rw [Function.update_self]
      exact (List.nodup_append.mp (has.nodup_iff.mp (safe.once h'))).1
    · rw [Function.update_of_ne same]
      exact safe.once h'
  · exact fun first second r isFirst isSecond =>
      safe.apart first second r (before isFirst) (before isSecond)

theorem Safe.uncovered (safe : Safe live held) {lost : List R} (has : (held h).Perm (after ++ lost))
    (some_lost : lost ≠ []) : ¬ Covers live (Function.update held h after) := by
  intro covers
  obtain ⟨r, isLost⟩ := List.exists_mem_of_ne_nil lost some_lost
  have mine : r ∈ held h := has.mem_iff.mpr (List.mem_append_right after isLost)
  obtain ⟨h', member⟩ := covers r (safe.live h r mine)
  rcases mem_update.mp member with ⟨-, kept⟩ | ⟨other, elsewhere⟩
  · have once := has.nodup_iff.mp (safe.once h)
    exact (List.nodup_append.mp once).2.2 r kept r isLost rfl
  · exact other (safe.apart h' h r elsewhere mine)

end Holdings
