import Mathlib.Logic.Function.Basic

/-! Tables: functions into `Option`, of which one entry is replaced.
-/

set_option autoImplicit false

namespace Table

variable {α β : Type} [DecidableEq α] {table : α → Option β} {key other : α} {value : β}

theorem enter_eq_some {new : β} : Function.update table key (some new) other = some value ↔
    other = key ∧ new = value ∨ other ≠ key ∧ table other = some value := by
  by_cases same : other = key
  · simp [same]
  · simp [same]

theorem clear_eq_some : Function.update table key none other = some value ↔
    other ≠ key ∧ table other = some value := by
  by_cases same : other = key
  · simp [same]
  · simp [same]

/-- An entry that differs from the one that is replaced is kept. -/
theorem update_of_entry {new : Option β} (entry : table other = some value)
    (differs : table key ≠ some value) : Function.update table key new other = some value := by
  rw [Function.update_of_ne, entry]
  intro same
  exact differs (same ▸ entry)

theorem entry_of_update {new : Option β} (entry : Function.update table key new other = some value)
    (differs : new ≠ some value) : other ≠ key ∧ table other = some value := by
  by_cases same : other = key
  · rw [same, Function.update_self] at entry
    exact absurd entry differs
  · rw [Function.update_of_ne same] at entry
    exact ⟨same, entry⟩

theorem update_eq_none {new : β} :
    Function.update table key (some new) other = none ↔ other ≠ key ∧ table other = none := by
  by_cases same : other = key
  · simp [same]
  · simp [same]

end Table
