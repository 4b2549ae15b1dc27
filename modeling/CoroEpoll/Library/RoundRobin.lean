import Mathlib.Data.Int.CardIntervalMod

/-! Tickets handed out in turn, by a counter of `W` values, to `n` places.

The counter starts again from zero when it has been through its values, wherever the turn
then is.
-/

set_option autoImplicit false

namespace RoundRobin

variable (W n : Nat)

def place (k : Nat) : Nat := k % W % n

/-- How many of the first `m` tickets are for the place `i`. -/
def tickets (m i : Nat) : Nat := ((List.range m).map (place W n)).count i

variable {W n} {m i j : Nat}

theorem tickets_of_le (within : m ≤ W) (below : i < n) :
    tickets W n m i = m / n + if i < m % n then 1 else 0 := by
  have in_turn : tickets W n m i = Nat.count (· ≡ i [MOD n]) m := by
    rw [tickets, List.count, List.countP_map, Nat.count]
    apply List.countP_congr
    intro k member
    have small : k < W := Nat.lt_of_lt_of_le (List.mem_range.mp member) within
    simp [place, Nat.mod_eq_of_lt small, Nat.ModEq, Nat.mod_eq_of_lt below]
  rw [in_turn, Nat.count_modEq_card m (Nat.zero_lt_of_lt below), Nat.mod_eq_of_lt below]

theorem tickets_wrap (m i : Nat) : tickets W n (W + m) i = tickets W n W i + tickets W n m i := by
  rw [tickets, List.range_add, List.map_append, List.count_append, List.map_map]
  congr 2
  apply List.map_congr_left
  intro k _
  simp [place]

theorem tickets_laps (laps m i : Nat) :
    tickets W n (laps * W + m) i = laps * tickets W n W i + tickets W n m i := by
  induction laps with
  | zero => simp
  | succ laps ih =>
    have first : (laps + 1) * W + m = W + (laps * W + m) := by ring
    rw [first, tickets_wrap, ih]
    ring

theorem tickets_eq (values : 0 < W) (below : i < n) (m : Nat) :
    tickets W n m i = m / W * (W / n + if i < W % n then 1 else 0) +
      (m % W / n + if i < m % W % n then 1 else 0) := by
  have parts : m / W * W + m % W = m := Nat.div_add_mod' m W
  calc tickets W n m i
      = tickets W n (m / W * W + m % W) i := by rw [parts]
    _ = m / W * tickets W n W i + tickets W n (m % W) i := tickets_laps ..
    _ = _ := by
      rw [tickets_of_le (Nat.le_refl W) below, tickets_of_le (Nat.le_of_lt (Nat.mod_lt m values)) below]

/-- The places differ by a ticket, and by one for each lap of a counter that cuts a turn short. -/
theorem tickets_apart (values : 0 < W) (first : i < n) (second : j < n) (m : Nat) :
    tickets W n m i ≤ tickets W n m j + (if n ∣ W then 0 else m / W) + 1 := by
  rw [tickets_eq values first, tickets_eq values second]
  have last : (if i < m % W % n then 1 else 0) ≤ (if j < m % W % n then 1 else 0) + 1 := by
    split <;> omega
  by_cases divides : n ∣ W
  · rw [if_pos divides, Nat.mod_eq_zero_of_dvd divides, if_neg (Nat.not_lt_zero i),
      if_neg (Nat.not_lt_zero j)]
    omega
  · rw [if_neg divides]
    have lap : (if i < W % n then 1 else 0) ≤ (if j < W % n then 1 else 0) + 1 := by split <;> omega
    have laps : m / W * (W / n + if i < W % n then 1 else 0) ≤
        m / W * (W / n + if j < W % n then 1 else 0) + m / W := by
      rw [← Nat.mul_succ]
      exact Nat.mul_le_mul_left _ (by omega)
    omega

end RoundRobin
