import CoroEpoll.Library.Transition
import Mathlib.Algebra.BigOperators.Finprod

/-! Ranks: how many steps a system can still take without anything new.

The rank of a system is the sum of the ranks of its parts, of which there may be infinitely
many as long as only finitely many of them can go on.
-/

set_option autoImplicit false

namespace Rank

section

variable {ι : Type} [DecidableEq ι] {f : ι → Nat}

theorem hasFiniteSupport_update (finite : f.HasFiniteSupport) (i : ι) (v : Nat) :
    (Function.update f i v).HasFiniteSupport := by
  apply (Set.Finite.insert i finite).subset
  intro j nonzero
  by_cases here : j = i
  · exact .inl here
  · rw [Function.mem_support, Function.update_of_ne here] at nonzero
    exact .inr nonzero

theorem finsum_update (finite : f.HasFiniteSupport) (i : ι) (v : Nat) :
    finsum (Function.update f i v) + f i = finsum f + v := by
  let parts := insert i finite.toFinset
  have member : i ∈ parts := Finset.mem_insert_self ..
  have before : f.support ⊆ parts := by
    intro j nonzero
    exact Finset.mem_insert_of_mem (finite.mem_toFinset.mpr nonzero)
  have after : (Function.update f i v).support ⊆ parts := by
    intro j nonzero
    by_cases here : j = i
    · exact here ▸ member
    · rw [Function.mem_support, Function.update_of_ne here] at nonzero
      exact before nonzero
  rw [finsum_eq_sum_of_support_subset _ before, finsum_eq_sum_of_support_subset _ after,
    Finset.sum_update_of_mem member, Finset.sum_eq_add_sum_sdiff_singleton_of_mem member f]
  omega

theorem sum_update [Fintype ι] (f : ι → Nat) (i : ι) (v : Nat) :
    ∑ j, Function.update f i v j + f i = ∑ j, f j + v := by
  rw [← finsum_eq_sum_of_fintype, ← finsum_eq_sum_of_fintype]
  exact finsum_update (Set.toFinite _) i v

end

end Rank

namespace Transition.Machine

variable {σ α : Type} {m : Machine σ α}

/-- Where free steps raise a rank by a bounded cost and the other steps lower it, free steps pay
for the other ones. -/
theorem exec_rank {Q : σ → Prop} {rank : σ → Nat} {free : α → Bool} {cost : Nat}
    (preserves : ∀ s a t, Q s → m.step s a = some t → Q t)
    (falls : ∀ s a t, Q s → free a = false → m.step s a = some t → rank t < rank s)
    (rises : ∀ s a t, Q s → free a = true → m.step s a = some t → rank t ≤ rank s + cost)
    {s t : σ} {actions : List α} (holds : Q s) (replay : m.exec s actions = some t) :
    rank t + actions.countP (fun a => !free a) ≤ rank s + cost * actions.countP free := by
  induction actions generalizing s with
  | nil =>
    cases replay
    simp
  | cons a rest ih =>
    obtain ⟨u, step, tail⟩ := exec_cons_eq_some.mp replay
    have later := ih (preserves s a u holds step) tail
    cases isFree : free a with
    | true =>
      have risen := rises s a u holds isFree step
      simp only [List.countP_cons, isFree, Bool.not_true, Bool.false_eq_true, if_false, if_true,
        Nat.mul_add]
      omega
    | false =>
      have fallen := falls s a u holds isFree step
      simp only [List.countP_cons, isFree, Bool.not_false, Bool.false_eq_true, if_false, if_true,
        Nat.add_zero]
      omega

end Transition.Machine
