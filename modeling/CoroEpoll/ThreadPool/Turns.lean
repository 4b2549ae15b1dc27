import CoroEpoll.Library.RoundRobin
import CoroEpoll.Library.Transition

/-! `WorkerGroup::next`, called by any number of threads at the same time. -/

set_option autoImplicit false

namespace CoroEpoll.WorkerGroup

open RoundRobin (place tickets)

structure Turns (κ : Type) where
  /-- `next_index_` -/
  nextIndex : BitVec 64
  /-- the calls that are between `fetch_add` and the index, with what it returned -/
  fetched : List (κ × BitVec 64)
  /-- the indices of the loops that have been returned -/
  returned : List Nat

inductive NextAct (κ : Type) where
  | fetchAdd (caller : κ)
  /-- `% loops_.size()`, and the return -/
  | index (caller : κ)

namespace Turns

variable {κ : Type} [DecidableEq κ] (size : Nat)

def inside (s : Turns κ) (caller : κ) : Option (κ × BitVec 64) :=
  s.fetched.find? fun call => call.1 == caller

def step (s : Turns κ) : NextAct κ → Option (Turns κ)
  | .fetchAdd caller =>
    match s.inside caller with
    | none => some { s with
        nextIndex := s.nextIndex + 1
        fetched := (caller, s.nextIndex) :: s.fetched }
    | some _ => none
  | .index caller =>
    match s.inside caller with
    | some call => some { s with
        fetched := s.fetched.erase call
        returned := call.2.toNat % size :: s.returned }
    | none => none

def boot (κ : Type) : Turns κ := ⟨0, [], []⟩

abbrev machine (κ : Type) [DecidableEq κ] : Transition.Machine (Turns κ) (NextAct κ) :=
  ⟨fun s => s = boot κ, step size⟩

def calls (s : Turns κ) : Nat := s.returned.length + s.fetched.length

structure Inv (s : Turns κ) : Prop where
  counter : s.nextIndex = BitVec.ofNat 64 s.calls
  drawn : (s.returned ++ s.fetched.map fun call => call.2.toNat % size).Perm
    ((List.range s.calls).map (place (2 ^ 64) size))

variable {size} {s t : Turns κ} {a : NextAct κ}

theorem Inv.step (inv : Inv size s) (step : Turns.step size s a = some t) : Inv size t := by
  cases a with
  | fetchAdd caller =>
    simp only [Turns.step] at step
    split at step
    case h_2 => cases step
    case h_1 outside =>
      cases step
      have more : ({ s with
          nextIndex := s.nextIndex + 1
          fetched := (caller, s.nextIndex) :: s.fetched } : Turns κ).calls = s.calls + 1 := rfl
      constructor
      · rw [more, BitVec.ofNat_add, ← inv.counter]
        rfl
      · rw [more, List.range_succ, List.map_append, List.map_cons]
        have ticket : s.nextIndex.toNat % size = place (2 ^ 64) size s.calls := by
          rw [inv.counter, BitVec.toNat_ofNat, place]
        rw [ticket]
        exact List.perm_middle.trans ((inv.drawn.cons _).trans (List.perm_append_singleton _ _).symm)
  | index caller =>
    simp only [Turns.step] at step
    split at step
    case h_2 => cases step
    case h_1 call inside =>
      cases step
      have member : call ∈ s.fetched := List.mem_of_find?_eq_some inside
      have same : ({ s with
          fetched := s.fetched.erase call
          returned := call.2.toNat % size :: s.returned } : Turns κ).calls = s.calls := by
        have some_fetched := List.length_pos_of_mem member
        simp only [calls, List.length_cons, List.length_erase_of_mem member]
        omega
      constructor
      · rw [same]
        exact inv.counter
      · rw [same]
        refine List.Perm.trans ?_ inv.drawn
        have goes := (List.perm_cons_erase member).map fun call => call.2.toNat % size
        exact (List.perm_middle.symm.trans (List.Perm.append_left _ goes.symm))

theorem reachable_inv (reached : (machine size κ).Reachable s) : Inv size s := by
  refine reached.invariant ?_ fun _ _ _ inv _ step => inv.step step
  rintro s rfl
  exact ⟨rfl, List.Perm.refl _⟩

omit [DecidableEq κ] in
/-- What has been returned is what the tickets drawn so far allow, less those of the calls under
way. -/
theorem Inv.count (inv : Inv size s) (i : Nat) :
    s.returned.count i ≤ tickets (2 ^ 64) size s.calls i ∧
      tickets (2 ^ 64) size s.calls i ≤ s.returned.count i + s.fetched.length := by
  have drawn := inv.drawn.count_eq i
  rw [List.count_append] at drawn
  have few : (s.fetched.map fun call => call.2.toNat % size).count i ≤ s.fetched.length := by
    refine List.count_le_length.trans ?_
    rw [List.length_map]
  rw [tickets, ← drawn]
  omega

/-- Whoever calls `next`, and however the calls overlap, no loop is returned more than once more
often than another, but for the calls under way and the laps of a counter whose values the size
does not divide. -/
theorem next_shares (reached : (machine size κ).Reachable s) {i j : Nat} (first : i < size)
    (second : j < size) :
    s.returned.count i ≤ s.returned.count j + s.fetched.length +
      (if size ∣ 2 ^ 64 then 0 else s.calls / 2 ^ 64) + 1 := by
  have inv := reachable_inv reached
  have apart := RoundRobin.tickets_apart (W := 2 ^ 64) (by decide) first second s.calls
  have low := (inv.count i).1
  have high := (inv.count j).2
  omega

def twoCallers : List (NextAct Nat) :=
  [.fetchAdd 0, .fetchAdd 1, .index 1, .fetchAdd 1, .index 1, .fetchAdd 1]

theorem next_shares_twoCallers : ∃ s, (machine 3 Nat).exec (boot Nat) twoCallers = some s ∧
    s.returned = [2, 1] ∧ s.returned.count 2 ≤ s.returned.count 0 + s.fetched.length +
      (if 3 ∣ 2 ^ 64 then 0 else s.calls / 2 ^ 64) + 1 := by
  have run : ((machine 3 Nat).exec (boot Nat) twoCallers).map (·.returned) = some [2, 1] := by decide
  obtain ⟨s, replay, returned⟩ := Option.map_eq_some_iff.mp run
  exact ⟨s, replay, returned, next_shares
    (Transition.Machine.ReachableWhere.replay (.start rfl) replay) (by decide) (by decide)⟩

theorem one_each (reached : (machine size κ).Reachable s) (idle : s.fetched = [])
    (calls : s.returned.length = size) (values : size ≤ 2 ^ 64) :
    s.returned.Perm (List.range size) := by
  have drawn := (reachable_inv reached).drawn
  have all : s.calls = size := by rw [Turns.calls, idle, calls, List.length_nil, Nat.add_zero]
  rw [idle, List.map_nil, List.append_nil, all] at drawn
  refine drawn.trans (.of_eq ?_)
  calc (List.range size).map (place (2 ^ 64) size)
      = (List.range size).map id := by
        apply List.map_congr_left
        intro k member
        have below : k < size := List.mem_range.mp member
        rw [place, Nat.mod_eq_of_lt (Nat.lt_of_lt_of_le below values), Nat.mod_eq_of_lt below, id]
    _ = List.range size := List.map_id _

end Turns

end CoroEpoll.WorkerGroup
