import Mathlib.Data.List.Basic

/-! Text as bytes: decimal numbers, and text cut at its first separator. -/

set_option autoImplicit false

namespace Text

abbrev Bytes := List UInt8

def ascii (text : String) : Bytes := text.toList.map fun c => UInt8.ofNat c.toNat

/-! ## Decimal numbers -/

def isDigit (byte : UInt8) : Bool := 48 ≤ byte.toNat && byte.toNat ≤ 57

def number (digits : Bytes) : Nat := digits.foldl (fun n byte => 10 * n + (byte.toNat - 48)) 0

def decimal (n : Nat) : Bytes := (Nat.toDigits 10 n).map fun c => UInt8.ofNat c.toNat

theorem decimal_ne_nil (n : Nat) : decimal n ≠ [] := by
  simp [decimal, Nat.toDigits_ne_nil]

theorem toNat_of_isDigit {c : Char} (digit : c.isDigit = true) :
    (UInt8.ofNat c.toNat).toNat = c.toNat ∧ 48 ≤ c.toNat ∧ c.toNat ≤ 57 := by
  simp only [Char.isDigit, Bool.and_eq_true, decide_eq_true_eq] at digit
  have least : 48 ≤ c.toNat := digit.1
  have greatest : c.toNat ≤ 57 := digit.2
  refine ⟨?_, least, greatest⟩
  rw [UInt8.toNat_ofNat']
  exact Nat.mod_eq_of_lt (by omega)

theorem isDigit_decimal {n : Nat} {byte : UInt8} (member : byte ∈ decimal n) :
    isDigit byte = true := by
  obtain ⟨c, digits, rfl⟩ := List.mem_map.mp member
  obtain ⟨same, least, greatest⟩ :=
    toNat_of_isDigit (Nat.isDigit_of_mem_toDigits (by decide) (by decide) digits)
  simp [isDigit, same, least, greatest]

theorem number_decimal (n : Nat) : number (decimal n) = n := by
  have bytes : ∀ (digits : List Char) (start : Nat), (∀ c ∈ digits, c.isDigit = true) →
      (digits.map fun c => UInt8.ofNat c.toNat).foldl
        (fun n byte => 10 * n + (byte.toNat - 48)) start = Nat.ofDigitChars 10 digits start := by
    intro digits
    induction digits with
    | nil => intro start _; rfl
    | cons c digits ih =>
      intro start all
      rw [List.map_cons, List.foldl_cons, (toNat_of_isDigit (all c List.mem_cons_self)).1,
        Nat.ofDigitChars_cons]
      exact ih _ fun c member => all c (List.mem_cons_of_mem _ member)
  rw [number, decimal, bytes _ _ fun c member =>
    Nat.isDigit_of_mem_toDigits (by decide) (by decide) member]
  exact Nat.ofDigitChars_ten_toDigits

/-! ## Separators -/

def cut (separator : UInt8) : Bytes → Option (Bytes × Bytes)
  | [] => none
  | byte :: rest =>
    if byte = separator then some ([], rest)
    else (cut separator rest).map fun parts => (byte :: parts.1, parts.2)

theorem cut_append {separator : UInt8} {before : Bytes} (clean : separator ∉ before)
    (after : Bytes) : cut separator (before ++ separator :: after) = some (before, after) := by
  induction before with
  | nil => simp [cut]
  | cons byte before ih =>
    have other : byte ≠ separator := fun same => clean (same ▸ List.mem_cons_self)
    rw [List.cons_append, cut, if_neg other, ih fun member => clean (List.mem_cons_of_mem _ member)]
    rfl

theorem cut_eq_none {separator : UInt8} {text : Bytes} : cut separator text = none ↔
    separator ∉ text := by
  induction text with
  | nil => simp [cut]
  | cons byte rest ih =>
    rw [cut]
    split
    · rename_i same
      simp [same]
    · rename_i other
      rw [Option.map_eq_none_iff, ih, List.mem_cons]
      simp [Ne.symm other]

/-! ## Pieces that follow each other -/

def many {α : Type} (decode : Bytes → Option (α × Bytes)) : Nat → Bytes → Option (List α)
  | _, [] => some []
  | 0, _ :: _ => none
  | fuel + 1, byte :: rest =>
    match decode (byte :: rest) with
    | none => none
    | some (piece, rest) => (many decode fuel rest).map (piece :: ·)

/-- A decoder that takes a piece off whatever follows it gets back a list of them. -/
theorem many_flatMap {α β : Type} {decode : Bytes → Option (β × Bytes)} {encode : α → Bytes}
    {meaning : α → β} (inverts : ∀ piece rest,
      decode (encode piece ++ rest) = some (meaning piece, rest))
    (something : ∀ piece, encode piece ≠ []) (pieces : List α) {fuel : Nat}
    (enough : pieces.length ≤ fuel) :
    many decode fuel (pieces.flatMap encode) = some (pieces.map meaning) := by
  induction pieces generalizing fuel with
  | nil => cases fuel <;> rfl
  | cons piece pieces ih =>
    obtain ⟨fuel, rfl⟩ := Nat.exists_eq_add_of_le' (Nat.le_trans (Nat.succ_pos _) enough)
    obtain ⟨byte, bytes, starts⟩ := List.exists_cons_of_ne_nil (something piece)
    have first := inverts piece (pieces.flatMap encode)
    rw [starts, List.cons_append] at first
    rw [List.flatMap_cons, starts, List.cons_append, many, first]
    simp only [ih (Nat.le_of_succ_le_succ enough), Option.map_some, List.map_cons]

theorem length_le_flatMap {α : Type} {encode : α → Bytes} (something : ∀ piece, encode piece ≠ [])
    (pieces : List α) : pieces.length ≤ (pieces.flatMap encode).length := by
  induction pieces with
  | nil => exact Nat.zero_le _
  | cons piece pieces ih =>
    have first := List.length_pos_iff.mpr (something piece)
    rw [List.flatMap_cons, List.length_append, List.length_cons]
    omega

end Text
