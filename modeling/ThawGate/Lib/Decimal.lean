import Mathlib.Algebra.Field.Rat
import Mathlib.Data.List.DropRight
import Mathlib.Tactic.FieldSimp
import Mathlib.Tactic.Ring

/-!
# Decimal numbers

Digit texts and their values. Zeros in front do not change a value, each zero behind multiplies it by ten, and a text of
a whole and a fraction, the fraction filled up to `d` digits, is the number written times `10 ^ d`
(`value_padEnd`).
-/

namespace Decimal

variable {ds whole fraction : List Char} {d k : ℕ}

def value (ds : List Char) : ℕ := Nat.ofDigitChars 10 ds 0

theorem value_append (ds es : List Char) : value (ds ++ es) = value ds * 10 ^ es.length + value es := by
  rw [value, Nat.ofDigitChars_append, Nat.ofDigitChars_eq_ofDigitChars_zero, Nat.mul_comm]
  rfl

theorem value_zeros : value (List.replicate k '0') = 0 := by
  rw [value, Nat.ofDigitChars_replicate_zero, Nat.mul_zero]

theorem value_toDigits (n : ℕ) : value (Nat.toDigits 10 n) = n := Nat.ofDigitChars_ten_toDigits

/-! ### Filling up -/

def padStart (d : ℕ) (ds : List Char) : List Char := List.replicate (d - ds.length) '0' ++ ds

def padEnd (d : ℕ) (ds : List Char) : List Char := ds ++ List.replicate (d - ds.length) '0'

theorem value_padStart : value (padStart d ds) = value ds := by
  rw [padStart, value_append, value_zeros, Nat.zero_mul, Nat.zero_add]

theorem value_padEnd_eq : value (padEnd d ds) = value ds * 10 ^ (d - ds.length) := by
  rw [padEnd, value_append, value_zeros, List.length_replicate, Nat.add_zero]

theorem length_padStart (h : ds.length ≤ d) : (padStart d ds).length = d := by
  rw [padStart, List.length_append, List.length_replicate]
  omega

/-- Without the zeros at the end. -/
def trimEnd (ds : List Char) : List Char := ds.rdropWhile (· == '0')

theorem trimEnd_initial (ds : List Char) : trimEnd ds <+: ds := List.rdropWhile_prefix _ ds

theorem trimEnd_concat (ds : List Char) (c : Char) :
    trimEnd (ds ++ [c]) = if c = '0' then trimEnd ds else ds ++ [c] := by
  simp [trimEnd, List.rdropWhile_concat]

theorem trimEnd_append (ds : List Char) : ∃ k, ds = trimEnd ds ++ List.replicate k '0' := by
  induction ds using List.reverseRecOn with
  | nil => exact ⟨0, rfl⟩
  | append_singleton ds c ih =>
    by_cases hc : c = '0'
    · obtain ⟨k, hk⟩ := ih
      refine ⟨k + 1, ?_⟩
      rw [trimEnd_concat, if_pos hc, List.replicate_succ', ← List.append_assoc, ← hk, hc]
    · refine ⟨0, ?_⟩
      rw [trimEnd_concat, if_neg hc, List.replicate_zero, List.append_nil]

/-- Filled up again, a trimmed text is itself. -/
theorem padEnd_trimEnd (h : ds.length = d) : padEnd d (trimEnd ds) = ds := by
  obtain ⟨k, hk⟩ := trimEnd_append ds
  have hlength : (trimEnd ds).length + k = d := by
    rw [← h, ← List.length_replicate (n := k) (a := '0'), ← List.length_append, ← hk]
  rw [padEnd, ← hlength, Nat.add_sub_cancel_left, ← hk]

/-! ### Numbers with a fraction -/

/-- The number `whole.fraction`. -/
def number (whole fraction : List Char) : ℚ := value whole + value fraction / 10 ^ fraction.length

theorem value_padEnd (h : fraction.length ≤ d) :
    ((value whole * 10 ^ d + value (padEnd d fraction) : ℕ) : ℚ) = number whole fraction * 10 ^ d := by
  obtain ⟨k, rfl⟩ := Nat.exists_eq_add_of_le h
  rw [value_padEnd_eq, Nat.add_sub_cancel_left, number]
  push_cast
  field_simp
  ring

/-! ### Thousands separators -/

/-- A comma in front of every three digits that others precede. -/
def grouped : List Char → List Char
  | [] => []
  | c :: rest => if rest ≠ [] ∧ rest.length % 3 = 0 then c :: ',' :: grouped rest else c :: grouped rest

theorem filter_grouped {p : Char → Bool} (hcomma : p ',' = false) (hds : ∀ c ∈ ds, p c = true) :
    (grouped ds).filter p = ds := by
  induction ds with
  | nil => rfl
  | cons c rest ih =>
    have hc := hds c List.mem_cons_self
    have hrest := ih fun c' hc' => hds c' (List.mem_cons_of_mem _ hc')
    rw [grouped]
    split_ifs
    · rw [List.filter_cons_of_pos hc, List.filter_cons_of_neg (by rw [hcomma]; exact Bool.false_ne_true), hrest]
    · rw [List.filter_cons_of_pos hc, hrest]

end Decimal
