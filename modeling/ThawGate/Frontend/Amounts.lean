import ThawGate.Lib.Decimal
import ThawGate.Logs.Lines

/-!
# Amounts as text

`formatUnits` writes base units as a token amount with thousands separators, and `parseUnits` reads what a person typed.
What is formatted is read back (`parseUnits_formatUnits`), and what is read is the number that was written, to the last
digit (`parseUnits_eq_some_iff`).
-/

namespace ThawGate.Frontend

open Decimal
open Logs (Text isSpace)

/-! ### The two functions -/

/-- `formatUnits`; `toLocaleString("en-US")` groups the digits. -/
def formatUnits (raw : Int) (decimals : Nat) : Text :=
  let abs := raw.natAbs
  let base := 10 ^ decimals
  let fraction := trimEnd (padStart decimals (Nat.toDigits 10 (abs % base)))
  (if raw < 0 then ['-'] else []) ++ grouped (Nat.toDigits 10 (abs / base)) ++
    if fraction = [] then [] else '.' :: fraction

/-- `[,_\s]` -/
def isSeparator (c : Char) : Bool := c == ',' || c == '_' || isSpace c

def strip (text : Text) : Text := text.filter (!isSeparator ·)

/-- What `^(\d+)(?:\.(\d+))?$` captures, the second group as `m[2] ?? ""`. -/
def amountGroups (text : Text) : Option (Text × Text) :=
  match text.takeWhile Char.isDigit, text.dropWhile Char.isDigit with
  | [], _ => none
  | whole, [] => some (whole, [])
  | whole, '.' :: fraction => if fraction ≠ [] ∧ fraction.all Char.isDigit then some (whole, fraction) else none
  | _, _ => none

/-- `BigInt("")` is not reached, `"0"` standing for it; the value is that of no digits. -/
def parseUnits (text : Text) (decimals : Nat) : Option Nat :=
  match amountGroups (strip text) with
  | none => none
  | some (whole, fraction) =>
    if decimals < fraction.length then none
    else some (value whole * 10 ^ decimals + value (padEnd decimals fraction))

/-! ### What is read -/

/-- The text is `whole`, or `whole.fraction`. -/
structure Written (text whole fraction : Text) : Prop where
  whole_ne : whole ≠ []
  whole_digits : ∀ c ∈ whole, c.isDigit = true
  fraction_digits : ∀ c ∈ fraction, c.isDigit = true
  text_eq : text = whole ++ if fraction = [] then [] else '.' :: fraction

variable {text whole fraction : Text} {d n : Nat}

/-- The digits in front end at the end of the text or at the point. -/
theorem Written.split (h : Written text whole fraction) : text.takeWhile Char.isDigit = whole ∧
    text.dropWhile Char.isDigit = if fraction = [] then [] else '.' :: fraction := by
  rw [h.text_eq, List.takeWhile_append_of_pos h.whole_digits, List.dropWhile_append_of_pos h.whole_digits]
  split_ifs with hfraction
  · exact ⟨List.append_nil _, rfl⟩
  · rw [List.takeWhile_cons_of_neg (by decide), List.dropWhile_cons_of_neg (by decide), List.append_nil]
    exact ⟨rfl, rfl⟩

theorem amountGroups_eq_some_iff : amountGroups text = some (whole, fraction) ↔ Written text whole fraction := by
  constructor
  · intro h
    have htext : text.takeWhile Char.isDigit ++ text.dropWhile Char.isDigit = text := List.takeWhile_append_dropWhile
    have hdigits : ∀ c ∈ text.takeWhile Char.isDigit, c.isDigit = true := fun c hc => List.mem_takeWhile_imp hc
    unfold amountGroups at h
    split at h
    · contradiction
    · next _ _ hdrop hne =>
      obtain ⟨rfl, rfl⟩ := Prod.mk.inj (Option.some.inj h)
      rw [hdrop] at htext
      exact ⟨hne, hdigits, fun c hc => absurd hc List.not_mem_nil, htext.symm⟩
    · next _ _ point hdrop hne =>
      split_ifs at h with hfraction
      obtain ⟨rfl, rfl⟩ := Prod.mk.inj (Option.some.inj h)
      rw [hdrop] at htext
      refine ⟨hne, hdigits, List.all_eq_true.1 hfraction.2, ?_⟩
      rw [if_neg hfraction.1, htext]
    · contradiction
  · intro h
    obtain ⟨htake, hdrop⟩ := h.split
    unfold amountGroups
    rw [htake, hdrop]
    obtain ⟨c, rest, rfl⟩ := List.exists_cons_of_ne_nil h.whole_ne
    split_ifs with hfraction
    · rw [hfraction]
    · exact if_pos ⟨hfraction, List.all_eq_true.2 h.fraction_digits⟩

/-- **What is read is the number written**, in base units. -/
theorem parseUnits_eq_some_iff : parseUnits text d = some n ↔
    ∃ whole fraction, Written (strip text) whole fraction ∧ fraction.length ≤ d ∧
      (n : ℚ) = number whole fraction * 10 ^ d := by
  simp only [← amountGroups_eq_some_iff]
  unfold parseUnits
  cases amountGroups (strip text) with
  | none => simp
  | some groups =>
    obtain ⟨whole, fraction⟩ := groups
    simp only [Option.some.injEq, Prod.mk.injEq]
    constructor
    · intro h
      split_ifs at h with hlength
      refine ⟨whole, fraction, ⟨rfl, rfl⟩, Nat.le_of_not_lt hlength, ?_⟩
      rw [← value_padEnd (Nat.le_of_not_lt hlength), Option.some.inj h]
    · rintro ⟨_, _, ⟨rfl, rfl⟩, hlength, hn⟩
      rw [← value_padEnd hlength, Nat.cast_inj] at hn
      rw [if_neg (Nat.not_lt.2 hlength), hn]

theorem parseUnits_eq_none (h : ∀ whole fraction, Written (strip text) whole fraction → d < fraction.length) :
    parseUnits text d = none := by
  rw [Option.eq_none_iff_forall_ne_some]
  intro n hn
  obtain ⟨whole, fraction, hwritten, hlength, -⟩ := parseUnits_eq_some_iff.1 hn
  exact absurd (h whole fraction hwritten) (Nat.not_lt.2 hlength)

/-- A text is written in one way. -/
theorem Written.unique {whole' fraction' : Text} (h : Written text whole fraction) (h' : Written text whole' fraction') :
    whole' = whole ∧ fraction' = fraction := by
  have hgroups := (amountGroups_eq_some_iff.2 h').symm.trans (amountGroups_eq_some_iff.2 h)
  exact Prod.mk.inj (Option.some.inj hgroups)

theorem Written.mem (h : Written text whole fraction) {c : Char} (hc : c ∈ text) : c.isDigit = true ∨ c = '.' := by
  rw [h.text_eq, List.mem_append] at hc
  obtain hc | hc := hc
  · exact .inl (h.whole_digits c hc)
  · split_ifs at hc
    · exact absurd hc List.not_mem_nil
    · obtain rfl | hc := List.mem_cons.1 hc
      · exact .inr rfl
      · exact .inl (h.fraction_digits c hc)

/-! ### What is formatted -/

theorem isSeparator_of_isDigit {c : Char} (hc : c.isDigit = true) : isSeparator c = false := by
  have hrange : 48 ≤ c.toNat ∧ c.toNat ≤ 57 := by
    simpa [Char.isDigit, UInt32.le_iff_toNat_le] using hc
  have hcomma : c ≠ ',' := by
    rintro rfl
    exact absurd hc (by decide)
  have hunderscore : c ≠ '_' := by
    rintro rfl
    exact absurd hc (by decide)
  have hspace : isSpace c = false := by
    rw [isSpace, List.contains_eq_mem, decide_eq_false_iff_not]
    simp only [List.mem_cons, List.not_mem_nil, or_false]
    omega
  simp [isSeparator, hcomma, hunderscore, hspace]

theorem strip_of_digits {ds : Text} (h : ∀ c ∈ ds, c.isDigit = true) : strip ds = ds := by
  refine List.filter_eq_self.2 fun c hc => ?_
  rw [isSeparator_of_isDigit (h c hc)]
  rfl

theorem strip_grouped {ds : Text} (h : ∀ c ∈ ds, c.isDigit = true) : strip (grouped ds) = ds := by
  refine filter_grouped rfl fun c hc => ?_
  rw [isSeparator_of_isDigit (h c hc)]
  rfl

theorem toDigits_digits (n : Nat) : ∀ c ∈ Nat.toDigits 10 n, c.isDigit = true := fun _ hc =>
  Nat.isDigit_of_mem_toDigits (by decide) (by decide) hc

theorem fraction_digits (d n : Nat) : ∀ c ∈ trimEnd (padStart d (Nat.toDigits 10 n)), c.isDigit = true := by
  intro c hc
  have hpad : c ∈ padStart d (Nat.toDigits 10 n) := (trimEnd_initial _).subset hc
  obtain hzero | hdigit := List.mem_append.1 hpad
  · rw [List.eq_of_mem_replicate hzero]
    decide
  · exact toDigits_digits n c hdigit

/-- Without the separators, an amount is its whole and its fraction. -/
theorem formatUnits_written (v d : Nat) : Written (strip (formatUnits v d)) (Nat.toDigits 10 (v / 10 ^ d))
    (trimEnd (padStart d (Nat.toDigits 10 (v % 10 ^ d)))) := by
  refine ⟨Nat.toDigits_ne_nil, toDigits_digits _, fraction_digits d _, ?_⟩
  have hnonneg : ¬(v : Int) < 0 := Int.not_lt.2 (Int.natCast_nonneg v)
  rw [formatUnits, if_neg hnonneg, Int.natAbs_natCast, List.nil_append, strip, List.filter_append]
  congr 1
  · exact strip_grouped (toDigits_digits _)
  · split_ifs with hfraction
    · rfl
    · rw [List.filter_cons_of_pos (by decide)]
      exact congrArg _ (strip_of_digits (fraction_digits d _))

/-- The fraction, filled up again, is the rest of the base units. -/
theorem fraction_value (d n : Nat) (hn : n < 10 ^ d) :
    (trimEnd (padStart d (Nat.toDigits 10 n))).length ≤ d ∧
      value (padEnd d (trimEnd (padStart d (Nat.toDigits 10 n)))) = n := by
  obtain rfl | hd := Nat.eq_zero_or_pos d
  · obtain rfl : n = 0 := Nat.lt_one_iff.1 hn
    decide
  · have hlength : (padStart d (Nat.toDigits 10 n)).length = d :=
      length_padStart ((Nat.length_toDigits_le_iff (by decide) hd).2 hn)
    refine ⟨?_, ?_⟩
    · exact (trimEnd_initial _).length_le.trans_eq hlength
    · rw [padEnd_trimEnd hlength, value_padStart, value_toDigits]

/-- **Round trip.** -/
theorem parseUnits_formatUnits (v d : Nat) : parseUnits (formatUnits v d) d = some v := by
  obtain ⟨hlength, hvalue⟩ := fraction_value d (v % 10 ^ d) (Nat.mod_lt _ (Nat.pow_pos (by decide)))
  have hgroups := amountGroups_eq_some_iff.2 (formatUnits_written v d)
  simp only [parseUnits, hgroups, if_neg (Nat.not_lt.2 hlength), hvalue, value_toDigits]
  rw [Nat.div_add_mod']

example : formatUnits 1234500000 6 = "1,234.5".toList := by decide +kernel

/-- **Amounts as text**, for every number of decimals: what is formatted is read back; what is read is the number that
was written, scaled; and a text with more digits in its fraction, or with any character but digits, a point and
separators, is not read. -/
theorem amount_text (d : Nat) :
    (∀ v : Nat, parseUnits (formatUnits v d) d = some v) ∧
    (∀ text n, parseUnits text d = some n ↔ ∃ whole fraction, Written (strip text) whole fraction ∧
      fraction.length ≤ d ∧ (n : ℚ) = number whole fraction * 10 ^ d) ∧
    (∀ text whole fraction, Written (strip text) whole fraction → d < fraction.length → parseUnits text d = none) ∧
    ∀ text, ∀ c ∈ strip text, c.isDigit = false → c ≠ '.' → parseUnits text d = none := by
  refine ⟨fun v => parseUnits_formatUnits v d, fun _ _ => parseUnits_eq_some_iff, ?_, ?_⟩
  · intro text whole fraction h hlength
    refine parseUnits_eq_none fun whole' fraction' h' => ?_
    rwa [(h.unique h').2]
  · intro text c hc hdigit hpoint
    refine parseUnits_eq_none fun whole fraction h => ?_
    obtain hd | hd := h.mem hc
    · rw [hdigit] at hd
      contradiction
    · exact absurd hd hpoint

end ThawGate.Frontend
