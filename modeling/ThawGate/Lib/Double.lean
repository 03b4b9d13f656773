import Mathlib.Algebra.Order.Group.Int
import Mathlib.Data.Int.Order.Basic
import Mathlib.Tactic.Ring
import Mathlib.Tactic.Linarith

/-!
# Integers as doubles

A double has 53 significant bits. `ofInt` takes an integer to the nearest one, ties to the even
significand; the result is an integer again. It is exact on the integers that are doubles (`Exact`), and
no double is nearer (`ofInt_nearest`). The exponent's range is left out, which an integer below `2 ^ 1023`
does not reach.
-/

namespace Double

/-- The integers with a significand of 53 bits. -/
def Exact (n : ℤ) : Prop := ∃ m : ℤ, ∃ e : ℕ, m.natAbs < 2 ^ 53 ∧ n = m * 2 ^ e

/-- The place of the last significant bit. -/
def ulp (n : ℕ) : ℕ := 2 ^ (n.log2 - 52)

def roundNat (n : ℕ) : ℕ :=
  if 2 * (n % ulp n) < ulp n ∨ (2 * (n % ulp n) = ulp n ∧ n / ulp n % 2 = 0) then n / ulp n * ulp n
  else (n / ulp n + 1) * ulp n

def ofInt (n : ℤ) : ℤ := n.sign * roundNat n.natAbs

theorem ulp_pos (n : ℕ) : 0 < ulp n := Nat.two_pow_pos _

/-- The rounded number, by what is left of the last place. -/
theorem roundNat_cases (n : ℕ) :
    (2 * (n % ulp n) ≤ ulp n ∧ roundNat n + n % ulp n = n) ∨
      (ulp n ≤ 2 * (n % ulp n) ∧ roundNat n + n % ulp n = n + ulp n) := by
  have hdiv := Nat.div_add_mod' n (ulp n)
  by_cases h : 2 * (n % ulp n) < ulp n ∨ (2 * (n % ulp n) = ulp n ∧ n / ulp n % 2 = 0)
  · refine .inl ⟨by omega, ?_⟩
    rw [roundNat, if_pos h, hdiv]
  · refine .inr ⟨by omega, ?_⟩
    rw [roundNat, if_neg h, Nat.add_mul, Nat.one_mul]
    omega

theorem roundNat_eq_iff {n : ℕ} : roundNat n = n ↔ ulp n ∣ n := by
  rw [Nat.dvd_iff_mod_eq_zero]
  have hlt := Nat.mod_lt n (ulp_pos n)
  rcases roundNat_cases n with ⟨-, h⟩ | ⟨hge, h⟩ <;> omega

/-! ### Doubles among the naturals -/

theorem ulp_dvd_of_lt {n m e : ℕ} (hm : m < 2 ^ 53) (hle : 2 ^ n.log2 ≤ m * 2 ^ e) : ulp n ∣ m * 2 ^ e := by
  have hlt : 2 ^ n.log2 < 2 ^ (53 + e) := by
    calc 2 ^ n.log2 ≤ m * 2 ^ e := hle
      _ < 2 ^ 53 * 2 ^ e := Nat.mul_lt_mul_of_pos_right hm (Nat.two_pow_pos e)
      _ = 2 ^ (53 + e) := (pow_add 2 53 e).symm
  have hlog := (Nat.pow_lt_pow_iff_right (by norm_num)).1 hlt
  have hulp : ulp n ∣ 2 ^ e := Nat.pow_dvd_pow 2 (by omega)
  exact hulp.trans (Nat.dvd_mul_left _ _)

theorem ulp_dvd_iff {n : ℕ} : ulp n ∣ n ↔ ∃ m e, m < 2 ^ 53 ∧ n = m * 2 ^ e := by
  constructor
  · rintro ⟨m, hm⟩
    refine ⟨m, n.log2 - 52, ?_, by rw [Nat.mul_comm, ← ulp]; exact hm⟩
    have hn : n < 2 ^ (n.log2 + 1) := Nat.lt_log2_self
    have hpow : 2 ^ (n.log2 + 1) ≤ 2 ^ 53 * ulp n := by
      rw [ulp, ← pow_add]
      exact Nat.pow_le_pow_right (by norm_num) (by omega)
    refine Nat.lt_of_mul_lt_mul_left (a := ulp n) ?_
    calc ulp n * m = n := hm.symm
      _ < 2 ^ 53 * ulp n := hn.trans_le hpow
      _ = ulp n * 2 ^ 53 := Nat.mul_comm _ _
  · rintro ⟨m, e, hm, hn⟩
    rcases Nat.eq_zero_or_pos n with rfl | hpos
    · exact Nat.dvd_zero _
    · rw [hn]
      conv_lhs => rw [← hn]
      exact ulp_dvd_of_lt hm (hn ▸ Nat.log2_self_le hpos.ne')

/-- No double lies nearer to `n`: one with `n`'s last place is a multiple of it, and any other is below. -/
theorem roundNat_nearest {n m e : ℕ} (hm : m < 2 ^ 53) :
    ((roundNat n : ℤ) - n).natAbs ≤ ((m * 2 ^ e : ℕ) - n : ℤ).natAbs := by
  have hdiv := Nat.div_add_mod' n (ulp n)
  have hlt := Nat.mod_lt n (ulp_pos n)
  by_cases hle : 2 ^ n.log2 ≤ m * 2 ^ e
  · obtain ⟨k, hk⟩ := ulp_dvd_of_lt hm hle
    rw [hk]
    rcases Nat.lt_or_ge (n / ulp n) k with hup | hdown
    · have hmul : (n / ulp n + 1) * ulp n ≤ ulp n * k := by
        rw [Nat.mul_comm (ulp n)]
        exact Nat.mul_le_mul_right _ hup
      rw [Nat.add_mul, Nat.one_mul] at hmul
      rcases roundNat_cases n with ⟨hr, h⟩ | ⟨hr, h⟩ <;> omega
    · have hmul : ulp n * k ≤ n / ulp n * ulp n := by
        rw [Nat.mul_comm (ulp n)]
        exact Nat.mul_le_mul_right _ hdown
      rcases roundNat_cases n with ⟨hr, h⟩ | ⟨hr, h⟩ <;> omega
  · -- below `n`'s leading bit, and so below the multiple of the last place under `n`
    have hbelow : m * 2 ^ e ≤ n / ulp n * ulp n := by
      rcases Nat.eq_zero_or_pos n with rfl | hpos
      · simp at hle
        simp [hle]
      · have hlead : ulp n ∣ 2 ^ n.log2 := Nat.pow_dvd_pow 2 (Nat.sub_le _ _)
        have hn : 2 ^ n.log2 ≤ n := Nat.log2_self_le hpos.ne'
        obtain ⟨k, hk⟩ := hlead
        have hkn : k ≤ n / ulp n := (Nat.le_div_iff_mul_le (ulp_pos n)).2 (by rw [Nat.mul_comm, ← hk]; exact hn)
        have hmul := Nat.mul_le_mul_right (ulp n) hkn
        rw [Nat.mul_comm k, ← hk] at hmul
        omega
    rcases roundNat_cases n with ⟨hr, h⟩ | ⟨hr, h⟩ <;> omega

/-! ### Integers -/

theorem natAbs_mul_two_pow (m : ℤ) (e : ℕ) : (m * 2 ^ e).natAbs = m.natAbs * 2 ^ e := by
  rw [Int.natAbs_mul, Int.natAbs_pow]
  rfl

theorem exact_iff_dvd {n : ℤ} : Exact n ↔ ulp n.natAbs ∣ n.natAbs := by
  rw [ulp_dvd_iff]
  constructor
  · rintro ⟨m, e, hm, rfl⟩
    exact ⟨m.natAbs, e, hm, natAbs_mul_two_pow m e⟩
  · rintro ⟨m, e, hm, hn⟩
    rcases Int.natAbs_eq n with h | h
    · exact ⟨m, e, hm, by rw [h, hn]; push_cast; rfl⟩
    · exact ⟨-m, e, by simpa using hm, by rw [h, hn]; push_cast; ring⟩

theorem exact_of_le {n : ℤ} (h : n.natAbs ≤ 2 ^ 53) : Exact n := by
  rcases h.lt_or_eq with hlt | heq
  · exact ⟨n, 0, hlt, by ring⟩
  · rcases Int.natAbs_eq n with hn | hn
    · exact ⟨1, 53, by norm_num, by rw [hn, heq]; norm_num⟩
    · exact ⟨-1, 53, by norm_num, by rw [hn, heq]; norm_num⟩

theorem ofInt_of_nonneg {n : ℤ} (h : 0 ≤ n) : ofInt n = roundNat n.natAbs := by
  rcases h.lt_or_eq with hpos | rfl
  · rw [ofInt, Int.sign_eq_one_of_pos hpos, one_mul]
  · rfl

theorem ofInt_neg (n : ℤ) : ofInt (-n) = -ofInt n := by
  rw [ofInt, ofInt, Int.sign_neg, Int.natAbs_neg, neg_mul]

theorem ofInt_eq_iff {n : ℤ} : ofInt n = n ↔ Exact n := by
  have habs : ofInt n = n ↔ roundNat n.natAbs = n.natAbs := by
    rcases le_total 0 n with hn | hn
    · rw [ofInt_of_nonneg hn]
      omega
    · have hneg := ofInt_of_nonneg (neg_nonneg.2 hn)
      rw [ofInt_neg, Int.natAbs_neg] at hneg
      omega
  rw [habs, roundNat_eq_iff, exact_iff_dvd]

theorem ofInt_nearest (n : ℤ) {d : ℤ} (hd : Exact d) : (ofInt n - n).natAbs ≤ (d - n).natAbs := by
  obtain ⟨m, e, hm, hdm⟩ := hd
  have hdabs : d.natAbs = m.natAbs * 2 ^ e := hdm ▸ natAbs_mul_two_pow m e
  have hnear := roundNat_nearest (n := n.natAbs) (e := e) hm
  have hzero := roundNat_nearest (n := n.natAbs) (m := 0) (e := 0) (by norm_num)
  rw [← hdabs] at hnear
  rw [Nat.zero_mul] at hzero
  rcases le_total 0 n with hn | hn
  · rw [ofInt_of_nonneg hn]
    omega
  · have hneg := ofInt_of_nonneg (neg_nonneg.2 hn)
    rw [ofInt_neg, Int.natAbs_neg] at hneg
    omega

end Double
