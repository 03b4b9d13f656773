import Mathlib.Algebra.BigOperators.Group.Finset.Piecewise
import Mathlib.Algebra.Order.BigOperators.Group.Finset

/-!
# Balances within a total

`f` gives every account its balance, and `Within f n` says that no set of accounts holds more than
`n` together. A credit raises the total by what it adds to an account, a debit lowers it, and a move
between two accounts, even from one to itself, keeps it.
-/

namespace Balance

variable {κ : Type} [DecidableEq κ] {f f' : κ → ℕ} {n d : ℕ} {i j : κ}

def Within (f : κ → ℕ) (n : ℕ) : Prop := ∀ T : Finset κ, ∑ x ∈ T, f x ≤ n

/-- What a set of accounts holds after `d` went from `i` to `j`. -/
theorem sum_move (hf : ∀ x, f' x + (if x = i then d else 0) = f x + if x = j then d else 0) (T : Finset κ) :
    ∑ x ∈ T, f' x + (if i ∈ T then d else 0) = ∑ x ∈ T, f x + if j ∈ T then d else 0 := by
  have hsum : ∑ x ∈ T, (f' x + if x = i then d else 0) = ∑ x ∈ T, (f x + if x = j then d else 0) :=
    Finset.sum_congr rfl fun x _ => hf x
  simpa only [Finset.sum_add_distrib, Finset.sum_ite_eq'] using hsum

theorem sum_credit (hf : ∀ x, f' x = f x + if x = j then d else 0) (T : Finset κ) :
    ∑ x ∈ T, f' x = ∑ x ∈ T, f x + if j ∈ T then d else 0 := by
  have hsum : ∑ x ∈ T, f' x = ∑ x ∈ T, (f x + if x = j then d else 0) := Finset.sum_congr rfl fun x _ => hf x
  simpa only [Finset.sum_add_distrib, Finset.sum_ite_eq'] using hsum

theorem sum_debit (hf : ∀ x, f' x + (if x = i then d else 0) = f x) (T : Finset κ) :
    ∑ x ∈ T, f' x + (if i ∈ T then d else 0) = ∑ x ∈ T, f x := by
  have hsum : ∑ x ∈ T, (f' x + if x = i then d else 0) = ∑ x ∈ T, f x := Finset.sum_congr rfl fun x _ => hf x
  simpa only [Finset.sum_add_distrib, Finset.sum_ite_eq'] using hsum

theorem sum_subset_le (f : κ → ℕ) (i : κ) (T : Finset κ) : ∑ x ∈ T, f x ≤ ∑ x ∈ insert i T, f x :=
  Finset.sum_le_sum_of_subset (Finset.subset_insert i T)

namespace Within

omit [DecidableEq κ] in
theorem congr (h : Within f n) (hf : ∀ x, f' x = f x) : Within f' n := by
  intro T
  rw [Finset.sum_congr rfl fun x _ => hf x]
  exact h T

theorem credit (h : Within f n) (hf : ∀ x, f' x = f x + if x = j then d else 0) : Within f' (n + d) := by
  intro T
  have hT := h T
  rw [sum_credit hf T]
  split_ifs <;> omega

theorem debit (h : Within f (n + d)) (hf : ∀ x, f' x + (if x = i then d else 0) = f x) : Within f' n := by
  intro T
  -- with the debited account the set held all of `d`
  have hT := h (insert i T)
  have hsum := sum_debit hf (insert i T)
  rw [if_pos (Finset.mem_insert_self i T)] at hsum
  have hle := sum_subset_le f' i T
  omega

theorem move (h : Within f n) (hf : ∀ x, f' x + (if x = i then d else 0) = f x + if x = j then d else 0) :
    Within f' n := by
  intro T
  have hT := h (insert i T)
  have hsum := sum_move hf (insert i T)
  rw [if_pos (Finset.mem_insert_self i T)] at hsum
  have hle := sum_subset_le f' i T
  split_ifs at hsum <;> omega

/-- An account outside a set holds at most what the set leaves. -/
theorem add_le (h : Within f n) {T : Finset κ} (hi : i ∉ T) : f i + ∑ x ∈ T, f x ≤ n := by
  rw [← Finset.sum_insert hi]
  exact h _

end Within

/-- A set grows by what `i`, outside it, sends to `j`, if `j` is counted from then on. -/
theorem sum_insert_of_move (hf : ∀ x, f' x + (if x = i then d else 0) = f x + if x = j then d else 0)
    (hd : f i = d) {T : Finset κ} (hi : i ∉ T) : ∑ x ∈ T, f x + d ≤ ∑ x ∈ insert j T, f' x := by
  have hsum := sum_move hf T
  rw [if_neg hi] at hsum
  by_cases hj : j ∈ T
  · rw [if_pos hj] at hsum
    rw [Finset.insert_eq_of_mem hj]
    omega
  · rw [if_neg hj] at hsum
    rw [Finset.sum_insert hj]
    have hfj := hf j
    rw [if_pos rfl] at hfj
    -- sent to itself, everything it held is still there
    by_cases hij : j = i
    · rw [if_pos hij, hij] at hfj
      rw [hij]
      omega
    · rw [if_neg hij] at hfj
      omega

end Balance
