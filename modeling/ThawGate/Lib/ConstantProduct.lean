import Mathlib.Algebra.Order.Ring.Nat
import Mathlib.Tactic.Ring

/-!
# Constant-product exchange

`payout x y d` is what a pool with the balances `x` and `y` pays of `y` for `d` more of `x`, rounded
down, if the product of the balances may not fall. It never empties the pool (`payout_lt`), and it is
the most that may be paid: after `r` arrived, paying `o` keeps the product exactly when `o` is at most
`payout x y r` (`product_le_iff`). So an output priced on `d` is covered when `r ≥ d` arrives
(`payout_mono`), and what was paid does not buy more than `r` back (`payout_back_le`).
-/

namespace ConstantProduct

variable {x y d r o : Nat}

def payout (x y d : Nat) : Nat := y * d / (x + d)

theorem le_payout_iff (hx : 0 < x) : o ≤ payout x y d ↔ o * (x + d) ≤ y * d :=
  Nat.le_div_iff_mul_le (Nat.add_pos_left hx d)

theorem payout_lt (hx : 0 < x) (hy : 0 < y) : payout x y d < y := by
  refine (Nat.div_lt_iff_lt_mul (Nat.add_pos_left hx d)).2 ?_
  exact Nat.mul_lt_mul_of_pos_left (Nat.lt_add_of_pos_left hx) hy

theorem payout_mono (hx : 0 < x) (h : d ≤ r) : payout x y d ≤ payout x y r := by
  have hd : payout x y d * (x + d) ≤ y * d := (le_payout_iff hx).1 le_rfl
  have hy : payout x y d ≤ y := by
    refine Nat.div_le_of_le_mul ?_
    rw [Nat.mul_comm]
    exact Nat.mul_le_mul_right y (Nat.le_add_left d x)
  obtain ⟨e, rfl⟩ := Nat.exists_eq_add_of_le h
  rw [le_payout_iff hx]
  -- what is paid grows by at most `y` for each unit that arrives on top
  calc payout x y d * (x + (d + e)) = payout x y d * (x + d) + payout x y d * e := by ring
    _ ≤ y * d + y * e := Nat.add_le_add hd (Nat.mul_le_mul_right e hy)
    _ = y * (d + e) := by ring

/-- **The product after `r` arrived and `o` was paid.** -/
theorem product_le_iff (hx : 0 < x) (ho : o ≤ y) : x * y ≤ (x + r) * (y - o) ↔ o ≤ payout x y r := by
  obtain ⟨z, rfl⟩ := Nat.exists_eq_add_of_le ho
  rw [le_payout_iff hx, Nat.add_sub_cancel_left]
  constructor
  · intro h
    calc o * (x + r) = x * o + o * r := by ring
      _ ≤ z * r + o * r := by
        refine Nat.add_le_add_right ?_ _
        have hexpand : x * (o + z) ≤ x * z + z * r := by
          calc x * (o + z) ≤ (x + r) * z := h
            _ = x * z + z * r := by ring
        rw [Nat.mul_add, Nat.add_comm] at hexpand
        exact Nat.le_of_add_le_add_left hexpand
      _ = (o + z) * r := by ring
  · intro h
    have hsplit : x * o ≤ z * r := by
      have hexpand : o * r + x * o ≤ o * r + z * r := by
        calc o * r + x * o = o * (x + r) := by ring
          _ ≤ (o + z) * r := h
          _ = o * r + z * r := by ring
      exact Nat.le_of_add_le_add_left hexpand
    calc x * (o + z) = x * o + x * z := by ring
      _ ≤ z * r + x * z := Nat.add_le_add_right hsplit _
      _ = (x + r) * z := by ring

/-- **No profit in a round trip.** The product did not fall on the way out, so on the way back what was paid buys at
most what had arrived. -/
theorem payout_back_le (hx : 0 < x) (hy : 0 < y) (ho : o ≤ payout x y r) (hd : d ≤ o) :
    payout (y - o) (x + r) d ≤ r := by
  have hlt : o < y := ho.trans_lt (payout_lt hx hy)
  have hleft : 0 < y - o := Nat.sub_pos_of_lt hlt
  have hback : payout (y - o) (x + r) o < x + r := payout_lt hleft (Nat.add_pos_left hx r)
  have hout : x * y ≤ (x + r) * (y - o) := (product_le_iff hx hlt.le).2 ho
  have hin : (y - o) * (x + r) ≤ (y - o + o) * (x + r - payout (y - o) (x + r) o) :=
    (product_le_iff hleft hback.le).2 le_rfl
  have hkept : x ≤ x + r - payout (y - o) (x + r) o := by
    refine Nat.le_of_mul_le_mul_right ?_ hy
    calc x * y ≤ (y - o) * (x + r) := by rwa [Nat.mul_comm (y - o)]
      _ ≤ (x + r - payout (y - o) (x + r) o) * y := by rwa [Nat.sub_add_cancel hlt.le, Nat.mul_comm y] at hin
  calc payout (y - o) (x + r) d ≤ payout (y - o) (x + r) o := payout_mono hleft hd
    _ ≤ r := by omega

end ConstantProduct
