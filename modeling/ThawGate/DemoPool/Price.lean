import ThawGate.DemoPool.Product
import Mathlib.Data.UInt

/-!
# The price of a swap

Between balances of a `u64` and with a fee that `init_pool` accepts, `amount_out` computes the payout of what the
fee leaves of the input, without a panic (`amountOut_eq`). What it promises a trader and the pool is read off the
payout: more input or a lower fee never pays less, and the output sold straight back never returns more than was
sold.
-/

namespace ThawGate.DemoPool

open ConstantProduct Exec

variable {reserveIn reserveOut amountIn amountIn' out : UInt64} {feeBps feeBps' : UInt16}

/-! ### What the fee leaves -/

theorem afterFee_mono (h : amountIn ≤ amountIn') : afterFee amountIn feeBps ≤ afterFee amountIn' feeBps :=
  Nat.div_le_div_right (Nat.mul_le_mul_right _ (UInt64.le_iff_toNat_le.1 h))

theorem afterFee_antitone (h : feeBps' ≤ feeBps) : afterFee amountIn feeBps ≤ afterFee amountIn feeBps' := by
  have hrate : bps - feeBps.toNat ≤ bps - feeBps'.toNat := Nat.sub_le_sub_left (UInt16.le_iff_toNat_le.1 h) bps
  exact Nat.div_le_div_right (Nat.mul_le_mul_left _ hrate)

/-! ### The price -/

theorem amountOut_empty (h : ¬(0 < reserveIn ∧ 0 < reserveOut)) :
    amountOut reserveIn reserveOut amountIn feeBps = err (.pool .emptyPool) := by
  rw [amountOut, require_neg h, bind_err]

/-- No intermediate result leaves `u128`. -/
theorem amountOut_eq (hfee : feeBps ≤ maxFeeBps) (hin : 0 < reserveIn) (hout : 0 < reserveOut) :
    amountOut reserveIn reserveOut amountIn feeBps = (do
      let out := UInt64.ofNat (payout reserveIn.toNat reserveOut.toNat (afterFee amountIn feeBps))
      require (0 < out) (.pool .zeroAmount)
      pure out) := by
  have hbps : feeBps.toNat ≤ bps := (UInt16.le_iff_toNat_le.1 hfee).trans (by decide)
  have hx := reserveIn.toNat_lt
  have hy := reserveOut.toNat_lt
  have ha := amountIn.toNat_lt
  have hd := (afterFee_le amountIn feeBps).trans_lt ha
  have hscaled : amountIn.toNat * (bps - feeBps.toNat) < 2 ^ 128 := by
    calc amountIn.toNat * (bps - feeBps.toNat) ≤ 2 ^ 64 * bps := Nat.mul_le_mul ha.le (Nat.sub_le ..)
      _ < 2 ^ 128 := by decide
  have hnumerator : reserveOut.toNat * afterFee amountIn feeBps < 2 ^ 128 := by
    calc reserveOut.toNat * afterFee amountIn feeBps < 2 ^ 64 * 2 ^ 64 := Nat.mul_lt_mul'' hy hd
      _ = 2 ^ 128 := by decide
  have hdenominator : reserveIn.toNat + afterFee amountIn feeBps < 2 ^ 128 := by omega
  have hnonzero : reserveIn.toNat + afterFee amountIn feeBps ≠ 0 := by
    have hpos : 0 < reserveIn.toNat := UInt64.lt_iff_toNat_lt.1 hin
    omega
  unfold afterFee at hnumerator hdenominator hnonzero
  simp only [amountOut, require_pos (And.intro hin hout), u128Sub, if_pos hbps, bind_ok, u128_eq hscaled,
    u128_eq hnumerator, u128_eq hdenominator, u128Div_eq hnonzero, payout, afterFee]
  rfl

/-- With a fee that `init_pool` accepts, the price never panics. -/
theorem amountOut_ne_panic (hfee : feeBps ≤ maxFeeBps) : amountOut reserveIn reserveOut amountIn feeBps ≠ panic := by
  by_cases h : 0 < reserveIn ∧ 0 < reserveOut
  · rw [amountOut_eq hfee h.1 h.2]
    dsimp only [require]
    split_ifs <;> simp
  · rw [amountOut_empty h]
    simp

theorem amountOut_eq_ok_iff (hfee : feeBps ≤ maxFeeBps) : amountOut reserveIn reserveOut amountIn feeBps = ok out ↔
    0 < reserveIn ∧ 0 < reserveOut ∧ 0 < out ∧
      out.toNat = payout reserveIn.toNat reserveOut.toNat (afterFee amountIn feeBps) := by
  constructor
  · intro h
    obtain ⟨hin, hout, hpos, heq⟩ := amountOut_ok h
    exact ⟨UInt64.lt_iff_toNat_lt.2 hin, UInt64.lt_iff_toNat_lt.2 hout, UInt64.lt_iff_toNat_lt.2 hpos, heq⟩
  · rintro ⟨hin, hout, hpos, heq⟩
    rw [amountOut_eq hfee hin hout, ← heq, UInt64.ofNat_toNat]
    exact (require_bind_eq_ok).2 ⟨hpos, rfl⟩

/-- Any payout is a `u64`, being below the balance. -/
theorem exists_payout (hin : 0 < reserveIn) (hout : 0 < reserveOut) (d : Nat) :
    ∃ out : UInt64, out.toNat = payout reserveIn.toNat reserveOut.toNat d := by
  have hlt := @payout_lt _ _ d (UInt64.lt_iff_toNat_lt.1 hin) (UInt64.lt_iff_toNat_lt.1 hout)
  exact ⟨UInt64.ofNat _, UInt64.toNat_ofNat_of_lt' (hlt.trans reserveOut.toNat_lt)⟩

theorem amountOut_isOk_iff (hfee : feeBps ≤ maxFeeBps) :
    (∃ out, amountOut reserveIn reserveOut amountIn feeBps = ok out) ↔ 0 < reserveIn ∧ 0 < reserveOut ∧
      0 < payout reserveIn.toNat reserveOut.toNat (afterFee amountIn feeBps) := by
  simp only [amountOut_eq_ok_iff hfee]
  constructor
  · rintro ⟨out, hin, hout, hpos, heq⟩
    exact ⟨hin, hout, heq ▸ UInt64.lt_iff_toNat_lt.1 hpos⟩
  · rintro ⟨hin, hout, hpos⟩
    obtain ⟨out, heq⟩ := exists_payout hin hout (afterFee amountIn feeBps)
    exact ⟨out, hin, hout, UInt64.lt_iff_toNat_lt.2 (heq ▸ hpos), heq⟩

/-- The price grows with what the fee leaves. -/
theorem amountOut_le (hfee : feeBps ≤ maxFeeBps) (hfee' : feeBps' ≤ maxFeeBps)
    (hd : afterFee amountIn feeBps ≤ afterFee amountIn' feeBps')
    (h : amountOut reserveIn reserveOut amountIn feeBps = ok out) :
    ∃ out', amountOut reserveIn reserveOut amountIn' feeBps' = ok out' ∧ out ≤ out' := by
  obtain ⟨hin, hout, hpos, heq⟩ := (amountOut_eq_ok_iff hfee).1 h
  obtain ⟨out', heq'⟩ := exists_payout hin hout (afterFee amountIn' feeBps')
  have hle : out.toNat ≤ out'.toNat := by
    rw [heq, heq']
    exact payout_mono (UInt64.lt_iff_toNat_lt.1 hin) hd
  have hpos' : 0 < out'.toNat := (UInt64.lt_iff_toNat_lt.1 hpos).trans_le hle
  exact ⟨out', (amountOut_eq_ok_iff hfee').2 ⟨hin, hout, UInt64.lt_iff_toNat_lt.2 hpos', heq'⟩,
    UInt64.le_iff_toNat_le.2 hle⟩

/-- The input pays for what leaves the pool. -/
theorem amountOut_product (h : amountOut reserveIn reserveOut amountIn feeBps = ok out) :
    out < reserveOut ∧ reserveIn.toNat * reserveOut.toNat ≤
      (reserveIn.toNat + amountIn.toNat) * (reserveOut.toNat - out.toNat) := by
  obtain ⟨hin, hout, -, heq⟩ := amountOut_ok h
  have hlt := @payout_lt _ _ (afterFee amountIn feeBps) hin hout
  rw [← heq] at hlt
  refine ⟨UInt64.lt_iff_toNat_lt.2 hlt, (product_le_iff hin hlt.le).2 ?_⟩
  rw [heq]
  exact payout_mono hin (afterFee_le amountIn feeBps)

/-- **Back again**, whatever the fee on the way back. -/
theorem amountOut_back_le {reserveIn' back : UInt64} (h : amountOut reserveIn reserveOut amountIn feeBps = ok out)
    (hreserveIn' : reserveIn'.toNat = reserveIn.toNat + amountIn.toNat)
    (hback : amountOut (reserveOut - out) reserveIn' out feeBps' = ok back) : back ≤ amountIn := by
  have hlt := (amountOut_product h).1
  obtain ⟨hin, hout, -, heq⟩ := amountOut_ok h
  obtain ⟨-, -, -, heq'⟩ := amountOut_ok hback
  rw [UInt64.toNat_sub_of_le _ _ (UInt64.le_of_lt hlt), hreserveIn'] at heq'
  refine UInt64.le_iff_toNat_le.2 ?_
  rw [heq']
  refine payout_back_le hin hout ?_ (afterFee_le out feeBps')
  rw [heq]
  exact payout_mono hin (afterFee_le amountIn feeBps)

/-- **Swap arithmetic**, for all balances and inputs and every fee that `init_pool` accepts. The balance the input
arrives at has room for it. -/
theorem swap_arithmetic (reserveIn reserveOut amountIn : UInt64) (feeBps : UInt16) (hfee : feeBps ≤ maxFeeBps) :
    amountOut reserveIn reserveOut amountIn feeBps ≠ panic ∧
    ((∃ out, amountOut reserveIn reserveOut amountIn feeBps = ok out) ↔ 0 < reserveIn ∧ 0 < reserveOut ∧
      0 < payout reserveIn.toNat reserveOut.toNat (afterFee amountIn feeBps)) ∧
    ∀ out, amountOut reserveIn reserveOut amountIn feeBps = ok out →
      (0 < out ∧ out < reserveOut) ∧
      reserveIn.toNat * reserveOut.toNat ≤
        (reserveIn.toNat + amountIn.toNat) * (reserveOut.toNat - out.toNat) ∧
      (∀ amountIn', amountIn ≤ amountIn' →
        ∃ out', amountOut reserveIn reserveOut amountIn' feeBps = ok out' ∧ out ≤ out') ∧
      (∀ feeBps', feeBps' ≤ feeBps →
        ∃ out', amountOut reserveIn reserveOut amountIn feeBps' = ok out' ∧ out ≤ out') ∧
      ∀ reserveIn' back, reserveIn'.toNat = reserveIn.toNat + amountIn.toNat →
        amountOut (reserveOut - out) reserveIn' out feeBps = ok back → back ≤ amountIn := by
  refine ⟨amountOut_ne_panic hfee, amountOut_isOk_iff hfee, fun out h => ?_⟩
  obtain ⟨hlt, hproduct⟩ := amountOut_product h
  refine ⟨⟨((amountOut_eq_ok_iff hfee).1 h).2.2.1, hlt⟩, hproduct, ?_, ?_, ?_⟩
  · intro amountIn' hle
    exact amountOut_le hfee hfee (afterFee_mono hle) h
  · intro feeBps' hle
    exact amountOut_le hfee (UInt16.le_trans hle hfee) (afterFee_antitone hle) h
  · intro reserveIn' back hreserveIn' hback
    exact amountOut_back_le h hreserveIn' hback

/-- The whole range of a `u64` in a pool that keeps 10%, and back. -/
theorem swap_arithmetic_sample :
    amountOut (2 ^ 63) (2 ^ 64 - 1) (2 ^ 63 - 1) 1000 = ok 8737931403336103395 ∧
      ∃ back, amountOut (2 ^ 64 - 1 - 8737931403336103395) (2 ^ 64 - 1) 8737931403336103395 1000 = ok back ∧
        back ≤ 2 ^ 63 - 1 := by
  have hout : amountOut (2 ^ 63) (2 ^ 64 - 1) (2 ^ 63 - 1) 1000 = ok 8737931403336103395 := by decide +kernel
  have hback : (amountOut (2 ^ 64 - 1 - 8737931403336103395) (2 ^ 64 - 1) 8737931403336103395 1000).isOk := by
    decide +kernel
  obtain ⟨back, hback⟩ := Exec.isOk_iff.1 hback
  have hlaw := swap_arithmetic (2 ^ 63) (2 ^ 64 - 1) (2 ^ 63 - 1) 1000 (by decide)
  exact ⟨hout, back, hback, (hlaw.2.2 _ hout).2.2.2.2 (2 ^ 64 - 1) back (by decide +kernel) hback⟩

end ThawGate.DemoPool
