import ThawGate.DemoPool.Tokens

/-!
# The product of the vaults

A swap pays what the named input, less the pool's fee, is worth at the balances before it. What arrives is the
named input less what the sold mint withholds, and nothing when the pool's own vault is sold from, which takes a
signature the mint itself allows (its permanent delegate's). The product of the vaults is kept exactly when what
arrives is worth what is paid (`Swap.Covered`).
-/

namespace ThawGate.DemoPool

open ConstantProduct Exec Function

variable {W : Type} {P : Programs W} {s s' : State W} {h : List Label}

/-! ### What is paid -/

theorem u128_eq {n : Nat} (hn : n < 2 ^ 128) : u128 n = ok n := if_pos hn

theorem u128_eq_ok {n m : Nat} (h : u128 n = ok m) : m = n := by
  unfold u128 at h
  split_ifs at h
  exact (Exec.ok.inj h).symm

theorem u128Sub_eq_ok {a b n : Nat} (h : u128Sub a b = ok n) : n = a - b := by
  unfold u128Sub at h
  split_ifs at h
  exact (Exec.ok.inj h).symm

theorem u128Div_eq {a b : Nat} (hb : b ≠ 0) : u128Div a b = ok (a / b) := if_neg hb

theorem u128Div_eq_ok {a b n : Nat} (h : u128Div a b = ok n) : n = a / b := by
  unfold u128Div at h
  split_ifs at h
  exact (Exec.ok.inj h).symm

theorem afterFee_le (amountIn : UInt64) (feeBps : UInt16) : afterFee amountIn feeBps ≤ amountIn.toNat := by
  refine Nat.div_le_of_le_mul ?_
  rw [Nat.mul_comm]
  exact Nat.mul_le_mul_right _ (Nat.sub_le bps feeBps.toNat)

/-- A payout is below the balance it is paid from, so it is cast without loss. -/
theorem amountOut_ok {reserveIn reserveOut amountIn out : UInt64} {feeBps : UInt16}
    (h : amountOut reserveIn reserveOut amountIn feeBps = ok out) :
    0 < reserveIn.toNat ∧ 0 < reserveOut.toNat ∧ 0 < out.toNat ∧
      out.toNat = payout reserveIn.toNat reserveOut.toNat (afterFee amountIn feeBps) := by
  simp only [amountOut, bind_eq_ok, require_eq_ok, exists_const, pure_eq, Exec.ok.injEq] at h
  obtain ⟨⟨hin, hout⟩, rate, hrate, scaled, hscaled, numerator, hnum, denominator, hden, quotient, hquot,
    hpos, rfl⟩ := h
  obtain rfl := u128Sub_eq_ok hrate
  obtain rfl := u128_eq_ok hscaled
  obtain rfl := u128_eq_ok hnum
  obtain rfl := u128_eq_ok hden
  obtain rfl := u128Div_eq_ok hquot
  have hlt := @payout_lt _ _ (afterFee amountIn feeBps) (UInt64.lt_iff_toNat_lt.1 hin) (UInt64.lt_iff_toNat_lt.1 hout)
  refine ⟨UInt64.lt_iff_toNat_lt.1 hin, UInt64.lt_iff_toNat_lt.1 hout, UInt64.lt_iff_toNat_lt.1 hpos, ?_⟩
  exact UInt64.toNat_ofNat_of_lt' (hlt.trans reserveOut.toNat_lt)

/-! ### Pools -/

/-- What `init_pool` checked. -/
def State.Opened (s : State W) : Prop :=
  ∀ a pool, s.pools a = some pool → pool.mintA ≠ pool.mintB ∧ pool.feeBps ≤ maxFeeBps

theorem cpi_pools {c : Call} (hx : cpi P s c = ok s') : s'.pools = s.pools := by
  obtain ⟨w, -, rfl⟩ := cpi_eq_ok.1 hx
  rfl

theorem cpiIf_pools {c : Prop} [Decidable c] {call : Call} (hx : cpiIf P c s call = ok s') : s'.pools = s.pools := by
  unfold cpiIf at hx
  split_ifs at hx
  · exact cpi_pools hx
  · rw [Exec.ok.inj hx]

theorem createVault_pools {x : InitPool} {vault mint tokenProgram : Pubkey}
    (hx : createVault P s x vault mint tokenProgram = ok s') : s'.pools = s.pools := by
  simp only [createVault, bind_eq_ok] at hx
  obtain ⟨extensions, -, space, -, s₁, h₁, s₂, h₂, h₃⟩ := hx
  rw [cpi_pools h₃, cpiIf_pools h₂, cpi_pools h₁]

theorem initPool_ok {x : InitPool} {feeBps : UInt16} (hx : initPool P s x feeBps = ok s') :
    x.mintA ≠ x.mintB ∧ feeBps ≤ maxFeeBps ∧ s'.pools = update s.pools x.pool
      (some ⟨x.admin, x.mintA, x.mintB, x.vaultA, x.vaultB, feeBps, x.pool.bump⟩) := by
  simp only [initPool, tokenInterface, bind_eq_ok, require_eq_ok, exists_const, pure_eq, Exec.ok.injEq] at hx
  obtain ⟨-, -, mintA, -, mintB, -, -, -, -, hne, -, hfee, s₁, h₁, s₂, h₂, rfl⟩ := hx
  refine ⟨hne, hfee, ?_⟩
  dsimp only
  rw [createVault_pools h₂, createVault_pools h₁]

theorem deposit_pools {x : Deposit} {amountA amountB : UInt64} (hx : deposit P s x amountA amountB = ok s') :
    s'.pools = s.pools := by
  simp only [deposit, bind_eq_ok] at hx
  obtain ⟨pool, -, -, -, -, -, -, -, -, -, mintA, -, mintB, -, s₁, h₁, h₂⟩ := hx
  rw [cpiIf_pools h₂, cpiIf_pools h₁]

/-- What a successful swap was: it priced the input at the balances before it, took it, and paid. -/
theorem swap_ok {x : Swap} {amountIn minAmountOut : UInt64} {aToB : Bool}
    (hx : swap P s x amountIn minAmountOut aToB = ok s') :
    ∃ pool out w signer dIn dOut, s.pools x.pool = some pool ∧ pool.mintA = x.mintA ∧ pool.mintB = x.mintB ∧
      0 < P.balance s.world (x.sideIn aToB).vault ∧ 0 < P.balance s.world (x.sideOut aToB).vault ∧
      0 < out.toNat ∧ out.toNat = payout (P.balance s.world (x.sideIn aToB).vault)
        (P.balance s.world (x.sideOut aToB).vault) (afterFee amountIn pool.feeBps) ∧
      P.invoke s.world (.transferChecked (x.sideIn aToB).tokenProgram (x.sideIn aToB).user (x.sideIn aToB).mint
        (x.sideIn aToB).vault x.user none amountIn dIn) = some w ∧
      P.invoke w (.transferChecked (x.sideOut aToB).tokenProgram (x.sideOut aToB).vault (x.sideOut aToB).mint
        (x.sideOut aToB).user (P.address x.pool) signer out dOut) = some s'.world ∧
      s'.pools = s.pools := by
  simp only [swap, account, bind_eq_ok, require_eq_ok, exists_const, orErr_eq_ok, cpi_eq_ok] at hx
  obtain ⟨pool, hpool, ⟨hmintA, hmintB, -, -⟩, -, -, -, -, -, -, mintIn, -, mintOut, -, vaultIn, hin, vaultOut, hout,
    out, hprice, -, _, ⟨w, htake, rfl⟩, w', hpay, rfl⟩ := hx
  obtain ⟨hxpos, hypos, hpos, heq⟩ := amountOut_ok hprice
  rw [← balance_of_account hin] at hxpos heq
  rw [← balance_of_account hout] at hypos heq
  exact ⟨pool, out, w, _, _, _, hpool, hmintA, hmintB, hxpos, hypos, hpos, heq, htake, hpay, rfl⟩

/-- **Step.** Only `init_pool` opens a pool, and the fee and the mints of a pool stay. -/
theorem State.Opened.exec {ix : Instruction} (hs : s.Opened) (hx : exec P s ix = ok s') : s'.Opened := by
  cases ix with
  | initPool x feeBps =>
    obtain ⟨hne, hfee, hpools⟩ := initPool_ok hx
    intro a pool hpool
    rw [hpools] at hpool
    by_cases ha : a = x.pool
    · rw [ha, update_self] at hpool
      obtain rfl := Option.some.inj hpool
      exact ⟨hne, hfee⟩
    · rw [update_of_ne ha] at hpool
      exact hs a pool hpool
  | deposit x amountA amountB =>
    intro a pool hpool
    rw [deposit_pools hx] at hpool
    exact hs a pool hpool
  | swap x amountIn minAmountOut aToB =>
    obtain ⟨_, _, _, _, _, _, -, -, -, -, -, -, -, -, -, hpools⟩ := swap_ok hx
    intro a pool hpool
    rw [hpools] at hpool
    exact hs a pool hpool

theorem State.Opened.of_run (r : (machine P).Run h s) : s.Opened := by
  refine r.invariant (I := fun _ s => s.Opened) ?_ ?_
  · intro s hs a pool hpool
    rw [hs] at hpool
    contradiction
  · intro h s e s' _ hs hstep
    cases hstep with
    | succeeded hx => exact hs.exec hx
    | failed => exact hs
    | outside => exact hs

/-! ### The balances after a swap -/

namespace Swap

variable {x : Swap} {amountIn minAmountOut : UInt64} {aToB : Bool} {pool : Pool}

/-- What arrives in the vault of the sold mint. -/
def arrives (P : Programs W) (w : W) (x : Swap) (amountIn : UInt64) (aToB : Bool) : Nat :=
  if (x.sideIn aToB).user = (x.sideIn aToB).vault then 0
  else amountIn.toNat - (P.transferFee w (x.sideIn aToB).mint amountIn).toNat

theorem mint_ne (hne : x.mintA ≠ x.mintB) : (x.sideIn aToB).mint ≠ (x.sideOut aToB).mint := by
  cases aToB with
  | true => exact hne
  | false => exact hne.symm

/-- No account is on both sides, since the mints differ. -/
theorem balances (laws : P.TransfersLessFee) {w w₁ w' : W} (hne : x.mintA ≠ x.mintB) {user authority : Pubkey}
    {signerIn signerOut : Option Pda} {out : UInt64} {dIn dOut : UInt8}
    (htake : P.invoke w (.transferChecked (x.sideIn aToB).tokenProgram (x.sideIn aToB).user (x.sideIn aToB).mint
      (x.sideIn aToB).vault user signerIn amountIn dIn) = some w₁)
    (hpay : P.invoke w₁ (.transferChecked (x.sideOut aToB).tokenProgram (x.sideOut aToB).vault (x.sideOut aToB).mint
      (x.sideOut aToB).user authority signerOut out dOut) = some w') :
    P.balance w' (x.sideIn aToB).vault = P.balance w (x.sideIn aToB).vault + x.arrives P w amountIn aToB ∧
      P.balance w' (x.sideOut aToB).vault + (if (x.sideOut aToB).user = (x.sideOut aToB).vault then 0 else out.toNat) =
        P.balance w (x.sideOut aToB).vault := by
  have hmint : (x.sideIn aToB).mint ≠ (x.sideOut aToB).mint := mint_ne hne
  have hapart : ∀ {k l}, P.mintOf w k = some (x.sideIn aToB).mint → P.mintOf w l = some (x.sideOut aToB).mint →
      k ≠ l := by
    rintro k l hk hl rfl
    exact hmint (Option.some.inj (hk.symm.trans hl))
  have huserIn := laws.source htake
  have hvaultIn := laws.destination htake
  have hvaultOut := (laws.mintOf htake _).symm.trans (laws.source hpay)
  have huserOut := (laws.mintOf htake _).symm.trans (laws.destination hpay)
  constructor
  · have hfirst := laws.balance htake (x.sideIn aToB).vault
    have hsecond := laws.balance hpay (x.sideIn aToB).vault
    rw [if_neg (hapart hvaultIn hvaultOut), if_neg (hapart hvaultIn huserOut)] at hsecond
    rw [if_pos rfl, Programs.received] at hfirst
    unfold arrives
    by_cases hself : (x.sideIn aToB).user = (x.sideIn aToB).vault
    · rw [if_pos hself.symm, if_pos hself] at hfirst
      rw [if_pos hself]
      omega
    · rw [if_neg (Ne.symm hself), if_neg hself] at hfirst
      rw [if_neg hself]
      omega
  · have hfirst := laws.balance htake (x.sideOut aToB).vault
    have hsecond := laws.balance hpay (x.sideOut aToB).vault
    rw [if_neg (hapart huserIn hvaultOut).symm, if_neg (hapart hvaultIn hvaultOut).symm] at hfirst
    rw [if_pos rfl, Programs.received] at hsecond
    by_cases hself : (x.sideOut aToB).user = (x.sideOut aToB).vault
    · rw [if_pos hself.symm, if_pos hself.symm] at hsecond
      rw [if_pos hself]
      omega
    · rw [if_neg (Ne.symm hself)] at hsecond
      rw [if_neg hself]
      omega

def product (P : Programs W) (w : W) (x : Swap) : Nat := P.balance w x.vaultA * P.balance w x.vaultB

theorem product_eq (w : W) (aToB : Bool) :
    x.product P w = P.balance w (x.sideIn aToB).vault * P.balance w (x.sideOut aToB).vault := by
  cases aToB with
  | true => rfl
  | false => exact Nat.mul_comm ..

/-- The product did not fall, and neither vault is empty. -/
def Kept (P : Programs W) (x : Swap) (w w' : W) : Prop :=
  x.product P w ≤ x.product P w' ∧ 0 < P.balance w' x.vaultA ∧ 0 < P.balance w' x.vaultB

theorem kept_iff {w w' : W} (aToB : Bool) : x.Kept P w w' ↔
    P.balance w (x.sideIn aToB).vault * P.balance w (x.sideOut aToB).vault ≤
      P.balance w' (x.sideIn aToB).vault * P.balance w' (x.sideOut aToB).vault ∧
    0 < P.balance w' (x.sideIn aToB).vault ∧ 0 < P.balance w' (x.sideOut aToB).vault := by
  rw [Kept, x.product_eq w aToB, x.product_eq w' aToB]
  cases aToB with
  | true => rfl
  | false => exact and_congr_right' and_comm

/-- What arrives is worth what is priced, or what is paid stays in the vault. -/
def Covered (P : Programs W) (w : W) (x : Swap) (feeBps : UInt16) (amountIn : UInt64) (aToB : Bool) : Prop :=
  (x.sideOut aToB).user = (x.sideOut aToB).vault ∨
    payout (P.balance w (x.sideIn aToB).vault) (P.balance w (x.sideOut aToB).vault) (afterFee amountIn feeBps) ≤
      payout (P.balance w (x.sideIn aToB).vault) (P.balance w (x.sideOut aToB).vault) (x.arrives P w amountIn aToB)

/-- In particular if the mint withholds no more than the pool's fee. -/
theorem Covered.of_arrives {w : W} {feeBps : UInt16} (hx : 0 < P.balance w (x.sideIn aToB).vault)
    (h : afterFee amountIn feeBps ≤ x.arrives P w amountIn aToB) : x.Covered P w feeBps amountIn aToB :=
  .inr (payout_mono hx h)

end Swap

/-- **Every successful swap of a run** keeps the product of the vaults and leaves both non-empty exactly when it
is covered. -/
theorem swap_kept_iff (laws : P.TransfersLessFee) (r : (machine P).Run h s) {x : Swap} {pool : Pool}
    (hpool : s.pools x.pool = some pool) {amountIn minAmountOut : UInt64} {aToB : Bool}
    (hx : swap P s x amountIn minAmountOut aToB = ok s') :
    x.Kept P s.world s'.world ↔ x.Covered P s.world pool.feeBps amountIn aToB := by
  obtain ⟨pool', out, w, signer, dIn, dOut, hpool', hmintA, hmintB, hin, hout, hpos, hprice, htake, hpay, -⟩ :=
    swap_ok hx
  rw [hpool] at hpool'
  obtain rfl := Option.some.inj hpool'
  have hne : x.mintA ≠ x.mintB := by
    rw [← hmintA, ← hmintB]
    exact (State.Opened.of_run r x.pool pool hpool).1
  obtain ⟨hbalanceIn, hbalanceOut⟩ := Swap.balances laws hne htake hpay
  have hlt := @payout_lt _ _ (afterFee amountIn pool.feeBps) hin hout
  rw [← hprice] at hlt
  rw [x.kept_iff aToB, Swap.Covered, ← hprice, hbalanceIn]
  by_cases hself : (x.sideOut aToB).user = (x.sideOut aToB).vault
  · rw [if_pos hself, Nat.add_zero] at hbalanceOut
    rw [hbalanceOut]
    refine iff_of_true ⟨?_, Nat.add_pos_left hin _, hout⟩ (.inl hself)
    exact Nat.mul_le_mul_right _ (Nat.le_add_right ..)
  · rw [if_neg hself] at hbalanceOut
    have hpaid : P.balance s'.world (x.sideOut aToB).vault = P.balance s.world (x.sideOut aToB).vault - out.toNat := by
      omega
    rw [hpaid, product_le_iff hin hlt.le]
    constructor
    · exact fun h => .inr h.1
    · intro h
      exact ⟨h.resolve_left hself, Nat.add_pos_left hin _, Nat.sub_pos_of_lt hlt⟩

instance (w : W) (x : Swap) (feeBps : UInt16) (amountIn : UInt64) (aToB : Bool) :
    Decidable (x.Covered P w feeBps amountIn aToB) := inferInstanceAs (Decidable (_ ∨ _))

instance (x : Swap) (w w' : W) : Decidable (x.Kept P w w') := inferInstanceAs (Decidable (_ ∧ _))

/-- Mint 11, which withholds nothing, is sold for mint 10. -/
theorem swap_kept_iff_sample :
    ∃ h pool s', (machine tills).Run h samplePool ∧ samplePool.pools sampleSwap.pool = some pool ∧
      swap tills samplePool sampleSwap 1000 0 false = ok s' ∧ sampleSwap.Kept tills samplePool.world s'.world := by
  have hpool : (samplePool.pools sampleSwap.pool).any
      fun pool => sampleSwap.Covered tills samplePool.world pool.feeBps 1000 false := by decide +kernel
  have hswap : (swap tills samplePool sampleSwap 1000 0 false).isOk := by decide +kernel
  obtain ⟨pool, hpool, hcovered⟩ := (Option.any_eq_true _ _).1 hpool
  obtain ⟨s', hs'⟩ := Exec.isOk_iff.1 hswap
  obtain ⟨h, r⟩ := samplePool_reachable
  exact ⟨h, pool, s', r, hpool, hs', (swap_kept_iff tills_transfersLessFee r hpool hs').2 (of_decide_eq_true hcovered)⟩

/-- Mint 10, which withholds 1%, is sold for mint 11 in a pool that keeps 0.3%. -/
theorem swap_lowers_product :
    tills.TransfersLessFee ∧ ∃ h s', (machine tills).Run h samplePool ∧
      swap tills samplePool sampleSwap 1000 0 true = ok s' ∧
      sampleSwap.product tills samplePool.world = 9900000000 ∧ sampleSwap.product tills s'.world = 9899309970 := by
  have hswap : (swap tills samplePool sampleSwap 1000 0 true).isOk := by decide +kernel
  obtain ⟨s', hs'⟩ := Exec.isOk_iff.1 hswap
  obtain ⟨h, r⟩ := samplePool_reachable
  refine ⟨tills_transfersLessFee, h, s', r, hs', by decide +kernel, ?_⟩
  have heq : execAll tills samplePool [.swap sampleSwap 1000 0 true] = s' := by
    simp only [execAll, exec, hs']
  rw [← heq]
  decide +kernel

end ThawGate.DemoPool
