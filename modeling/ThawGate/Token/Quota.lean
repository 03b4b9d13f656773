import ThawGate.Token.Vault
import ThawGate.Token.Machine

/-!
# The minter's quota

`mintedSince` adds up, off the labels of a run, what a minter minted on a mint since its last
`update_minter`. `Ledger.Quotas` is the invariant: a quota's `used` is that sum, and no more than its
limit. `mint_tokens` checks the sum before its calls and writes it after them; an overflow there fails
the instruction, so no amount is lost. `update_minter` starts again from zero. Nothing else writes a
quota: revoking the role, granting it again or handing the authority over does not touch it.
-/

namespace ThawGate.Token

open Exec Function

variable {W : Type} {P : Programs W} {now : Int64} {s s' : State W} {l : Ledger} {h : List Label}

/-- What `minted` becomes when one more instruction succeeds. -/
def mintedAfter (mint minter : Pubkey) (minted : Nat) : Instruction → Nat
  | .mintTokens x amount => if x.mint = mint ∧ x.minter = minter then amount.toNat + minted else minted
  | .updateMinter x minter' _ _ => if x.config.seeds = .config mint ∧ minter' = minter then 0 else minted
  | _ => minted

/-- What the minter minted on the mint since the last `update_minter` for it. -/
def mintedSince (mint minter : Pubkey) : List Label → Nat
  | [] => 0
  | .tx ix _ true :: h => mintedAfter mint minter (mintedSince mint minter h) ix
  | _ :: h => mintedSince mint minter h

theorem mintedAfter_of_not_writes {mint minter : Pubkey} {n : Nat} {ix : Instruction} (hix : .quota ∉ ix.writes) :
    mintedAfter mint minter n ix = n := by
  cases ix <;> first | rfl | simp [Instruction.writes] at hix

structure Ledger.Quotas (P : Programs W) (h : List Label) (l : Ledger) : Prop where
  quota_at : ∀ {a q}, l.quotas a = some q → a = P.canonical (.quota q.mint q.minter)
  used : ∀ {a q}, l.quotas a = some q → q.used.toNat = mintedSince q.mint q.minter h
  within : ∀ {a q}, l.quotas a = some q → 0 < q.limit → q.used ≤ q.limit

/-- A quota that has a limit is checked against it with the amount added. -/
theorem MinterQuota.check_eq_ok {q : MinterQuota} {amount used : UInt64} (hlimit : 0 < q.limit)
    (h : q.check amount = ok ()) (hused : checkedAdd q.used amount = some used) : used ≤ q.limit := by
  rw [MinterQuota.check, when, if_pos hlimit] at h
  obtain ⟨used', hused', hle⟩ := bind_eq_ok.1 h
  rw [orErr_eq_ok, hused] at hused'
  obtain rfl := Option.some.inj hused'
  exact require_eq_ok.1 hle

namespace Ledger.Quotas

theorem empty : Ledger.empty.Quotas P [] := by
  refine ⟨?_, ?_, ?_⟩ <;> intro a q hq <;> contradiction

/-- The quota at a minter's address has added up the minter's mints. -/
theorem used_canonical (hl : l.Quotas P h) {mint minter : Pubkey} {q : MinterQuota}
    (hq : l.quotas (P.canonical (.quota mint minter)) = some q) : q.used.toNat = mintedSince mint minter h := by
  have hat := hl.quota_at hq
  rw [P.canonical_inj, Seeds.quota.injEq] at hat
  rw [hat.1, hat.2]
  exact hl.used hq

/-- The quota a call is passed is the one of the mint and the signer. -/
theorem of_account (hl : l.Quotas P h) {a : Pda} {mint minter : Pubkey} {q : MinterQuota}
    (hq : quotaAccount l a mint minter = ok q) : l.quotas a = some q ∧ mint = q.mint ∧ minter = q.minter := by
  obtain ⟨hfound, haddr⟩ := quotaAccount_eq_ok.1 hq
  have hseeds : Seeds.quota mint minter = .quota q.mint q.minter :=
    congrArg Pda.seeds (haddr.symm.trans (hl.quota_at hfound))
  rw [Seeds.quota.injEq] at hseeds
  exact ⟨hfound, hseeds⟩

/-- Writing the quota of one minter, when the labels make its `used` right and count nothing for others. -/
theorem setQuota {h' : List Label} {l' : Ledger} (hl : l.Quotas P h) {a : Pda} {q : MinterQuota}
    (hl' : l'.quotas = update l.quotas a (some q)) (ha : a = P.canonical (.quota q.mint q.minter))
    (hused : q.used.toNat = mintedSince q.mint q.minter h') (hwithin : 0 < q.limit → q.used ≤ q.limit)
    (hothers : ∀ mint minter, ¬(mint = q.mint ∧ minter = q.minter) →
      mintedSince mint minter h' = mintedSince mint minter h) : l'.Quotas P h' := by
  refine ⟨?_, ?_, ?_⟩ <;> intro b q' hq' <;> rw [hl'] at hq'
  · obtain ⟨rfl, rfl⟩ | ⟨-, hq'⟩ := Ledger.update_eq_some.1 hq'
    · exact ha
    · exact hl.quota_at hq'
  · obtain ⟨-, rfl⟩ | ⟨hne, hq'⟩ := Ledger.update_eq_some.1 hq'
    · exact hused
    · rw [hothers q'.mint q'.minter ?_]
      · exact hl.used hq'
      · intro ⟨hmint, hminter⟩
        exact hne (by rw [hl.quota_at hq', ha, hmint, hminter])
  · obtain ⟨-, rfl⟩ | ⟨-, hq'⟩ := Ledger.update_eq_some.1 hq'
    · exact hwithin
    · exact hl.within hq'

theorem mintTokens (hl : s.ledger.Quotas P h) {x : MintTokens} {amount : UInt64}
    (hx : mintHandler P now s x amount = ok s') :
    s'.ledger.Quotas P (.tx (.mintTokens x amount) now true :: h) := by
  obtain ⟨c, q, m, hm⟩ := mintHandler_ok hx
  have hmint : x.mint = c.mint := (mintAccount_eq_ok.1 hm.mint).2
  obtain ⟨hq, hqmint, hqminter⟩ := hl.of_account hm.quota
  have hat := hl.quota_at hq
  obtain ⟨used, total, hused, -, hledger⟩ := hm.wrote
  refine hl.setQuota (q := { q with used }) (by rw [hledger]; rfl) hat ?_ ?_ ?_
  · show used.toNat = mintedAfter q.mint q.minter (mintedSince q.mint q.minter h) (.mintTokens x amount)
    rw [mintedAfter, if_pos ⟨hmint.trans hqmint, hqminter⟩, checkedAdd_eq_some.1 hused, hl.used hq]
    exact Nat.add_comm ..
  · exact fun hlimit => q.check_eq_ok hlimit hm.withinLimit hused
  · intro mint minter hne
    refine if_neg ?_
    intro ⟨h₁, h₂⟩
    exact hne ⟨h₁.symm.trans (hmint.trans hqmint), h₂.symm.trans hqminter⟩

theorem updateMinter (hl : s.ledger.Quotas P h) {x : UpdateMinter} {minter : Pubkey} {limit : UInt64}
    {period : QuotaPeriod} (hx : handlerUpdateMinter P now s x minter limit period = ok s') :
    s'.ledger.Quotas P (.tx (.updateMinter x minter limit period) now true :: h) := by
  obtain ⟨c, r, hc, -, -, hquota, rfl⟩ := handlerUpdateMinter_ok hx
  have hseeds : x.config.seeds = .config c.mint := congrArg Pda.seeds (configAccount_eq_ok.1 hc).2
  refine hl.setQuota (q := ⟨c.mint, minter, limit, 0, period, x.minterQuota.bump⟩) rfl hquota ?_ ?_ ?_
  · show (0 : UInt64).toNat = mintedAfter c.mint minter _ (.updateMinter x minter limit period)
    rw [mintedAfter, if_pos ⟨hseeds, rfl⟩]
    rfl
  · intro hlimit
    exact UInt64.le_iff_toNat_le.2 (Nat.zero_le _)
  · intro mint minter' hne
    refine if_neg ?_
    rw [hseeds, Seeds.config.injEq]
    intro ⟨h₁, h₂⟩
    exact hne ⟨h₁.symm, h₂.symm⟩

/-- **Step.** -/
theorem exec (hl : s.ledger.Quotas P h) {ix : Instruction} (hx : exec P now s ix = ok s') :
    s'.ledger.Quotas P (.tx ix now true :: h) := by
  by_cases hix : .quota ∈ ix.writes
  · cases ix <;> simp only [Instruction.writes, List.mem_cons, List.not_mem_nil, reduceCtorEq, or_false] at hix
    case mintTokens x amount => exact hl.mintTokens hx
    case updateMinter x minter limit period => exact hl.updateMinter hx
  · have hquotas := (exec_frame hx).quotas hix
    refine ⟨?_, ?_, ?_⟩ <;> intro a q hq <;> rw [hquotas] at hq
    · exact hl.quota_at hq
    · show _ = mintedAfter q.mint q.minter _ ix
      rw [mintedAfter_of_not_writes hix]
      exact hl.used hq
    · exact hl.within hq

/-- **Run.** -/
theorem of_run (r : (machine P).Run h s) : s.ledger.Quotas P h := by
  refine r.invariant (I := fun h s => s.ledger.Quotas P h) ?_ ?_
  · intro s hs
    rw [hs.1]
    exact empty
  · intro h s e s' _ hl hs
    cases hs with
    | succeeded hx => exact hl.exec hx
    | failed => exact ⟨hl.quota_at, hl.used, hl.within⟩
    | outside => exact ⟨hl.quota_at, hl.used, hl.within⟩

end Ledger.Quotas

/-- **Quota cap.** After any run the quota account of a minter has used exactly what the minter minted on
the mint since its last `update_minter`, which is within the limit if there is one. A `mint_tokens` that
succeeds adds to the supply the amount that is counted for it, and one that fails leaves the whole state, the
other programs' included, as it was. -/
theorem minter_quota_cap (r : (machine P).Run h s) :
    (∀ mint minter q, s.ledger.quotas (P.canonical (.quota mint minter)) = some q →
      q.used.toNat = mintedSince mint minter h ∧
      (0 < q.limit → mintedSince mint minter h ≤ q.limit.toNat)) ∧
    (∀ x amount now s', Step P s (.tx (.mintTokens x amount) now false) s' → s' = s) ∧
    (P.MintsExactly → ∀ x amount now s', Step P s (.tx (.mintTokens x amount) now true) s' →
      ∃ m m', P.mint s.world x.mint = some m ∧ P.mint s'.world x.mint = some m' ∧
        m'.supply.toNat = m.supply.toNat + amount.toNat) := by
  have hl := Ledger.Quotas.of_run r
  refine ⟨?_, ?_, ?_⟩
  · intro mint minter q hq
    have hused := hl.used_canonical hq
    refine ⟨hused, ?_⟩
    intro hlimit
    rw [← hused]
    exact UInt64.le_iff_toNat_le.1 (hl.within hq hlimit)
  · intro x amount now s' hs
    cases hs
    rfl
  · intro laws x amount now s' hs
    cases hs with
    | succeeded hx =>
      obtain ⟨c, q, m, hm⟩ := mintHandler_ok hx
      obtain ⟨m', hm', hsupply⟩ := hm.supply laws
      exact ⟨m, m', (mintAccount_eq_ok.1 hm.mint).1, hm', hsupply⟩

/-- Key 3 mints 600 under a limit of 1000 on mint 2, loses the role, gets it back and mints 300. -/
def quotaSample : List (Instruction × Int64) :=
  let setMinter (active : Bool) : Instruction :=
    .updateRoles
      { authority := sampleKey 1
        config := bank.canonical (.config (sampleKey 2))
        authorityRole := bank.canonical (.role (sampleKey 2) (sampleKey 1) .masterAuthority)
        targetRole := bank.canonical (.role (sampleKey 2) (sampleKey 3) .minter) }
      (sampleKey 3) .minter active
  [(initializeSample, 10), (updateMinterSample 1000 .lifetime, 20), (.mintTokens mintSample 600, 30),
    (setMinter false, 40), (.mintTokens mintSample 300, 50), (setMinter true, 60), (.mintTokens mintSample 300, 70),
    (.mintTokens mintSample 300, 80)]

theorem minter_quota_cap_sample :
    ∃ h s q, (machine bank).Run h s ∧
      s.ledger.quotas (bank.canonical (.quota (sampleKey 2) (sampleKey 3))) = some q ∧ q.limit = 1000 ∧
      mintedSince (sampleKey 2) (sampleKey 3) h = 900 := by
  have hrun : ((execAll bank sampleStart quotaSample).ledger.quotas
      (bank.canonical (.quota (sampleKey 2) (sampleKey 3)))).any fun q => q.limit = 1000 && q.used = 900 := by
    decide +kernel
  obtain ⟨q, hq, hboth⟩ := (Option.any_eq_true _ _).1 hrun
  obtain ⟨hlimit, hused⟩ := Bool.and_eq_true_iff.1 hboth
  have hreach : (machine bank).Reachable (execAll bank sampleStart quotaSample) :=
    execAll_reachable sampleStart_reachable
  obtain ⟨h, r⟩ := hreach
  refine ⟨h, _, q, r, hq, of_decide_eq_true hlimit, ?_⟩
  rw [← ((minter_quota_cap r).1 _ _ q hq).1, of_decide_eq_true hused]
  rfl

end ThawGate.Token
