import ThawGate.Token.Circulation

/-!
# What a seizure does

`seize` takes the source and the treasury from its caller and does not compare them. Token-2022 lets an
account transfer to itself and moves nothing then, so such a seizure counts tokens as burned that stay with
the wallet they should be taken from. With two accounts everything moves as `SeizeEffect` says, whichever
way the freeze authority is reached and whether or not the mint is paused.
-/

namespace ThawGate.Token

open Exec Function

variable {W : Type} {P : Programs W} {now : Int64} {s s' : State W}

/-- A freeze that succeeds, by Token-2022 or through Token ACL, leaves the account frozen. -/
structure Programs.FreezesExactly (P : Programs W) : Prop where
  freezeAccount : ∀ {w w' program account mint authority},
    P.invoke w (.freezeAccount program account mint authority) = some w' →
      ∃ t, P.tokenAccount w' account = some t ∧ t.frozen = true
  aclFreeze : ∀ {w w' authority mint account mintConfig},
    P.invoke w (.aclFreeze authority mint account mintConfig) = some w' →
      ∃ t, P.tokenAccount w' account = some t ∧ t.frozen = true

theorem FreezeRoute.run_frozen (laws : P.FreezesExactly) {r : FreezeRoute} (h : r.run P s .freeze = ok s') :
    ∃ t, P.tokenAccount s'.world r.tokenAccount = some t ∧ t.frozen = true := by
  obtain ⟨c, w, hc, hw, rfl⟩ := FreezeRoute.run_ok h
  unfold FreezeRoute.call at hc
  split_ifs at hc
  · obtain rfl := Exec.ok.inj hc
    exact laws.freezeAccount hw
  · obtain rfl := Exec.ok.inj hc
    exact laws.aclFreeze hw

/-- What a seizure of `amount` is to leave. -/
structure SeizeEffect (P : Programs W) (s s' : State W) (x : Seize) (amount : UInt64) : Prop where
  emptied : P.balance s'.world x.mint x.sourceTokenAccount = 0
  frozen : ∃ t, P.tokenAccount s'.world x.sourceTokenAccount = some t ∧ t.frozen = true
  received : P.balance s'.world x.mint x.treasuryTokenAccount =
    P.balance s.world x.mint x.treasuryTokenAccount + amount.toNat
  supply : P.supply s'.world x.mint = P.supply s.world x.mint
  counted : ∃ c c', s.ledger.configs x.config = some c ∧ s'.ledger.configs x.config = some c' ∧
    c'.totalBurned.toNat = c.totalBurned.toNat + amount.toNat

namespace Seized

variable {x : Seize} {c : StablecoinConfig} {m : Mint} {t : TokenAccount} {p : Bool} {w₁ w₂ : W}

theorem counted (h : Seized P now s s' x c m t p w₁ w₂) :
    ∃ c c', s.ledger.configs x.config = some c ∧ s'.ledger.configs x.config = some c' ∧
      c'.totalBurned.toNat = c.totalBurned.toNat + t.amount.toNat := by
  obtain ⟨total, htotal, hledger⟩ := h.wrote
  refine ⟨c, { c with totalBurned := total }, (configAccount_eq_ok.1 h.config).1, ?_, checkedAdd_eq_some.1 htotal⟩
  rw [hledger]
  exact update_self ..

/-- Everything is as it should be, but for the balances when the two accounts are one. -/
theorem effect_iff (laws : P.MovesExactly) (freezes : P.FreezesExactly) (h : Seized P now s s' x c m t p w₁ w₂) :
    SeizeEffect P s s' x t.amount ↔ x.sourceTokenAccount ≠ x.treasuryTokenAccount := by
  obtain ⟨hsource, hsupply, hbalance⟩ := h.tokens laws
  have hpositive : 0 < t.amount.toNat := UInt64.lt_iff_toNat_lt.1 h.positive
  have hfrom := hbalance x.sourceTokenAccount
  rw [if_pos rfl] at hfrom
  constructor
  · intro heffect hsame
    have hempty := heffect.emptied
    rw [if_pos hsame] at hfrom
    omega
  · intro hne
    have hto := hbalance x.treasuryTokenAccount
    rw [if_neg hne.symm, if_pos rfl] at hto
    rw [if_neg hne] at hfrom
    refine ⟨?_, FreezeRoute.run_frozen freezes h.frozenAgain, ?_, hsupply, h.counted⟩
    · omega
    · omega

end Seized

/-- **Seizure.** A `seize` that succeeds announces the source's whole balance, and has the effect that it should
have on it exactly when source and treasury are two accounts. One that fails changes nothing. -/
theorem seize_effect_iff (laws : P.MovesExactly) (freezes : P.FreezesExactly) :
    (∀ now s x s', seizeHandler P now s x = ok s' →
      ∃ amount, s'.events = .tokensSeized x.mint x.sourceTokenAccount x.treasuryTokenAccount amount x.seizer now ::
          s.events ∧
        P.balance s.world x.mint x.sourceTokenAccount = amount.toNat ∧
        (SeizeEffect P s s' x amount ↔ x.sourceTokenAccount ≠ x.treasuryTokenAccount)) ∧
      ∀ now s x s', Step P s (.tx (.seize x) now false) s' → s' = s := by
  refine ⟨?_, ?_⟩
  · intro now s x s' hx
    obtain ⟨c, m, t, p, w₁, w₂, h⟩ := seizeHandler_ok hx
    refine ⟨t.amount, ?_, (h.tokens laws).1, h.effect_iff laws freezes⟩
    rw [h.emitted, (mintAccount_eq_ok.1 h.mint).2]
  · intro now s x s' hs
    cases hs
    rfl

/-! ### In the vault -/

theorem vault_freezesExactly : vault.FreezesExactly where
  freezeAccount := by
    intro v v' program account mint authority h
    obtain ⟨b, b', hof, -, hf, rfl⟩ := Vault.onBook_eq_some h
    have haccount : v.bookOf account = mint := hof account (List.mem_singleton_self account)
    simp only [Book.setFrozen, Option.bind_eq_bind, Option.bind_eq_some_iff] at hf
    obtain ⟨held, -, _, -, hb⟩ := hf
    obtain rfl := Option.some.inj hb
    exact ⟨_, vault_tokenAccount_put haccount b _, rfl⟩
  aclFreeze := by
    intro v v' authority mint account mintConfig h
    contradiction

theorem seize_effect_iff_sample :
    ∃ s', seizeHandler vault 90 blacklistedState seizeSample = ok s' ∧
      ∃ amount, SeizeEffect vault blacklistedState s' seizeSample amount := by
  obtain ⟨s', hs'⟩ : ∃ s', seizeHandler vault 90 blacklistedState seizeSample = ok s' :=
    isOk_iff.1 (by decide +kernel)
  obtain ⟨amount, -, -, heffect⟩ := (seize_effect_iff vault_movesExactly vault_freezesExactly).1 _ _ _ _ hs'
  exact ⟨s', hs', amount, heffect.2 (by decide)⟩

/-- The same call, with the account of wallet 5 as its own treasury. -/
def seizeToSource : Seize := { seizeSample with treasuryTokenAccount := sampleKey 5 }

/-- It succeeds. The wallet keeps its 2⁶³, and they are counted as burned. -/
theorem seize_to_source_keeps :
    (seizeHandler vault 90 blacklistedState seizeToSource).isOk ∧
      vault.balance (execAll vault blacklistedState [(.seize seizeToSource, 90)]).world (sampleKey 2) (sampleKey 5) =
        9223372036854775808 ∧
      ((execAll vault blacklistedState [(.seize seizeToSource, 90)]).ledger.configs
        (vault.canonical (.config (sampleKey 2)))).map (·.totalBurned) = some 9223372036854775808 := by
  decide +kernel

end ThawGate.Token
