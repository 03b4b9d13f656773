import ThawGate.Lib.Balance
import ThawGate.Token.Counters

/-!
# What is in circulation

A seizure counts as a burn, so tokens that leave a treasury again, by a burn, a seizure or a transfer
that brings them under either, are counted a second time: `counters_overrun` is a run in which
`total_burned` passes `total_minted` and then refuses a burn.

`State.Circulates` is what holds as long as seized tokens stay where they were put: the tokens that were
not counted as burned are at least the supply outside the treasuries. So `total_burned` is at most
`total_minted`, and no burn or seizure of tokens that exist overflows it.
-/

namespace ThawGate.Token

open Exec Function Balance

variable {W : Type} {P : Programs W} {now : Int64} {s s' : State W} {h : List Label}

def Event.treasury : Event → Finset Pubkey
  | .tokensSeized _ _ treasury .. => {treasury}
  | _ => ∅

/-- The accounts that the mint's seizures filled. -/
def treasuries (mint : Pubkey) (events : List Event) : Finset Pubkey :=
  (movesOf mint events).foldr (fun e T => e.treasury ∪ T) ∅

/-- Seized tokens stay where they were put: no burn or seizure takes from an account that a seizure of
the mint filled. Outsiders move a mint's tokens between its accounts, without more of them coming into
being, and take none from such an account. -/
def SeizedStay (P : Programs W) (s : State W) : Label → State W → Prop
  | .tx (.burnTokens x _) _ true, _ => x.burnerTokenAccount ∉ treasuries x.mint s.events
  | .tx (.seize x) _ true, _ => x.sourceTokenAccount ∉ treasuries x.mint s.events
  | .tx .., _ => True
  | .outside, s' => ∀ a c, s.ledger.configs a = some c →
      P.supply s'.world c.mint ≤ P.supply s.world c.mint ∧
      Within (P.balance s'.world c.mint) (P.supply s'.world c.mint) ∧
      ∀ k ∈ treasuries c.mint s.events, P.balance s.world c.mint k ≤ P.balance s'.world c.mint k

section treasuries

variable {mint : Pubkey} {e : Event} {es : List Event}

theorem treasuries_cons_of_ne (he : e.moves ≠ some mint) : treasuries mint (e :: es) = treasuries mint es := by
  rw [treasuries, movesOf_cons_of_ne he, treasuries]

theorem treasuries_cons_of_moves (he : e.moves = some mint) :
    treasuries mint (e :: es) = e.treasury ∪ treasuries mint es := by
  rw [treasuries, movesOf_cons_of_moves he, List.foldr_cons, treasuries]

end treasuries

/-! ### What moves -/

theorem Minted.tokens (laws : P.MovesExactly) {x : MintTokens} {amount : UInt64} {c : StablecoinConfig}
    {q : MinterQuota} {m : Mint} (hm : Minted P now s s' x amount c q m) :
    P.supply s'.world x.mint = P.supply s.world x.mint + amount.toNat ∧
    ∀ a, P.balance s'.world x.mint a =
      P.balance s.world x.mint a + if a = x.recipientTokenAccount then amount.toNat else 0 := by
  have hcalled := hm.called
  rw [MintTokens.calls, List.foldlM_append] at hcalled
  obtain ⟨w, hcreate, hmint⟩ := Option.bind_eq_some_iff.1 hcalled
  obtain ⟨w', hmint, hrest⟩ := Option.bind_eq_some_iff.1 hmint
  rw [← Option.some.inj hrest]
  obtain ⟨hsupply, hbalance⟩ := laws.mintTo hmint
  -- creating the recipient's account moves nothing
  have hsame : P.SameTokens x.mint s.world w := by
    refine laws.foldlM_still ?_ hcreate
    intro c' hc'
    split_ifs at hc'
    · obtain rfl := List.mem_singleton.1 hc'
      rintro ⟨⟩
    · contradiction
  refine ⟨by rw [hsupply, hsame.supply], ?_⟩
  intro a
  rw [hbalance, hsame.balance]

theorem FreezeRoute.run_sameTokens (laws : P.MovesExactly) {r : FreezeRoute} {op : FreezeOp} (mint : Pubkey)
    (hr : r.run P s op = ok s') : P.SameTokens mint s.world s'.world := by
  obtain ⟨c, w, hc, hw, rfl⟩ := run_ok hr
  refine laws.still hw ?_
  rw [(call_quiet hc).1]
  exact nofun

/-- A seizure moves everything the source holds to the treasury. -/
theorem Seized.tokens (laws : P.MovesExactly) {x : Seize} {c : StablecoinConfig} {m : Mint} {t : TokenAccount}
    {p : Bool} {w₁ w₂ : W} (hs : Seized P now s s' x c m t p w₁ w₂) :
    P.balance s.world x.mint x.sourceTokenAccount = t.amount.toNat ∧
    P.supply s'.world x.mint = P.supply s.world x.mint ∧
    ∀ a, P.balance s'.world x.mint a + (if a = x.sourceTokenAccount then t.amount.toNat else 0) =
      P.balance s.world x.mint a + if a = x.treasuryTokenAccount then t.amount.toNat else 0 := by
  have hsource : P.balance s.world x.mint x.sourceTokenAccount = t.amount.toNat := by
    obtain ⟨ht, hmint, -⟩ := tokenAccountOf_eq_ok.1 hs.source
    rw [Programs.balance, ht, Option.elim_some, if_pos hmint]
  have hthaw : P.SameTokens x.mint s.world w₁ := FreezeRoute.run_sameTokens laws x.mint hs.thawed
  have hfreeze : P.SameTokens x.mint w₂ s'.world := FreezeRoute.run_sameTokens laws x.mint hs.frozenAgain
  have htransfer : P.supply w₂ x.mint = P.supply w₁ x.mint ∧
      ∀ a, P.balance w₂ x.mint a + (if a = x.sourceTokenAccount then t.amount.toNat else 0) =
        P.balance w₁ x.mint a + if a = x.treasuryTokenAccount then t.amount.toNat else 0 := by
    have hcalls := hs.transferred
    unfold Seize.calls at hcalls
    cases p with
    | true =>
      obtain ⟨wa, hresume, hcalls⟩ := Option.bind_eq_some_iff.1 hcalls
      obtain ⟨wb, hmove, hcalls⟩ := Option.bind_eq_some_iff.1 hcalls
      obtain ⟨wc, hpause, hcalls⟩ := Option.bind_eq_some_iff.1 hcalls
      obtain rfl := Option.some.inj hcalls
      have ha : P.SameTokens x.mint w₁ wa := laws.still hresume nofun
      have hc : P.SameTokens x.mint wb wc := laws.still hpause nofun
      obtain ⟨hsupply, hbalance⟩ := laws.transferChecked hmove
      refine ⟨by rw [hc.supply, hsupply, ha.supply], ?_⟩
      intro k
      rw [hc.balance, hbalance, ha.balance]
    | false =>
      obtain ⟨wa, hmove, hcalls⟩ := Option.bind_eq_some_iff.1 hcalls
      obtain rfl := Option.some.inj hcalls
      exact laws.transferChecked hmove
  refine ⟨hsource, ?_, ?_⟩
  · rw [hfreeze.supply, htransfer.1, hthaw.supply]
  · intro a
    rw [hfreeze.balance, htransfer.2, hthaw.balance]

/-- A mint starts without tokens. -/
theorem createMint_tokens (laws : P.MovesExactly) {x : Initialize} {args : InitializeArgs} {calls : List Call}
    {w w' : W} (hcalls : createMint P x args = ok calls) (hw : calls.foldlM P.invoke w = some w') :
    P.supply w' x.mint = 0 ∧ ∀ a, P.balance w' x.mint a = 0 := by
  have hsame : P.SameTokens x.mint w w' := by
    refine laws.foldlM_still ?_ hw
    intro c hc hmoves
    obtain hnone | heq := (createMint_within (.initializeStablecoin x args) hcalls c hc).moves
    · rw [hnone] at hmoves
      contradiction
    · rw [heq] at hmoves
      contradiction
  simp only [createMint, bind_eq_ok, pure_eq, Exec.ok.injEq, List.append_assoc] at hcalls
  obtain ⟨hook, -, rfl⟩ := hcalls
  obtain ⟨_, hcreate, -⟩ := Option.bind_eq_some_iff.1 hw
  obtain ⟨hsupply, hbalance⟩ := laws.vacant hcreate
  refine ⟨hsame.supply.trans hsupply, ?_⟩
  intro a
  exact (hsame.balance a).trans (hbalance a)

/-! ### The invariant -/

/-- The accounts of a mint hold no more than its supply, and what is outside the treasuries was minted
and not counted as burned. -/
structure StablecoinConfig.Circulates (P : Programs W) (s : State W) (c : StablecoinConfig) : Prop where
  within : Within (P.balance s.world c.mint) (P.supply s.world c.mint)
  bounded : c.totalBurned.toNat + P.supply s.world c.mint ≤
    c.totalMinted.toNat + ∑ k ∈ treasuries c.mint s.events, P.balance s.world c.mint k

def State.Circulates (P : Programs W) (s : State W) : Prop :=
  ∀ a c, s.ledger.configs a = some c → c.Circulates P s

namespace StablecoinConfig.Circulates

variable {c c' : StablecoinConfig}

/-- The numbers of the mint and the counters are the same. -/
theorem congr (hc : c.Circulates P s) (hmint : c.mint = c'.mint) (hm : c.totalMinted = c'.totalMinted)
    (hb : c.totalBurned = c'.totalBurned) (hsame : P.SameTokens c.mint s.world s'.world)
    (hT : treasuries c.mint s'.events = treasuries c.mint s.events) : c'.Circulates P s' := by
  refine ⟨?_, ?_⟩
  · rw [← hmint, hsame.supply]
    exact hc.within.congr hsame.balance
  · rw [← hmint, ← hm, ← hb, hsame.supply, hT, Finset.sum_congr rfl fun k _ => hsame.balance k]
    exact hc.bounded

/-- The tokens outside the treasuries were not counted as burned. -/
theorem burnable (hc : c.Circulates P s) {k : Pubkey} (hk : k ∉ treasuries c.mint s.events) :
    c.totalBurned.toNat + P.balance s.world c.mint k ≤ c.totalMinted.toNat := by
  have hle := hc.within.add_le hk
  have hbounded := hc.bounded
  omega

theorem le (hc : c.Circulates P s) : c.totalBurned ≤ c.totalMinted := by
  have hle := hc.within (treasuries c.mint s.events)
  have hbounded := hc.bounded
  exact UInt64.le_iff_toNat_le.2 (by omega)

end StablecoinConfig.Circulates

namespace State.Circulates

/-- One config and the tokens of its mint change: only that mint is in question. -/
theorem moved (laws : P.MovesExactly) (hl : s.ledger.Authorities P) (hs : s.Circulates P) {ix : Instruction}
    {a : Pda} {c c' : StablecoinConfig} {e : Event} (hx : exec P now s ix = ok s')
    (hc : s.ledger.configs a = some c) (hix : ix.moves = some c.mint)
    (hconfigs : s'.ledger.configs = update s.ledger.configs a (some c')) (hevents : s'.events = e :: s.events)
    (he : e.moves = some c.mint) (hc' : c'.Circulates P s') : s'.Circulates P := by
  intro b d hd
  rw [hconfigs] at hd
  obtain ⟨-, rfl⟩ | ⟨hne, hd⟩ := Ledger.update_eq_some.1 hd
  · exact hc'
  · have hother : c.mint ≠ d.mint := fun heq => hne (hl.config_unique hd hc heq.symm).1
    refine (hs b d hd).congr rfl rfl rfl (exec_sameTokens laws ?_ hx) ?_
    · rw [hix, ne_eq, Option.some.injEq]
      exact hother
    · rw [hevents]
      refine treasuries_cons_of_ne ?_
      rw [he, ne_eq, Option.some.injEq]
      exact hother

theorem mintTokens (laws : P.MovesExactly) (hl : s.ledger.Authorities P) (hs : s.Circulates P) {x : MintTokens}
    {amount : UInt64} (hx : mintHandler P now s x amount = ok s') : s'.Circulates P := by
  have hexec : exec P now s (.mintTokens x amount) = ok s' := hx
  obtain ⟨c, q, m, hm⟩ := mintHandler_ok hx
  obtain ⟨_, total, -, htotal, hledger⟩ := hm.wrote
  obtain ⟨hsupply, hbalance⟩ := hm.tokens laws
  have hmint : x.mint = c.mint := (mintAccount_eq_ok.1 hm.mint).2
  have hc := (configAccount_eq_ok.1 hm.config).1
  have hcirc := hs _ c hc
  rw [hmint] at hsupply hbalance
  refine hs.moved laws hl hexec hc (congrArg some hmint) (congrArg Ledger.configs hledger) hm.emitted rfl ⟨?_, ?_⟩
  · show Within (P.balance s'.world c.mint) (P.supply s'.world c.mint)
    rw [hsupply]
    exact hcirc.within.credit hbalance
  · show c.totalBurned.toNat + P.supply s'.world c.mint ≤
      total.toNat + ∑ k ∈ treasuries c.mint s'.events, P.balance s'.world c.mint k
    rw [hm.emitted, treasuries_cons_of_moves (by rfl), show (Event.treasury _ : Finset Pubkey) = ∅ from rfl,
      Finset.empty_union, sum_credit hbalance, hsupply, checkedAdd_eq_some.1 htotal]
    have hle := hcirc.bounded
    omega

theorem burnTokens (laws : P.MovesExactly) (hl : s.ledger.Authorities P) (hs : s.Circulates P) {x : BurnTokens}
    {amount : UInt64} (hstay : x.burnerTokenAccount ∉ treasuries x.mint s.events)
    (hx : burnHandler P now s x amount = ok s') : s'.Circulates P := by
  have hexec : exec P now s (.burnTokens x amount) = ok s' := hx
  obtain ⟨c, p, w, total, hc, hmint, -, -, hw, htotal, rfl⟩ := burnHandler_ok hx
  obtain ⟨hsupply, hbalance⟩ := laws.burn hw
  replace hc := (configAccount_eq_ok.1 hc).1
  have hcirc := hs _ c hc
  rw [hmint] at hsupply hbalance hstay
  refine hs.moved laws hl hexec hc (congrArg some hmint) rfl rfl rfl ⟨?_, ?_⟩
  · show Within (P.balance w c.mint) (P.supply w c.mint)
    have hwithin := hcirc.within
    rw [← hsupply] at hwithin
    exact hwithin.debit hbalance
  · show total.toNat + P.supply w c.mint ≤
      c.totalMinted.toNat + ∑ k ∈ treasuries c.mint (_ :: s.events), P.balance w c.mint k
    have hsum := sum_debit hbalance (treasuries c.mint s.events)
    rw [if_neg hstay] at hsum
    rw [treasuries_cons_of_moves (by rfl), show (Event.treasury _ : Finset Pubkey) = ∅ from rfl,
      Finset.empty_union, checkedAdd_eq_some.1 htotal]
    have hle := hcirc.bounded
    omega

theorem seize (laws : P.MovesExactly) (hl : s.ledger.Authorities P) (hs : s.Circulates P) {x : Seize}
    (hstay : x.sourceTokenAccount ∉ treasuries x.mint s.events) (hx : seizeHandler P now s x = ok s') :
    s'.Circulates P := by
  have hexec : exec P now s (.seize x) = ok s' := hx
  obtain ⟨c, m, t, p, w₁, w₂, hz⟩ := seizeHandler_ok hx
  obtain ⟨total, htotal, hledger⟩ := hz.wrote
  obtain ⟨hsource, hsupply, hbalance⟩ := hz.tokens laws
  have hmint : x.mint = c.mint := (mintAccount_eq_ok.1 hz.mint).2
  have hc := (configAccount_eq_ok.1 hz.config).1
  have hcirc := hs _ c hc
  rw [hmint] at hsource hsupply hbalance hstay
  refine hs.moved laws hl hexec hc (congrArg some hmint) (congrArg Ledger.configs hledger) hz.emitted rfl ⟨?_, ?_⟩
  · show Within (P.balance s'.world c.mint) (P.supply s'.world c.mint)
    rw [hsupply]
    exact hcirc.within.move hbalance
  · show total.toNat + P.supply s'.world c.mint ≤
      c.totalMinted.toNat + ∑ k ∈ treasuries c.mint s'.events, P.balance s'.world c.mint k
    -- what is counted as burned is now in the treasury
    have hsum := sum_insert_of_move hbalance hsource hstay
    rw [hz.emitted, treasuries_cons_of_moves (by rfl),
      show (Event.treasury _ : Finset Pubkey) = {x.treasuryTokenAccount} from rfl, Finset.singleton_union, hsupply,
      checkedAdd_eq_some.1 htotal]
    have hle := hcirc.bounded
    omega

/-- **Step.** -/
theorem exec (laws : P.MovesExactly) (hl : s.ledger.Authorities P) (hs : s.Circulates P) {ix : Instruction}
    (hstay : SeizedStay P s (.tx ix now true) s') (hx : exec P now s ix = ok s') : s'.Circulates P := by
  by_cases hix : ix.moves = none
  · obtain ⟨e, hevents, he⟩ := exec_emits hx
    have hT (mint : Pubkey) : treasuries mint s'.events = treasuries mint s.events := by
      rw [hevents]
      cases e with
      | none => rfl
      | some v =>
        refine treasuries_cons_of_ne ?_
        obtain hv | hv := he v rfl
        · rw [hv]
          exact nofun
        · rw [hv, hix]
          exact nofun
    intro a c' hc'
    obtain ⟨c, hc, hmint, hm, hb⟩ | ⟨⟨x, args, rfl, rfl⟩, -⟩ := exec_config_counters hl hix hx hc'
    · refine (hs a c hc).congr hmint hm hb (exec_sameTokens laws ?_ hx) (hT c.mint)
      rw [hix]
      exact nofun
    · obtain ⟨-, -, -, calls, w, hcalls, hw, rfl⟩ := initializeHandler_ok hx
      obtain ⟨hsupply, hbalance⟩ := createMint_tokens laws hcalls hw
      refine ⟨?_, ?_⟩
      · intro T
        exact (Finset.sum_eq_zero fun k _ => hbalance k).le.trans (Nat.zero_le _)
      · show 0 + P.supply w x.mint ≤ _
        rw [hsupply]
        exact Nat.zero_le _
  · cases ix <;> simp only [Instruction.moves, not_true_eq_false] at hix
    case mintTokens x amount => exact hs.mintTokens laws hl hx
    case burnTokens x amount => exact hs.burnTokens laws hl hstay hx
    case seize x => exact hs.seize laws hl hstay hx

/-- **Run.** -/
theorem of_run (laws : P.MovesExactly) (r : ((machine P).restrict (SeizedStay P)).Run h s) : s.Circulates P := by
  refine r.invariant (I := fun _ s => s.Circulates P) ?_ ?_
  · intro s hs a c hc
    rw [hs.1] at hc
    contradiction
  · intro h s e s' r hc hs
    obtain ⟨hstay, hs⟩ := hs
    cases hs with
    | succeeded hx => exact hc.exec laws (.of_reachable ⟨h, r.of_restrict⟩) hstay hx
    | failed => exact hc
    | outside w =>
      intro a c hconfig
      obtain ⟨hsupply, hwithin, hkept⟩ := hstay a c hconfig
      refine ⟨hwithin, ?_⟩
      have hle := (hc a c hconfig).bounded
      have hsum : ∑ k ∈ treasuries c.mint s.events, P.balance s.world c.mint k ≤
          ∑ k ∈ treasuries c.mint s.events, P.balance w c.mint k := Finset.sum_le_sum hkept
      show c.totalBurned.toNat + P.supply w c.mint ≤
        c.totalMinted.toNat + ∑ k ∈ treasuries c.mint s.events, P.balance w c.mint k
      have hsupply' : P.supply w c.mint ≤ P.supply s.world c.mint := hsupply
      omega

end State.Circulates

/-! ### Refused for a counter -/

/-- No other check of `burn_tokens` answers an overflow. -/
theorem burnHandler_overflow {x : BurnTokens} {amount : UInt64}
    (hx : burnHandler P now s x amount = err (.sss .overflow)) :
    ∃ c w, s.ledger.configs x.config = some c ∧ x.mint = c.mint ∧
      P.invoke s.world (.burn x.tokenProgram x.mint x.burnerTokenAccount x.burner amount) = some w ∧
      checkedAdd c.totalBurned amount = none := by
  simp only [burnHandler, configAccount, pauseAccount, roleAccount, mintAccount, tokenAccountOf, tokenInterface,
    checkSeeds, account, cpi, bind_eq_err, require_eq_err, orErr_eq_err, pure_eq, reduceCtorEq, and_false, or_false,
    false_or, Failure.sss.injEq, exists_false, and_true, bind_eq_ok, require_eq_ok, orErr_eq_ok, exists_const,
    Exec.ok.injEq] at hx
  obtain ⟨c, ⟨_, hc, -, rfl⟩, p, -, r, -, m, ⟨_, -, hmint, -⟩, t, -, -, -, -, -, -, _, ⟨w, hw, -⟩, hnone⟩ := hx
  exact ⟨_, w, hc, hmint, hw, hnone⟩

theorem FreezeRoute.run_ne_overflow {r : FreezeRoute} {op : FreezeOp} : r.run P s op ≠ err (.sss .overflow) := by
  intro h
  simp only [FreezeRoute.run, cpi, bind_eq_err, orErr_eq_err, pure_eq, reduceCtorEq, and_false, or_false,
    exists_false] at h
  unfold FreezeRoute.call at h
  cases op <;> split_ifs at h <;> simp at h

/-- Nor does any other of `seize`. -/
theorem seizeHandler_overflow {x : Seize} (hx : seizeHandler P now s x = err (.sss .overflow)) :
    ∃ c t, s.ledger.configs x.config = some c ∧ x.mint = c.mint ∧
      P.tokenAccount s.world x.sourceTokenAccount = some t ∧ t.mint = x.mint ∧
      checkedAdd c.totalBurned t.amount = none := by
  simp only [seizeHandler, configAccount, roleAccount, mintAccount, tokenAccountOf, tokenInterface, tokenAclAccounts,
    mintPaused, checkSeeds, account, cpis, FreezeRoute.run_ne_overflow, bind_eq_err, require_eq_err, orErr_eq_err,
    pure_eq, reduceCtorEq, and_false, or_false, false_or, Failure.sss.injEq, exists_false, and_true, bind_eq_ok,
    require_eq_ok, orErr_eq_ok, exists_const, Exec.ok.injEq] at hx
  obtain ⟨c, ⟨_, hc, -, rfl⟩, r, -, e, -, -, -, m, ⟨_, -, hmint, -⟩, t, ⟨_, ht, htmint, -, rfl⟩, hrest⟩ := hx
  obtain ⟨-, -, _, -, -, -, -, -, -, _, -, _, -, _, -, _, -, hnone⟩ := hrest
  exact ⟨_, _, hc, hmint, ht, htmint, hnone⟩

theorem checkedAdd_eq_none {a b : UInt64} : checkedAdd a b = none ↔ UInt64.size ≤ a.toNat + b.toNat := by
  unfold checkedAdd
  split_ifs with h
  · simpa using h
  · simpa using h

/-! ### The counters -/

/-- Mint 2 with minter 3, key 4 as blacklister and seizer, and burner 7. Wallet 5 is minted 2⁶³ and then
blacklisted, wallet 7 is minted 1. Each wallet's account has its key. -/
def blacklistedSample : List (Instruction × Int64) :=
  let config := vault.canonical (.config (sampleKey 2))
  let authorityRole := vault.canonical (.role (sampleKey 2) (sampleKey 1) .masterAuthority)
  let role (holder : Pubkey) (r : RoleType) : Instruction :=
    .updateRoles
      { authority := sampleKey 1, config, authorityRole, targetRole := vault.canonical (.role (sampleKey 2) holder r) }
      holder r true
  let minterRole := vault.canonical (.role (sampleKey 2) (sampleKey 3) .minter)
  let minterQuota := vault.canonical (.quota (sampleKey 2) (sampleKey 3))
  let mintTo (wallet : Pubkey) (amount : UInt64) : Instruction :=
    .mintTokens
      { minter := sampleKey 3, config, minterRole, minterQuota
        pauseState := vault.canonical (.pause (sampleKey 2))
        mint := sampleKey 2, recipientTokenAccount := wallet, recipient := wallet, tokenProgram := token2022Id
        reserveAttestation := vault.canonical (.reserve (sampleKey 2)) } amount
  [(initializeSample, 10),
    (.updateMinter { authority := sampleKey 1, config, authorityRole, minterRole, minterQuota } (sampleKey 3) 0
      .lifetime, 20),
    (role (sampleKey 4) .blacklister, 30), (role (sampleKey 4) .seizer, 40), (role (sampleKey 7) .burner, 50),
    (mintTo (sampleKey 5) 9223372036854775808, 60), (mintTo (sampleKey 7) 1, 70),
    (.addToBlacklist
      { operator := sampleKey 4, config
        operatorRole := vault.canonical (.role (sampleKey 2) (sampleKey 4) .blacklister)
        blacklistEntry := vault.canonical (.blacklist (sampleKey 2) (sampleKey 5))
        target := sampleKey 5, mint := sampleKey 2, targetTokenAccount := sampleKey 5, tokenProgram := token2022Id
        tokenAclProgram := tokenAclId, mintConfig := sampleKey 2 } .empty, 80)]

/-- What they leave: wallet 5 is blacklisted and holds 2⁶³. -/
def blacklistedState : State Vault := execAll vault ⟨.empty, .empty, []⟩ blacklistedSample

/-- Everything of wallet 5 goes to the account of wallet 7. -/
def seizeSample : Seize where
  seizer := sampleKey 4
  config := vault.canonical (.config (sampleKey 2))
  seizerRole := vault.canonical (.role (sampleKey 2) (sampleKey 4) .seizer)
  blacklistEntry := vault.canonical (.blacklist (sampleKey 2) (sampleKey 5))
  mint := sampleKey 2
  sourceTokenAccount := sampleKey 5
  sourceAuthority := sampleKey 5
  treasuryTokenAccount := sampleKey 7
  tokenProgram := token2022Id
  tokenAclProgram := tokenAclId
  mintConfig := sampleKey 2
  remainingAccounts := []

/-- Wallet 7 burns from its account. -/
def burnSample : BurnTokens where
  burner := sampleKey 7
  config := vault.canonical (.config (sampleKey 2))
  pauseState := vault.canonical (.pause (sampleKey 2))
  burnerRole := vault.canonical (.role (sampleKey 2) (sampleKey 7) .burner)
  mint := sampleKey 2
  burnerTokenAccount := sampleKey 7
  tokenProgram := token2022Id

/-- **Supply counters.** After any run the counters are the sums of what was minted and of what was burned
or seized, and a burn or a seizure is refused for a counter only when it would pass the largest number
there is. As long as seized tokens stay where they were put, `total_burned` is at most `total_minted`, and
no burn or seizure of tokens that exist is refused for a counter. -/
theorem supply_counters (laws : P.MovesExactly) :
    (∀ h s, (machine P).Run h s →
      (∀ a c, s.ledger.configs a = some c → c.totalMinted.toNat = mintedIn c.mint s.events ∧
        c.totalBurned.toNat = burnedIn c.mint s.events + seizedIn c.mint s.events) ∧
      (∀ now x amount, burnHandler P now s x amount = err (.sss .overflow) →
        ∃ c, s.ledger.configs x.config = some c ∧ UInt64.size ≤ c.totalBurned.toNat + amount.toNat) ∧
      ∀ now x, seizeHandler P now s x = err (.sss .overflow) →
        ∃ c t, s.ledger.configs x.config = some c ∧ P.tokenAccount s.world x.sourceTokenAccount = some t ∧
          UInt64.size ≤ c.totalBurned.toNat + t.amount.toNat) ∧
    ∀ h s, ((machine P).restrict (SeizedStay P)).Run h s →
      (∀ a c, s.ledger.configs a = some c → c.totalBurned ≤ c.totalMinted) ∧
      (∀ now x amount, x.burnerTokenAccount ∉ treasuries x.mint s.events →
        burnHandler P now s x amount ≠ err (.sss .overflow)) ∧
      ∀ now x, x.sourceTokenAccount ∉ treasuries x.mint s.events → seizeHandler P now s x ≠ err (.sss .overflow) := by
  refine ⟨?_, ?_⟩
  · intro h s r
    have hs := State.Counted.of_run r
    refine ⟨fun a c hc => ⟨hs.minted hc, hs.burned hc⟩, ?_, ?_⟩
    · intro now x amount hx
      obtain ⟨c, w, hc, -, -, hnone⟩ := burnHandler_overflow hx
      exact ⟨c, hc, checkedAdd_eq_none.1 hnone⟩
    · intro now x hx
      obtain ⟨c, t, hc, -, ht, -, hnone⟩ := seizeHandler_overflow hx
      exact ⟨c, t, hc, ht, checkedAdd_eq_none.1 hnone⟩
  · intro h s r
    have hs := State.Circulates.of_run laws r
    refine ⟨fun a c hc => (hs a c hc).le, ?_, ?_⟩
    · intro now x amount hstay hx
      obtain ⟨c, w, hc, hmint, hw, hnone⟩ := burnHandler_overflow hx
      -- the burn itself went through, so the account held the amount
      have hheld := (laws.burn hw).2 x.burnerTokenAccount
      rw [if_pos rfl] at hheld
      rw [hmint] at hstay hheld
      have hle := (hs _ c hc).burnable hstay
      have hlt := c.totalMinted.toNat_lt_size
      have hover := checkedAdd_eq_none.1 hnone
      omega
    · intro now x hstay hx
      obtain ⟨c, t, hc, hmint, ht, htmint, hnone⟩ := seizeHandler_overflow hx
      have hheld : P.balance s.world x.mint x.sourceTokenAccount = t.amount.toNat := by
        rw [Programs.balance, ht, Option.elim_some, if_pos htmint]
      rw [hmint] at hstay hheld
      have hle := (hs _ c hc).burnable hstay
      have hlt := c.totalMinted.toNat_lt_size
      have hover := checkedAdd_eq_none.1 hnone
      omega

/-- Up to the seizure, which leaves all that was seized in the account of wallet 7. -/
theorem supply_counters_sample :
    ∃ s c, ((machine vault).restrict (SeizedStay vault)).Reachable s ∧
      s.ledger.configs (vault.canonical (.config (sampleKey 2))) = some c ∧
      0 < c.totalBurned ∧ c.totalBurned ≤ c.totalMinted := by
  have hbefore : ((machine vault).restrict (SeizedStay vault)).Reachable
      (execAll vault ⟨.empty, .empty, []⟩ blacklistedSample) := by
    refine execAll_restrict ?_ ⟨[], .start ⟨rfl, rfl⟩⟩
    intro tx htx s b s'
    simp only [blacklistedSample, List.mem_cons, List.not_mem_nil, or_false] at htx
    obtain rfl | rfl | rfl | rfl | rfl | rfl | rfl | rfl := htx <;> trivial
  have hrun : (exec vault 90 (execAll vault ⟨.empty, .empty, []⟩ blacklistedSample) (.seize seizeSample)).isOk ∧
      sampleKey 5 ∉ treasuries (sampleKey 2) (execAll vault ⟨.empty, .empty, []⟩ blacklistedSample).events ∧
      ((execAll vault ⟨.empty, .empty, []⟩ (blacklistedSample ++ [(.seize seizeSample, 90)])).ledger.configs
        (vault.canonical (.config (sampleKey 2)))).any (fun c => decide (0 < c.totalBurned)) := by decide +kernel
  obtain ⟨hok, hstay, hcounted⟩ := hrun
  obtain ⟨s', hs'⟩ := isOk_iff.1 hok
  have hstep : SeizedStay vault (execAll vault ⟨.empty, .empty, []⟩ blacklistedSample)
      (.tx (.seize seizeSample) 90 true) s' := hstay
  obtain ⟨h, r⟩ := hbefore.step ⟨hstep, .succeeded hs'⟩
  have hlast : execAll vault ⟨.empty, .empty, []⟩ (blacklistedSample ++ [(.seize seizeSample, 90)]) = s' := by
    rw [execAll_append, execAll, hs']
    rfl
  rw [hlast] at hcounted
  obtain ⟨c, hc, hpos⟩ := (Option.any_eq_true _ _).1 hcounted
  exact ⟨s', c, ⟨h, r⟩, hc, of_decide_eq_true hpos, ((supply_counters vault_movesExactly).2 h s' r).1 _ c hc⟩

/-- Of 2⁶³ + 1 tokens 2⁶³ are seized, and 2 of the treasury's are burned: then more are counted as burned
than were minted, and the other 2⁶³ - 1 cannot be burned at once. -/
theorem counters_overrun :
    ∃ s c, (machine vault).Reachable s ∧ s.ledger.configs (vault.canonical (.config (sampleKey 2))) = some c ∧
      c.totalMinted < c.totalBurned ∧
      vault.balance s.world (sampleKey 2) (sampleKey 7) = 9223372036854775807 ∧
      burnHandler vault 110 s burnSample 9223372036854775807 = err (.sss .overflow) := by
  let txs := blacklistedSample ++ [(.seize seizeSample, 90), (.burnTokens burnSample 2, 100)]
  let s := execAll vault ⟨.empty, .empty, []⟩ txs
  have hreach : (machine vault).Reachable s := execAll_reachable ⟨[], .start ⟨rfl, rfl⟩⟩
  have hrun : (s.ledger.configs (vault.canonical (.config (sampleKey 2)))).any
      fun c => decide (c.totalMinted < c.totalBurned) := by decide +kernel
  obtain ⟨c, hc, hlt⟩ := (Option.any_eq_true _ _).1 hrun
  exact ⟨s, c, hreach, hc, of_decide_eq_true hlt, by decide +kernel, error?_eq_some.1 (by decide +kernel)⟩

end ThawGate.Token
