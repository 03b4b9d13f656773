import ThawGate.Keeper.HolderRuns

/-!
# The holder index and late calls

The index is exact when every owner's facts have the addresses of its mint's policy and the reverse map
has the pairs of the stored facts and no other. What breaks it is a call that comes back after the policy
it started under was replaced or its mint dropped: `settleOwner_exact_iff` says exactly when, and
`exact_of_timely` that nothing else does.
-/

namespace ThawGate.Keeper

/-! ### Exactness -/

/-- Facts have the addresses of their mint's policy, and the reverse map is the inverse of the forward one. -/
structure HolderIndex.Exact (d : Derivation) (s : HolderIndex) : Prop where
  facts : ∀ {mint owner : Pubkey} {e : MintEntry} {f : OwnerFacts},
    s.entryOf mint = some e → e.owners.lookup owner = some f → f.addresses = (d.facts e.policy mint owner).addresses
  dependents : ∀ {a mint owner : Pubkey},
    (mint, owner) ∈ s.dependents a ↔ ∃ f, s.factsOf mint owner = some f ∧ f.attestationPda = some a

namespace HolderIndex.Exact

variable {d : Derivation} {s s' : HolderIndex} {mint owner : Pubkey} {id : Nat}

theorem empty : (⟨[], ∅, fun _ => ∅⟩ : HolderIndex).Exact d := by
  refine ⟨?_, ?_⟩
  · intro mint owner e f he
    obtain ⟨id, hid, -⟩ := entryOf_eq_some.1 he
    rw [AList.lookup_empty] at hid
    contradiction
  · intro a mint owner
    simp [HolderIndex.dependents, factsOf, entryOf]

/-- Only policies, owners and the reverse map matter. -/
theorem congr (hx : s.Exact d)
    (he : ∀ m, (s'.entryOf m).map (fun e => (e.policy, e.owners)) = (s.entryOf m).map fun e => (e.policy, e.owners))
    (hd : s'.byAttestation = s.byAttestation) : s'.Exact d := by
  have hfacts : s'.factsOf = s.factsOf := by
    funext m o
    have h := congrArg (Option.bind · fun e => e.2.lookup o) (he m)
    simp only [Option.bind_map] at h
    exact h
  refine ⟨?_, ?_⟩
  · intro mint owner e f hentry hf
    have h := he mint
    rw [hentry, Option.map_some] at h
    obtain ⟨e', hentry', heq⟩ := Option.map_eq_some_iff.1 h.symm
    obtain ⟨hpolicy, howners⟩ := Prod.mk.inj heq
    rw [← hpolicy]
    rw [← howners] at hf
    exact hx.facts hentry' hf
  · intro a mint owner
    rw [HolderIndex.dependents, hd, hfacts]
    exact hx.dependents

/-- Dropping the owners of one mint, on both sides. -/
theorem drop (hx : s.Exact d) (hother : ∀ m, m ≠ mint → s'.entryOf m = s.entryOf m)
    (hmint : ∀ e, s'.entryOf mint = some e → e.owners = ∅)
    (hd : ∀ {a p}, p ∈ s'.dependents a ↔ p ∈ s.dependents a ∧ p.1 ≠ mint) : s'.Exact d := by
  have hnone (e : MintEntry) (o : Pubkey) (he : s'.entryOf mint = some e) : e.owners.lookup o = none := by
    rw [hmint e he, AList.lookup_empty]
  refine ⟨?_, ?_⟩
  · intro m o e f he hf
    obtain rfl | hm := eq_or_ne m mint
    · rw [hnone e o he] at hf
      contradiction
    · rw [hother m hm] at he
      exact hx.facts he hf
  · intro a m o
    rw [hd, hx.dependents]
    obtain rfl | hm := eq_or_ne m mint
    · constructor
      · exact fun h => absurd rfl h.2
      · intro ⟨f, hf, _⟩
        obtain ⟨e, he, hf⟩ := factsOf_eq_some.1 hf
        rw [hnone e o he] at hf
        contradiction
    · rw [factsOf, factsOf, hother m hm]
      exact and_iff_left hm

/-- `forgetOwners` deletes the pairs of its mint and no other. -/
theorem mem_forgetOwners (hx : s.Exact d) (hw : s.WellFormed) (hid : s.mints.lookup mint = some id) {a : Pubkey}
    {p : Pubkey × Pubkey} : p ∈ (s.forgetOwners id).dependents a ↔ p ∈ s.dependents a ∧ p.1 ≠ mint := by
  obtain ⟨e, he, hmint⟩ := hw.entry hid
  have hentry : s.entryOf mint = some e := entryOf_eq_some.2 ⟨id, hid, he⟩
  obtain ⟨m, o⟩ := p
  rw [HolderIndex.forgetOwners, he]
  refine mem_foldl_forget.trans (and_congr_right fun hp => ?_)
  constructor
  · intro hkept hm
    obtain ⟨f, hf, ha⟩ := hx.dependents.1 hp
    obtain rfl : m = mint := hm
    obtain ⟨e', he', hf⟩ := factsOf_eq_some.1 hf
    obtain rfl := Option.some.inj (hentry.symm.trans he')
    refine hkept f (Map.mem_values_iff.2 ⟨o, hf⟩) ⟨ha, ?_⟩
    rw [hw.owner he hf, hmint]
  · intro hm f _ h
    exact hm ((Prod.mk.inj h.2).1.trans hmint)

/-- Without an entry a mint has no pair. -/
theorem not_mem_of_lookup_none (hx : s.Exact d) (hnone : s.mints.lookup mint = none) {a : Pubkey} {p : Pubkey × Pubkey}
    (hp : p ∈ s.dependents a) : p.1 ≠ mint := by
  obtain ⟨f, hf, -⟩ := hx.dependents.1 hp
  obtain ⟨e, he, -⟩ := factsOf_eq_some.1 hf
  obtain ⟨id, hid, -⟩ := entryOf_eq_some.1 he
  rintro rfl
  rw [hnone] at hid
  contradiction

theorem setMint (hx : s.Exact d) (hw : s.WellFormed) {policyAddress : Pubkey} {policy : GatePolicy} :
    (s.setMint mint policyAddress policy).1.Exact d := by
  refine hx.drop (fun m hm => hw.setMint_entryOf_ne hm) (fun e he => setMint_owners he) ?_
  intro a p
  unfold HolderIndex.setMint
  cases hid : s.mints.lookup mint with
  | some id => exact hx.mem_forgetOwners hw hid
  | none => exact (and_iff_left_of_imp (hx.not_mem_of_lookup_none hid)).symm

theorem removeMint (hx : s.Exact d) (hw : s.WellFormed) : (s.removeMint mint).Exact d := by
  refine hx.drop (fun m hm => hw.removeMint_entryOf_ne hm) ?_ ?_
  · intro e he
    rw [removeMint_entryOf] at he
    contradiction
  · intro a p
    unfold HolderIndex.removeMint
    cases hid : s.mints.lookup mint with
    | some id => exact hx.mem_forgetOwners hw hid
    | none => exact (and_iff_left_of_imp (hx.not_mem_of_lookup_none hid)).symm

/-- Token accounts are no part of it. -/
theorem modify_accounts (hx : s.Exact d) {f : MintEntry → MintEntry}
    (hf : ∀ e, (f e).policy = e.policy ∧ (f e).owners = e.owners) : (s.modify id f).Exact d := by
  refine hx.congr ?_ rfl
  intro m
  rw [entryOf_modify]
  split_ifs
  · rw [Option.map_map]
    refine congrArg (Option.map · _) (funext fun e => ?_)
    exact Prod.ext (hf e).1 (hf e).2
  · rfl

theorem observe (hx : s.Exact d) {o : Observation} : (s.observe id o).Exact d := by
  cases o with
  | notification slot tokenAccount account => exact hx.modify_accounts fun _ => ⟨rfl, rfl⟩
  | listing slot accounts => exact hx.modify_accounts fun _ => ⟨rfl, rfl⟩
  | read slot tokenAccount found =>
    cases found with
    | some account => exact hx.modify_accounts fun _ => ⟨rfl, rfl⟩
    | none => exact hx
  | frozen slot tokenAccount owner => exact hx.modify_accounts fun _ => ⟨rfl, rfl⟩

end HolderIndex.Exact

/-! ### Calls that come back -/

/-- What a call comes back with still fits: its entry is in the index and has the addresses under its policy
of now, or the entry is gone and the reverse map has the pair already. -/
def HolderIndex.Timely (d : Derivation) (s : HolderIndex) (id : Nat) (owner : Pubkey) (e : MintEntry)
    (facts : OwnerFacts) : Prop :=
  if s.mints.lookup e.mint = some id then facts.addresses = (d.facts e.policy e.mint owner).addresses
  else ∀ a, facts.attestationPda = some a → (e.mint, owner) ∈ s.dependents a

section settle

variable {d : Derivation} {s : HolderIndex} {id : Nat} {owner : Pubkey} {e : MintEntry} {facts : OwnerFacts}

/-- The entry is still in the index. -/
theorem settleOwner_exact_of_current (hx : s.Exact d) (hw : s.WellFormed) (hs : s.Settles id owner e)
    (hid : s.mints.lookup e.mint = some id) :
    (s.settleOwner id owner facts).Exact d ↔ facts.addresses = (d.facts e.policy e.mint owner).addresses := by
  have hentry : s.entryOf e.mint = some e := HolderIndex.entryOf_eq_some.2 ⟨id, hid, hs.entry⟩
  have hself : (s.settleOwner id owner facts).entryOf e.mint =
      some { e with owners := e.owners.insert owner facts } := by
    rw [hs.entryOf, if_pos hid, hentry, Option.map_some]
  have hother (m : Pubkey) (hm : m ≠ e.mint) : (s.settleOwner id owner facts).entryOf m = s.entryOf m := by
    rw [hs.entryOf, if_neg (hw.lookup_ne hid hm)]
  constructor
  · intro hx'
    have haddr := hx'.facts hself (AList.lookup_insert _)
    exact haddr
  · intro haddr
    refine ⟨?_, ?_⟩
    · intro m o e' f he' hf
      obtain rfl | hm := eq_or_ne m e.mint
      · obtain rfl := Option.some.inj (hself.symm.trans he')
        obtain ⟨rfl, rfl⟩ | ⟨-, hf⟩ := Map.lookup_insert_eq_some.1 hf
        · exact haddr
        · have hkept := hx.facts hentry hf
          exact hkept
      · rw [hother m hm] at he'
        exact hx.facts he' hf
    · intro a m o
      rw [hs.mem_dependents, hx.dependents]
      obtain rfl | hm := eq_or_ne m e.mint
      · rw [HolderIndex.factsOf, HolderIndex.factsOf, hself, hentry, Option.bind_some, Option.bind_some]
        obtain rfl | ho := eq_or_ne o owner
        · simp [hs.first, AList.lookup_insert]
        · simp [AList.lookup_insert_ne ho, ho]
      · rw [HolderIndex.factsOf, HolderIndex.factsOf, hother m hm]
        simp [hm]

/-- The entry was dropped while the call waited. -/
theorem settleOwner_exact_of_dropped (hx : s.Exact d) (hw : s.WellFormed) (hs : s.Settles id owner e)
    (hid : s.mints.lookup e.mint ≠ some id) : (s.settleOwner id owner facts).Exact d ↔
      ∀ a, facts.attestationPda = some a → (e.mint, owner) ∈ s.dependents a := by
  have hentry (m : Pubkey) : (s.settleOwner id owner facts).entryOf m = s.entryOf m := by
    rw [hs.entryOf, if_neg]
    intro hm
    obtain rfl := hw.mint_eq hm hs.entry
    exact hid hm
  have hfacts : (s.settleOwner id owner facts).factsOf = s.factsOf := by
    funext m o
    rw [HolderIndex.factsOf, hentry, HolderIndex.factsOf]
  constructor
  · intro hx' a ha
    rw [hx.dependents, ← hfacts, ← hx'.dependents, hs.mem_dependents]
    exact .inr ⟨ha, rfl⟩
  · intro hmem
    refine ⟨?_, ?_⟩
    · intro m o e' f he'
      rw [hentry] at he'
      exact hx.facts he'
    · intro a m o
      rw [hfacts, ← hx.dependents, hs.mem_dependents]
      refine or_iff_left_of_imp ?_
      intro ⟨ha, hp⟩
      rw [hp]
      exact hmem a ha

/-- **Return.** An insertion keeps the index exact exactly when it is timely. -/
theorem settleOwner_exact_iff (hx : s.Exact d) (hw : s.WellFormed) (hs : s.Settles id owner e) :
    (s.settleOwner id owner facts).Exact d ↔ s.Timely d id owner e facts := by
  unfold HolderIndex.Timely
  split_ifs with hid
  · exact settleOwner_exact_of_current hx hw hs hid
  · exact settleOwner_exact_of_dropped hx hw hs hid

end settle

/-! ### Runs -/

/-- The call that a step ends, with the entry it comes back to, where it inserts. -/
def Holders.Returns (s : Holders) (i : Nat) (c : OwnerCall) (e : MintEntry) : Prop :=
  s.calls[i]? = some c ∧ c.awaits ≤ 1 ∧ s.index.Settles c.entry c.owner e

/-- A step in which no call comes back late. -/
def TimelyStep (d : Derivation) (s : Holders) (label : HolderLabel) (_ : Holders) : Prop :=
  ∀ i c e, label = .resume i → s.Returns i c e → s.index.Timely d c.entry c.owner e (c.facts d e)

section runs

variable {d : Derivation} {s s' : Holders} {label : HolderLabel}

theorem TimelyStep.of_ne (h : ∀ i, label ≠ .resume i) : TimelyStep d s label s' :=
  fun i _ _ hi => absurd hi (h i)

theorem HolderIndex.Exact.reload {s : HolderIndex} (hx : s.Exact d) (hw : s.WellFormed) (policyAddress : Pubkey)
    (policy : GatePolicy) : (s.reload policyAddress policy).Exact d := by
  unfold HolderIndex.reload
  split
  · exact hx.setMint hw
  · split_ifs
    · exact hx
    · exact hx.setMint hw

/-- Where nothing is derived, nothing happens between reading the policy and inserting. -/
theorem Holders.exact_startOwner (hx : s.index.Exact d) (hw : s.index.WellFormed) (mint owner : Pubkey) :
    (s.startOwner d mint owner).index.Exact d := by
  unfold Holders.startOwner
  split
  · exact hx
  · rename_i id hid
    split
    · exact hx
    · rename_i e he
      split_ifs with hknown
      · exact hx
      · have hmint := hw.mint_eq hid he
        rw [hmint] at hid
        have hs : s.index.Settles id owner e := ⟨he, by simpa using hknown⟩
        exact (settleOwner_exact_of_current hx hw hs hid).2 rfl
      · exact hx

/-- A call that comes back keeps the index exact exactly when it is timely. -/
theorem Holders.exact_resumeOwner (hx : s.index.Exact d) (hw : s.index.WellFormed) (i : Nat) :
    (s.resumeOwner d i).index.Exact d ↔
      ∀ c e, s.Returns i c e → s.index.Timely d c.entry c.owner e (c.facts d e) := by
  unfold Holders.resumeOwner
  cases hc : s.calls[i]? with
  | none =>
    refine iff_of_true hx ?_
    intro c e h
    rw [h.1] at hc
    contradiction
  | some c =>
    dsimp only
    split_ifs with hawaits
    · refine iff_of_true hx ?_
      intro c' e h
      obtain rfl := Option.some.inj (hc.symm.trans h.1)
      exact absurd h.2.1 (Nat.not_le.2 hawaits)
    · cases he : s.index.entries[c.entry]? with
      | none =>
        refine iff_of_true hx ?_
        intro c' e h
        obtain rfl := Option.some.inj (hc.symm.trans h.1)
        rw [h.2.2.entry] at he
        contradiction
      | some e =>
        dsimp only
        cases hg : e.owners.lookup c.owner with
        | some g =>
          rw [HolderIndex.settleOwner_of_known he hg]
          refine iff_of_true hx ?_
          intro c' e' h
          obtain rfl := Option.some.inj (hc.symm.trans h.1)
          obtain rfl := Option.some.inj (he.symm.trans h.2.2.entry)
          rw [h.2.2.first] at hg
          contradiction
        | none =>
          have hs : s.index.Settles c.entry c.owner e := ⟨he, hg⟩
          rw [settleOwner_exact_iff hx hw hs]
          constructor
          · intro ht c' e' h
            obtain rfl := Option.some.inj (hc.symm.trans h.1)
            obtain rfl := Option.some.inj (he.symm.trans h.2.2.entry)
            exact ht
          · exact fun h => h c e ⟨hc, Nat.not_lt.1 hawaits, hs⟩

/-- **Step.** From an exact index, a step leads to an exact one exactly when it is timely. -/
theorem exact_step_iff (hx : s.index.Exact d) (hw : s.index.WellFormed) (hs : (holders d).step s label s') :
    s'.index.Exact d ↔ TimelyStep d s label s' := by
  cases hs with
  | resume i =>
    rw [Holders.exact_resumeOwner hx hw]
    constructor
    · intro h j c e hj hr
      obtain rfl := HolderLabel.resume.inj hj
      exact h c e hr
    · exact fun h c e hr => h i c e rfl hr
  | setMint => exact iff_of_true (hx.setMint hw) (.of_ne nofun)
  | reload => exact iff_of_true (hx.reload hw _ _) (.of_ne nofun)
  | removeMint => exact iff_of_true (hx.removeMint hw) (.of_ne nofun)
  | owner => exact iff_of_true (Holders.exact_startOwner hx hw _ _) (.of_ne nofun)
  | observed => exact iff_of_true hx.observe (.of_ne nofun)

/-- **Run.** While no call comes back late, the index is exact, between calls and during them. -/
theorem exact_of_timely {h : List HolderLabel} (r : ((holders d).restrict (TimelyStep d)).Run h s) :
    s.index.Exact d := by
  refine r.invariant (I := fun _ s => s.index.Exact d) ?_ ?_
  · intro s hs
    rw [show s = _ from hs]
    exact .empty
  · intro h s label s' r hx hs
    exact (exact_step_iff hx (wellFormed_of_reachable ⟨h, r.of_restrict⟩) hs.2).2 hs.1

end runs

/-! ### A call that comes back late -/

/-- A derivation that tells the addresses below apart. -/
def sampleDerivation : Derivation where
  programDerivedAddress _ seeds := sampleKey (seeds.foldl (fun h seed => 31 * h + seed.headD 0) 7)
  isOffCurve _ := false

/-- Credential 10 under a schema, for mint 2. -/
def samplePolicy (schema : Pubkey) : GatePolicy :=
  ⟨sampleKey 2, sampleKey 1, sssTokenId, false, .off, true, sampleKey 10, schema, 0⟩

/-- Mint 2 is loaded under schema 11 and account 6 of wallet 5 listed; a check waits for that wallet's facts. -/
def waiting : Holders :=
  let index : HolderIndex := ⟨[], ∅, fun _ => ∅⟩
  let index := index.reload (sampleKey 3) (samplePolicy (sampleKey 11))
  let index := index.observe 0 (.listing 1 [(sampleKey 6, ⟨sampleKey 5, .initialized⟩)])
  Holders.startOwner sampleDerivation ⟨index, []⟩ (sampleKey 2) (sampleKey 5)

theorem waiting_run : ((holders sampleDerivation).restrict (TimelyStep sampleDerivation)).Run
    [.owner (sampleKey 2) (sampleKey 5), .observed 0 (.listing 1 [(sampleKey 6, ⟨sampleKey 5, .initialized⟩)]),
      .reload (sampleKey 3) (samplePolicy (sampleKey 11))] waiting := by
  have r₀ : ((holders sampleDerivation).restrict (TimelyStep sampleDerivation)).Run [] ⟨⟨[], ∅, fun _ => ∅⟩, []⟩ :=
    .start rfl
  have r₁ := r₀.step (e := .reload (sampleKey 3) (samplePolicy (sampleKey 11)))
    ⟨.of_ne nofun, HolderStep.reload ..⟩
  have r₂ := r₁.step (e := .observed 0 (.listing 1 [(sampleKey 6, ⟨sampleKey 5, .initialized⟩)]))
    ⟨.of_ne nofun, HolderStep.observed _ _ _ (Nat.lt_succ_self 0)⟩
  exact r₂.step (e := .owner (sampleKey 2) (sampleKey 5)) ⟨.of_ne nofun, HolderStep.owner ..⟩

theorem exact_of_timely_waiting : (waiting.resumeOwner sampleDerivation 0).index.Exact sampleDerivation := by
  have hs : (holders sampleDerivation).step waiting (.resume 0) (waiting.resumeOwner sampleDerivation 0) :=
    HolderStep.resume waiting 0
  refine exact_of_timely (waiting_run.step ⟨?_, hs⟩)
  intro i c e hi hr
  obtain rfl := HolderLabel.resume.inj hi
  have hc : waiting.calls[0]? = some ⟨0, sampleKey 5, samplePolicy (sampleKey 11), 1⟩ := by decide +kernel
  obtain rfl := Option.some.inj (hc.symm.trans hr.1)
  have he : (waiting.index.entries[0]?).map (fun e => (e.mint, e.policy)) =
      some (sampleKey 2, samplePolicy (sampleKey 11)) := by decide +kernel
  rw [hr.2.2.entry, Option.map_some] at he
  obtain ⟨hmint, hpolicy⟩ := Prod.mk.inj (Option.some.inj he)
  have hid : waiting.index.mints.lookup e.mint = some 0 := by
    rw [hmint]
    decide +kernel
  rw [HolderIndex.Timely, if_pos hid, OwnerCall.facts, hpolicy]

/-- The schema changes to 12 before the derivation is done. -/
def late : Holders :=
  Holders.resumeOwner sampleDerivation
    { waiting with
      index := (waiting.index.setMint (sampleKey 2) (sampleKey 3) (samplePolicy (sampleKey 12))).1 } 0

/-- No call is left, and wallet 5 has the attestation address of the schema before. -/
theorem late_not_exact : ∃ (d : Derivation) (h : List HolderLabel) (s : Holders),
    (holders d).Run h s ∧ s.calls = [] ∧ ¬s.index.Exact d := by
  have r₁ := waiting_run.of_restrict.step
    (HolderStep.setMint _ (sampleKey 2) (sampleKey 3) (samplePolicy (sampleKey 12)))
  have r₂ := r₁.step (HolderStep.resume _ 0)
  refine ⟨sampleDerivation, _, late, r₂, by decide +kernel, ?_⟩
  intro hx
  have hstale : (late.index.entryOf (sampleKey 2)).bind (fun e => (e.owners.lookup (sampleKey 5)).map fun f =>
      decide (f.addresses = (sampleDerivation.facts e.policy (sampleKey 2) (sampleKey 5)).addresses)) = some false := by
    decide +kernel
  obtain ⟨e, he, hstale⟩ := Option.bind_eq_some_iff.1 hstale
  obtain ⟨f, hf, hstale⟩ := Option.map_eq_some_iff.1 hstale
  exact of_decide_eq_false hstale (hx.facts he hf)

end ThawGate.Keeper
