import ThawGate.Keeper.Triggers

/-!
# A resync settles the cluster

`resync_settles`: once the freezes that a resync asked for have landed, nothing is left that the gate lets anyone
freeze, and the next resync asks for nothing.
-/

namespace ThawGate.Keeper

open Borsh Exec Lts

/-! ### Frozen accounts -/

section frozen

variable {c : Cluster} {d : Derivation} {k : Pubkey}

theorem gateId_ne_token2022Id : gateId ≠ token2022Id := by decide +kernel

/-- There is a frozen Token-2022 account at the address. -/
def Cluster.FrozenAt (c : Cluster) (k : Pubkey) : Prop :=
  ∃ account token, c.account k = some account ∧ account.owner = token2022Id ∧
    decodeTokenAccount account.data = .ok (some token) ∧ token.state = .frozen

theorem le_length_of_decode {data : Bytes} {token : TokenAccount} (h : decodeTokenAccount data = .ok (some token)) :
    165 ≤ data.length := by
  by_contra hlen
  rw [decodeTokenAccount, if_pos (.inl (not_le.1 hlen))] at h
  cases h

namespace Cluster.FrozenAt

theorem info_owner (h : c.FrozenAt k) : (c.info k).owner = token2022Id := by
  obtain ⟨account, _, haccount, howner, -, -⟩ := h
  rw [Cluster.info, haccount]
  exact howner

theorem info_data (h : c.FrozenAt k) : (c.info k).data ≠ [] := by
  obtain ⟨account, _, haccount, -, hdecode, -⟩ := h
  have hlen := le_length_of_decode hdecode
  rw [Cluster.info, haccount]
  intro hnil
  rw [show account.data = [] from hnil] at hlen
  cases hlen

theorem not_thawed (h : c.FrozenAt k) {mint owner : Pubkey} : ¬c.HoldsToken mint k ⟨owner, .initialized⟩ := by
  obtain ⟨account, token, haccount, -, hdecode, hfrozen⟩ := h
  rintro ⟨account', token', haccount', -, hdecode', -, htracked⟩
  obtain rfl := Option.some.inj (haccount.symm.trans haccount')
  obtain rfl := Option.some.inj (ok.inj (hdecode.symm.trans hdecode'))
  have hstate := congrArg TrackedAccount.state htracked
  rw [hfrozen] at hstate
  cases hstate

/-- It is no registry entry of another program. -/
theorem entry_malformed (h : c.FrozenAt k) {α : Type} (t : Gate.EntryType α) {issuer : Pubkey}
    (hissuer : issuer ≠ token2022Id) (mint wallet : Pubkey) : t.Malformed issuer mint wallet (c.info k) :=
  ⟨h.info_data, fun _ he => hissuer (he.owner.symm.trans h.info_owner)⟩

/-- And no attestation. -/
theorem attestation_malformed (h : c.FrozenAt k) (p : Gate.GatePolicy) (wallet : Pubkey) (now : Int64) :
    Gate.Sas.Malformed p wallet now (c.info k) := by
  refine ⟨h.info_data, ?_⟩
  intro a ha
  have hprogram := ha.program.symm.trans h.info_owner
  exact absurd hprogram (by decide +kernel)

end Cluster.FrozenAt

end frozen

/-! ### After the freezes -/

/-- From `c` to `c'` the token accounts of the calls were frozen, and nothing else has changed. -/
structure Cluster.Freezes (c c' : Cluster) (calls : List FreezeCall) : Prop where
  now : c'.now = c.now
  frozen : ∀ call ∈ calls, c'.FrozenAt call.tokenAccount
  other : ∀ k, (∀ call ∈ calls, call.tokenAccount ≠ k) → c'.account k = c.account k

/-- The gate lets anyone freeze this thawed account of the policy's mint. -/
structure Cluster.Due (c : Cluster) (d : Derivation) (config : MintFilter) (p : Gate.GatePolicy)
    (tokenAccount owner : Pubkey) : Prop where
  policy : c.HasPolicy d p
  considered : c.Considers d config p
  thawed : c.HoldsToken p.mint tokenAccount ⟨owner, .initialized⟩
  allowed : ∃ a, c.answer d p owner = .ok (.allow a)

section settled

variable {c c' : Cluster} {d : Derivation} {config : MintFilter} {p : Gate.GatePolicy} {owner ta : Pubkey}
  {calls : List FreezeCall}

namespace Cluster.Freezes

theorem cases (hf : c.Freezes c' calls) (k : Pubkey) : c'.account k = c.account k ∨ c'.FrozenAt k := by
  by_cases hcall : ∃ call ∈ calls, call.tokenAccount = k
  · obtain ⟨call, hmem, rfl⟩ := hcall
    exact .inr (hf.frozen call hmem)
  · exact .inl (hf.other k fun call hmem hk => hcall ⟨call, hmem, hk⟩)

theorem hasPolicy (hf : c.Freezes c' calls) (hp : c'.HasPolicy d p) : c.HasPolicy d p := by
  obtain hsame | ⟨account, _, haccount, howner, -, -⟩ := hf.cases (d.policyPda p.mint)
  · exact hsame.symm.trans hp
  · obtain rfl := Option.some.inj (haccount.symm.trans hp)
    exact absurd howner gateId_ne_token2022Id

theorem considers (hf : c.Freezes c' calls) (hp : c'.Considers d config p) : c.Considers d config p := by
  obtain ⟨hwanted, account, mintConfig, haccount, hdecode, hgated⟩ := hp
  obtain hsame | ⟨account', _, haccount', -, hdecode', -⟩ := hf.cases (d.mintConfigPda p.mint)
  · exact ⟨hwanted, account, mintConfig, hsame.symm.trans haccount, hdecode, hgated⟩
  · obtain rfl := Option.some.inj (haccount.symm.trans haccount')
    have hlen := le_length_of_decode hdecode'
    rw [decodeMintConfig, if_pos (by omega)] at hdecode
    cases hdecode

theorem gateAccounts (hf : c.Freezes c' calls) (hgate : c.GateAccounts d.policyPda) : c'.GateAccounts d.policyPda := by
  intro address account haccount howner hprefix
  obtain hsame | ⟨account', _, haccount', howner', -, -⟩ := hf.cases address
  · exact hgate address account (hsame.symm.trans haccount) howner hprefix
  · obtain rfl := Option.some.inj (haccount.symm.trans haccount')
    exact absurd (howner.symm.trans howner') gateId_ne_token2022Id

/-- What the decision reads, where it is readable, is what it was. -/
theorem readAs (hf : c.Freezes c' calls) (hissuer : p.issuerProgram ≠ token2022Id)
    (hreadable : ¬Gate.Unreadable (c'.runtime d) p owner (c'.ownerAccounts d p owner)) :
    (c'.ownerAccounts d p owner).ReadAs (c'.runtime d) p owner (c.ownerAccounts d p owner) := by
  refine ⟨fun hon => ?_, fun hon => ?_, fun hread => ?_⟩
  · obtain hsame | hfrozen := hf.cases (d.blacklistPda p.issuerProgram p.mint owner)
    · exact Cluster.info_congr hsame
    · exact absurd (.inl ⟨hon, hfrozen.entry_malformed _ hissuer _ _⟩) hreadable
  · obtain hsame | hfrozen := hf.cases (d.allowlistPda p.issuerProgram p.mint owner)
    · exact Cluster.info_congr hsame
    · exact absurd (.inr (.inl ⟨hon, hfrozen.entry_malformed _ hissuer _ _⟩)) hreadable
  · obtain hsame | hfrozen := hf.cases (d.attestationPda p.sasCredential p.sasSchema owner)
    · exact Cluster.info_congr hsame
    · exact absurd (.inr (.inr ⟨hread, hfrozen.attestation_malformed p owner _⟩)) hreadable

/-- What is due after the freezes was due before, and is not among them. -/
theorem due (hf : c.Freezes c' calls) (hissuer : p.issuerProgram ≠ token2022Id) (hdue : c'.Due d config p ta owner) :
    c.Due d config p ta owner ∧ ∀ call ∈ calls, call.tokenAccount ≠ ta := by
  have hother : ∀ call ∈ calls, call.tokenAccount ≠ ta := by
    rintro call hcall rfl
    exact (hf.frozen call hcall).not_thawed hdue.thawed
  refine ⟨⟨hf.hasPolicy hdue.policy, hf.considers hdue.considered, ?_, ?_⟩, hother⟩
  · obtain ⟨account, token, haccount, htoken⟩ := hdue.thawed
    exact ⟨account, token, (hf.other ta hother).symm.trans haccount, htoken⟩
  · have hruntime : c'.runtime d = c.runtime d := by rw [Cluster.runtime, hf.now, Cluster.runtime]
    have hpolicy := Gate.policyAccount_isPolicyOf p
    obtain ⟨hreadable, hflagged⟩ := ((c'.holder d p owner).freeze_allowed_iff (c'.runtime d) hpolicy).1 hdue.allowed
    have hread := hf.readAs hissuer hreadable
    refine ((c.holder d p owner).freeze_allowed_iff (c.runtime d) hpolicy).2 ?_
    rw [← hruntime]
    exact ⟨mt hread.unreadable.2 hreadable, hread.flagged.1 hflagged⟩

theorem reasonReadable (hf : c.Freezes c' calls) (hissuer : p.issuerProgram ≠ token2022Id)
    (hreadable : c.ReasonReadable d p owner) : c'.ReasonReadable d p owner := by
  rintro ⟨hon, hskip⟩
  obtain hsame | hfrozen := hf.cases (d.blacklistPda p.issuerProgram p.mint owner)
  · refine hreadable ⟨hon, ?_⟩
    rw [show (c.ownerAccounts d p owner).blacklist = (c'.ownerAccounts d p owner).blacklist from
      Cluster.info_congr hsame.symm]
    exact hskip
  · obtain ⟨⟨active, hshape⟩, -⟩ := hskip
    exact hissuer (hshape.program.symm.trans hfrozen.info_owner)

end Cluster.Freezes

/-- **A resync settles the cluster.** Once the freezes that it asked for have landed, and nothing else has changed, no
thawed account of a considered mint is left that the gate lets anyone freeze, and a resync from any index asks for
nothing. -/
theorem resync_settles (config : MintFilter) {labels labels' : List HolderLabel} {st st' : Holders}
    (r : ((holders d).restrict (TimelyStep d)).Run labels st)
    (r' : ((holders d).restrict (TimelyStep d)).Run labels' st') (hgate : c.GateAccounts d.policyPda)
    (hreadable : ∀ p owner, c.HasPolicy d p → c.ReasonReadable d p owner)
    (hissuer : ∀ p, c.HasPolicy d p → p.issuerProgram ≠ token2022Id) (observedAt observedAt' : Nat) :
    ∃ s₁ checks, resyncOnce d c config st.index observedAt = .ok (s₁, checks) ∧
      ∀ {c' : Cluster}, c.Freezes c' (checks.flatMap Prod.snd) → (∀ p ta owner, ¬c'.Due d config p ta owner) ∧
        ∃ s₂ checks', resyncOnce d c' config st'.index observedAt' = .ok (s₂, checks') ∧
          checks'.flatMap Prod.snd = [] := by
  obtain ⟨s₁, checks, hresync, hto, hfrom⟩ := resyncOnce_eq config r hgate observedAt
  refine ⟨s₁, checks, hresync, ?_⟩
  intro c' hf
  have hnone (p : Gate.GatePolicy) (ta owner : Pubkey) : ¬c'.Due d config p ta owner := by
    intro hdue
    obtain ⟨hbefore, hother⟩ := hf.due (hissuer p (hf.hasPolicy hdue.policy)) hdue
    obtain ⟨call, hcall, -, hta, -⟩ := (mem_calls_iff hto hfrom hbefore.policy (c.holder_runs p owner)
      (hreadable p owner hbefore.policy) ta).2 ⟨hbefore.considered, hbefore.thawed, hbefore.allowed⟩
    exact hother call hcall hta
  obtain ⟨s₂, checks', hresync', hto', -⟩ := resyncOnce_eq config r' (hf.gateAccounts hgate) observedAt'
  refine ⟨hnone, s₂, checks', hresync', List.eq_nil_iff_forall_not_mem.2 fun call hcall => ?_⟩
  obtain ⟨out, hout, hcall⟩ := List.mem_flatMap.1 hcall
  obtain ⟨m, p, hm⟩ := hto' out hout
  have hp := hf.hasPolicy hm.policy
  have hreadable' := hf.reasonReadable (hissuer p hp) (hreadable p call.owner hp)
  obtain ⟨hthawed, hallowed⟩ :=
    (hm.freezes (c'.holder_runs p call.owner) hreadable' call.tokenAccount).1 ⟨call, hcall, rfl, rfl⟩
  exact hnone p call.tokenAccount call.owner ⟨hm.policy, hm.considered, hthawed, hallowed⟩

end settled

/-! ### A sample -/

theorem sampleCluster_policy {p : Gate.GatePolicy} (hp : sampleCluster.HasPolicy sampleDerivation p) :
    p = Gate.samplePolicy := by
  rcases sampleCluster_cases hp with ⟨-, h⟩ | h | ⟨-, h⟩
  · exact absurd h gateId_ne_token2022Id
  · exact absurd h (show gateId ≠ tokenAclId by decide +kernel)
  · exact policy_eq_of_bytes (congrArg RawAccount.data h)

/-- No account of the sample is a blacklist entry. -/
theorem sampleCluster_readable (owner : Pubkey) :
    sampleCluster.ReasonReadable sampleDerivation Gate.samplePolicy owner := by
  rintro ⟨-, ⟨active, hshape⟩, -⟩
  have howner : (sampleCluster.info (sampleDerivation.blacklistPda sssTokenId (sampleKey 1) owner)).owner =
      sssTokenId := hshape.program
  unfold Cluster.info at howner
  split at howner
  · rename_i account haccount
    rcases sampleCluster_cases haccount with ⟨-, h⟩ | h | ⟨-, rfl⟩
    · exact absurd (howner.symm.trans h) (by decide +kernel)
    · exact absurd (howner.symm.trans h) (by decide +kernel)
    · exact absurd howner (show gateId ≠ sssTokenId by decide +kernel)
  · exact absurd howner (show Pubkey.default ≠ sssTokenId by decide +kernel)

/-- The sample, with account 7 frozen. -/
def frozenCluster : Cluster where
  accounts := sampleCluster.accounts.insert (sampleKey 7)
    ⟨token2022Id, (sampleKey 1).1 ++ (sampleKey 5).1 ++ List.replicate 44 0 ++ [2] ++ List.replicate 56 0⟩
  now := 1000

theorem sampleCluster_freezes {calls : List FreezeCall}
    (hcalls : calls = [⟨sampleKey 1, sampleKey 7, sampleKey 5, .resync, 0, none⟩]) :
    sampleCluster.Freezes frozenCluster calls := by
  rw [hcalls]
  refine ⟨rfl, ?_, ?_⟩
  · intro call hcall
    obtain rfl := List.mem_singleton.1 hcall
    exact ⟨_, ⟨sampleKey 1, sampleKey 5, 0, .frozen⟩, AList.lookup_insert _, rfl, by decide +kernel, rfl⟩
  · intro k hk
    exact AList.lookup_insert_ne (hk _ (List.mem_singleton_self _)).symm

/-- The calls of a resync that does not throw. -/
def callsOf (out : Exec Empty (HolderIndex × List (List Judgement × List FreezeCall))) : List FreezeCall :=
  match out with
  | .ok (_, checks) => checks.flatMap Prod.snd
  | _ => []

theorem sampleCluster_calls : callsOf (resyncOnce sampleDerivation sampleCluster ⟨none, []⟩ ⟨[], ∅, fun _ => ∅⟩ 0) =
    [⟨sampleKey 1, sampleKey 7, sampleKey 5, .resync, 0, none⟩] := by
  decide +kernel

theorem resync_settles_sample : ∃ s₁ checks s₂ checks',
    resyncOnce sampleDerivation sampleCluster ⟨none, []⟩ ⟨[], ∅, fun _ => ∅⟩ 0 = .ok (s₁, checks) ∧
      checks.flatMap Prod.snd = [⟨sampleKey 1, sampleKey 7, sampleKey 5, .resync, 0, none⟩] ∧
      resyncOnce sampleDerivation frozenCluster ⟨none, []⟩ ⟨[], ∅, fun _ => ∅⟩ 1 = .ok (s₂, checks') ∧
        checks'.flatMap Prod.snd = [] := by
  have r : ((holders sampleDerivation).restrict (TimelyStep sampleDerivation)).Run [] ⟨⟨[], ∅, fun _ => ∅⟩, []⟩ :=
    .start rfl
  have hissuer (p : Gate.GatePolicy) (hp : sampleCluster.HasPolicy sampleDerivation p) :
      p.issuerProgram ≠ token2022Id := by
    rw [sampleCluster_policy hp]
    decide +kernel
  have hreadable (p : Gate.GatePolicy) (owner : Pubkey) (hp : sampleCluster.HasPolicy sampleDerivation p) :
      sampleCluster.ReasonReadable sampleDerivation p owner := by
    rw [sampleCluster_policy hp]
    exact sampleCluster_readable owner
  obtain ⟨s₁, checks, hresync, hsettles⟩ :=
    resync_settles ⟨none, []⟩ r r sampleCluster_gateAccounts hreadable hissuer 0 1
  have hcalls : checks.flatMap Prod.snd = [⟨sampleKey 1, sampleKey 7, sampleKey 5, .resync, 0, none⟩] :=
    (congrArg callsOf hresync).symm.trans sampleCluster_calls
  obtain ⟨-, s₂, checks', hresync', hnone⟩ := hsettles (sampleCluster_freezes hcalls)
  exact ⟨s₁, checks, s₂, checks', hresync, hcalls, hresync', hnone⟩

end ThawGate.Keeper
