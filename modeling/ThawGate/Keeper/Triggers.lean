import ThawGate.Keeper.Announced

/-!
# No refusal without a trigger

Between two reads of the cluster, a wallet that the gate found compliant can become one that it lets anyone freeze.
`refusal_triggers`: then sss-token emitted an event that sets off a check of the wallet, or the account at the wallet's
attestation address is another, so that a SAS transaction with this address sets off one, or the attestation expired,
which only a sweep sees.
-/

namespace ThawGate.Keeper

open Borsh Exec Lts Token

/-- `onSasLogs`, once it has read the transaction's account keys: the owners that it checks, with their mints. -/
def onSasLogs (s : HolderIndex) (keys : List Pubkey) (failed : Bool) : Finset (Pubkey × Pubkey) :=
  if failed then ∅ else keys.toFinset.biUnion s.dependents

theorem mem_onSasLogs {s : HolderIndex} {keys : List Pubkey} {q : Pubkey × Pubkey} :
    q ∈ onSasLogs s keys false ↔ ∃ a ∈ keys, q ∈ s.dependents a := by
  simp only [onSasLogs, Bool.false_eq_true, if_false, Finset.mem_biUnion, List.mem_toFinset]

/-! ### Calls and events -/

namespace EventKind

/-- The entry that an event is about. -/
def entry (mint wallet : Pubkey) : EventKind → Seeds
  | .addedToBlacklist => .blacklist mint wallet
  | .allowlistRemoved => .allowlist mint wallet

/-- What the entry is set to where it is emitted. -/
def active : EventKind → Bool
  | .addedToBlacklist => true
  | .allowlistRemoved => false

end EventKind

section emitted

variable {W : Type} {P : Programs W} {h h' : List Token.Label} {st st' : Stored entryAccounts W} {kind : EventKind}
  {mint wallet : Pubkey}

/-- A call that leaves the entry as the kind says emits the event. -/
theorem announces_of_sets {s s' : State W} {now : Int64} {ix : Instruction} (hx : exec P now s ix = ok s')
    (hsets : ix.sets = some (P.canonical (kind.entry mint wallet), kind.active)) :
    announces ix = some ⟨kind, mint, wallet⟩ := by
  cases ix with
  | addToBlacklist x reason =>
    obtain ⟨hentry, hactive⟩ := Prod.mk.inj (Option.some.inj hsets)
    cases kind with
    | addedToBlacklist =>
      rw [announces, hentry]
      rfl
    | allowlistRemoved => cases hactive
  | removeFromBlacklist x =>
    obtain ⟨hentry, hactive⟩ := Prod.mk.inj (Option.some.inj hsets)
    obtain ⟨c, _, e, -, -, -, -, haddr, -⟩ := handlerRemoveFromBlacklist_ok hx
    cases kind with
    | addedToBlacklist => cases hactive
    | allowlistRemoved => cases congrArg Pda.seeds (haddr.symm.trans hentry)
  | addToAllowlistV3 x =>
    obtain ⟨hentry, hactive⟩ := Prod.mk.inj (Option.some.inj hsets)
    obtain ⟨c, _, -, he, -, -⟩ := addToAllowlistHandler_ok hx
    cases kind with
    | addedToBlacklist => cases congrArg Pda.seeds ((initIfNeeded_eq_ok he).1.symm.trans hentry)
    | allowlistRemoved => cases hactive
  | removeFromAllowlistV3 x =>
    obtain ⟨hentry, hactive⟩ := Prod.mk.inj (Option.some.inj hsets)
    cases kind with
    | addedToBlacklist => cases hactive
    | allowlistRemoved =>
      rw [announces, hentry]
      rfl
  | _ => cases hsets

/-- **Run.** If the last call on the entry comes to be one of the kind's, then some call was. -/
theorem announced_of_lastCall (kind : EventKind) (path : (storage entryAccounts P).Path st h' st')
    (hbefore : lastCall (P.canonical (kind.entry mint wallet)) h ≠ some kind.active)
    (hafter : lastCall (P.canonical (kind.entry mint wallet)) (h' ++ h) = some kind.active) :
    ∃ l ∈ h', announced l = some ⟨kind, mint, wallet⟩ := by
  induction path with
  | refl => exact absurd hafter hbefore
  | @step h' _ _ l path hs ih =>
    by_cases hmid : lastCall (P.canonical (kind.entry mint wallet)) (h' ++ h) = some kind.active
    · obtain ⟨l', hmem, hl'⟩ := ih hmid
      exact ⟨l', .tail _ hmem, hl'⟩
    cases hs with
    | @succeeded ix now s data hx _ =>
      cases hsets : ix.sets with
      | none =>
        rw [List.cons_append, lastCall_of_none hsets] at hafter
        exact absurd hafter hmid
      | some write =>
        obtain ⟨b, active⟩ := write
        rw [List.cons_append, lastCall_of_sets hsets] at hafter
        by_cases hb : b = P.canonical (kind.entry mint wallet)
        · rw [if_pos hb] at hafter
          rw [hb, Option.some.inj hafter] at hsets
          exact ⟨_, .head _, announces_of_sets hx hsets⟩
        · rw [if_neg hb] at hafter
          exact absurd hafter hmid
    | failed _ => exact absurd hafter hmid
    | outside _ => exact absurd hafter hmid

/-- Some event emitted in between is of this kind, about this wallet of the mint. -/
def Announced (st st' : Stored entryAccounts W) (kind : EventKind) (mint wallet : Pubkey) : Prop :=
  ∃ events, st'.state.events = events ++ st.state.events ∧ ∃ e ∈ events, issuerEvent e = some ⟨kind, mint, wallet⟩

/-- So the event was emitted. -/
theorem announced_of_path (kind : EventKind) (r : (storage entryAccounts P).Run h st)
    (path : (storage entryAccounts P).Path st h' st')
    (hbefore : lastCall (P.canonical (kind.entry mint wallet)) h ≠ some kind.active)
    (hafter : lastCall (P.canonical (kind.entry mint wallet)) (h' ++ h) = some kind.active) :
    Announced st st' kind mint wallet := by
  obtain ⟨l, hl, hcall⟩ := announced_of_lastCall kind path hbefore hafter
  obtain ⟨events, hevents, hannounced⟩ := path_announces r path
  have hmem : ⟨kind, mint, wallet⟩ ∈ h'.filterMap announced := List.mem_filterMap.2 ⟨l, hl, hcall⟩
  rw [← hannounced] at hmem
  obtain ⟨e, he, hissuer⟩ := List.mem_filterMap.1 hmem
  exact ⟨events, hevents, e, he, hissuer⟩

theorem lastCall_append_ne_none {a : Pda} (hcall : lastCall a h ≠ none) (h' : List Token.Label) :
    lastCall a (h' ++ h) ≠ none := by
  induction h' with
  | nil => exact hcall
  | cons l h' ih =>
    match l with
    | .tx ix now true =>
      cases hsets : ix.sets with
      | none =>
        rw [List.cons_append, lastCall_of_none hsets]
        exact ih
      | some write =>
        rw [List.cons_append, lastCall_of_sets hsets]
        split_ifs
        · exact Option.some_ne_none _
        · exact ih
    | .tx _ _ false => exact ih
    | .outside => exact ih

end emitted

/-! ### What turns a wallet over -/

/-- A credential that was valid, under the same policy and in the same account, is one that expired. -/
theorem expired_of_credential {p : Gate.GatePolicy} {wallet : Pubkey} {now now' : Int64} {info : AccountInfo}
    {credential : Gate.Credential} (hvalid : Gate.Sas.Says p wallet now info .valid)
    (hfound : Gate.Sas.Says p wallet now' info credential) (hne : credential ≠ .valid) :
    ∃ a, Gate.Attestation.Holds p wallet info a ∧ ¬a.Expired now ∧ a.Expired now' := by
  obtain ⟨hdata, a, ha, hlive, hlevel⟩ := hvalid
  by_cases hexp : a.Expired now'
  · exact ⟨a, ha, hlive, hexp⟩
  · have hstill : Gate.Sas.Says p wallet now' info .valid := ⟨hdata, a, ha, hexp, hlevel⟩
    exact absurd (hfound.unique hstill) hne

section turned

variable {W : Type} {P : Programs W} {h h' : List Token.Label} {d : Derivation} {c c' : Cluster}
  {p : Gate.GatePolicy} {wallet : Pubkey}

theorem refused_cases (hreadable : ¬CredentialMalformed P h d c p wallet) (hbefore : ¬Refused P h d c p wallet)
    (hafter : Refused P h' d c' p wallet) :
    (lastCall (P.canonical (.blacklist p.mint wallet)) h ≠ some true ∧
        lastCall (P.canonical (.blacklist p.mint wallet)) h' = some true) ∨
      (lastCall (P.canonical (.allowlist p.mint wallet)) h = some true ∧
        lastCall (P.canonical (.allowlist p.mint wallet)) h' ≠ some true) ∨
      (p.requireSas = true ∧ Gate.Sas.Says p wallet c.now (c.ownerAccounts d p wallet).attestation .valid ∧
        ∃ credential, Gate.Sas.Says p wallet c'.now (c'.ownerAccounts d p wallet).attestation credential ∧
          credential ≠ .valid) := by
  simp only [Refused, not_or] at hbefore
  obtain ⟨hblack, hallow, hcredential⟩ := hbefore
  rcases hafter with ⟨hon, hlisted⟩ | ⟨hmode, hlisted⟩ | ⟨⟨hsas, hasks⟩, credential, hfound, hne⟩
  · exact .inl ⟨fun hcall => hblack ⟨hon, hcall⟩, hlisted⟩
  · exact .inr (.inl ⟨not_not.1 fun hcall => hallow ⟨hmode, hcall⟩, hlisted⟩)
  · by_cases hbypass : p.allowlistMode = .bypassForPdas ∧
        lastCall (P.canonical (.allowlist p.mint wallet)) h = some true ∧ d.isOffCurve wallet = true
    · -- The allowlist entry that stood in for the credential is no longer active.
      obtain ⟨hmode, hcall, hcurve⟩ := hbypass
      exact .inr (.inl ⟨hcall, fun hcall' => hasks ⟨hmode, hcall', hcurve⟩⟩)
    · have hasked : AsksCredential P h d p wallet := ⟨hsas, hbypass⟩
      obtain ⟨before, hbefore⟩ | hmalformed :=
        Gate.Sas.says_or_malformed p wallet c.now (c.ownerAccounts d p wallet).attestation
      · have hvalid : before = .valid := not_not.1 fun hne => hcredential ⟨hasked, before, hbefore, hne⟩
        rw [hvalid] at hbefore
        exact .inr (.inr ⟨hsas, hbefore, credential, hfound, hne⟩)
      · exact absurd ⟨hasked, hmalformed⟩ hreadable

end turned

/-! ### The triggers -/

theorem Cluster.info_congr {c c' : Cluster} {address : Pubkey} (h : c.account address = c'.account address) :
    c.info address = c'.info address := by
  rw [info, info, h]

/-- The gate's answer to a freeze of the wallet's account, run where the keeper reads. -/
def Cluster.answer (c : Cluster) (d : Derivation) (p : Gate.GatePolicy) (wallet : Pubkey) : Exec Empty Gate.Decision :=
  Gate.decide (c.runtime d) ((c.holder d p wallet).context p (Gate.policyAccount p)) .freeze

section triggers

variable {W : Type} {P : Programs W} {h h' : List Token.Label} {st st' : Stored entryAccounts W} {d : Derivation}
  {c c' : Cluster} {p : Gate.GatePolicy} {wallet : Pubkey}

theorem answer_compliant_iff (r : (storage entryAccounts P).Run h st) (hc : c.HasEntries d P st p.mint wallet)
    (hissuer : p.issuerProgram = sssTokenId) : c.answer d p wallet = .ok (.deny .compliant) ↔
      ¬CredentialMalformed P h d c p wallet ∧ ¬Refused P h d c p wallet := by
  rw [← unreadable_iff_malformed r hc hissuer, ← flagged_iff_refused r hc hissuer]
  exact (c.holder d p wallet).freeze_compliant_iff (c.runtime d) (Gate.policyAccount_isPolicyOf p)

theorem answer_allow_iff (r : (storage entryAccounts P).Run h st) (hc : c.HasEntries d P st p.mint wallet)
    (hissuer : p.issuerProgram = sssTokenId) : (∃ a, c.answer d p wallet = .ok (.allow a)) ↔
      ¬CredentialMalformed P h d c p wallet ∧ Refused P h d c p wallet := by
  rw [← unreadable_iff_malformed r hc hissuer, ← flagged_iff_refused r hc hissuer]
  exact (c.holder d p wallet).freeze_allowed_iff (c.runtime d) (Gate.policyAccount_isPolicyOf p)

/-- An event of the kind sets off a check of its wallet, in every index that has the mint under the policy. -/
theorem requestFor_of_tracked (wallet : Pubkey) {idx : HolderIndex} {e : MintEntry}
    (he : idx.entryOf p.mint = some e) (hpolicy : e.policy = .of p) (hissuer : p.issuerProgram = sssTokenId)
    (kind : EventKind) :
    idx.requestFor sssTokenId ⟨kind, p.mint, wallet⟩ = some ⟨p.mint, wallet, kind.trigger⟩ := by
  refine requestFor_eq_some.2 ⟨e, he, ?_, rfl⟩
  rw [hpolicy]
  exact hissuer

/-- The reverse map has a wallet whose facts the index has. -/
theorem mem_dependents_of_facts {idx : HolderIndex} (hx : idx.Exact d) {e : MintEntry} {f : OwnerFacts}
    (he : idx.entryOf p.mint = some e) (hpolicy : e.policy = .of p) (hf : e.owners.lookup wallet = some f)
    (hsas : p.requireSas = true) :
    (p.mint, wallet) ∈ idx.dependents (d.attestationPda p.sasCredential p.sasSchema wallet) := by
  have hfacts : idx.factsOf p.mint wallet = some f := by rw [HolderIndex.factsOf, he, Option.bind_some, hf]
  refine hx.dependents.2 ⟨f, hfacts, ?_⟩
  have haddresses := congrArg Prod.fst (hx.facts he hf)
  rw [hpolicy] at haddresses
  exact haddresses.trans (if_pos hsas)

/-- **No refusal without a trigger.** If the gate finds a wallet compliant and later lets anyone freeze it under the
same policy, then the registry announced the change in between, or the account at the wallet's attestation address is
another, or the same attestation expired. Where the keeper has the mint under this policy, it checks the wallet on
hearing the event, or on a SAS transaction with the address once it has derived it. -/
theorem refusal_triggers (r : (storage entryAccounts P).Run h st)
    (path : (storage entryAccounts P).Path st h' st')
    (hissuer : p.issuerProgram = sssTokenId) (hc : c.HasEntries d P st p.mint wallet)
    (hc' : c'.HasEntries d P st' p.mint wallet) (hbefore : c.answer d p wallet = .ok (.deny .compliant))
    (hafter : ∃ a, c'.answer d p wallet = .ok (.allow a)) {labels : List HolderLabel} {idx : Holders}
    (ri : ((holders d).restrict (TimelyStep d)).Run labels idx) {e : MintEntry}
    (he : idx.index.entryOf p.mint = some e) (hpolicy : e.policy = .of p) :
    (∃ kind, Announced st st' kind p.mint wallet ∧
        idx.index.requestFor sssTokenId ⟨kind, p.mint, wallet⟩ = some ⟨p.mint, wallet, kind.trigger⟩) ∨
      ((c.ownerRaw d p wallet).attestation ≠ (c'.ownerRaw d p wallet).attestation ∧
        ∀ (f : OwnerFacts) (keys : List Pubkey), e.owners.lookup wallet = some f →
          d.attestationPda p.sasCredential p.sasSchema wallet ∈ keys →
            (p.mint, wallet) ∈ onSasLogs idx.index keys false) ∨
      ∃ a, Gate.Attestation.Holds p wallet (c'.ownerAccounts d p wallet).attestation a ∧
        ¬a.Expired c.now ∧ a.Expired c'.now := by
  obtain ⟨hreadable, hok⟩ := (answer_compliant_iff r hc hissuer).1 hbefore
  obtain ⟨-, hrefused⟩ := (answer_allow_iff (r.append path) hc' hissuer).1 hafter
  have hrequest := requestFor_of_tracked wallet he hpolicy hissuer
  rcases refused_cases hreadable hok hrefused with ⟨hcall, hcall'⟩ | ⟨hcall, hcall'⟩ | ⟨hsas, hvalid, _, hfound, hne⟩
  · have hannounced := announced_of_path .addedToBlacklist r path hcall hcall'
    exact .inl ⟨.addedToBlacklist, hannounced, hrequest _⟩
  · have hset : lastCall (P.canonical (.allowlist p.mint wallet)) (h' ++ h) = some false := by
      obtain ⟨active, hactive⟩ := Option.ne_none_iff_exists'.1
        (lastCall_append_ne_none (hcall.trans_ne (Option.some_ne_none true)) h')
      rw [hactive] at hcall' ⊢
      cases active with
      | true => exact absurd rfl hcall'
      | false => rfl
    have hnot : lastCall (P.canonical (.allowlist p.mint wallet)) h ≠ some false := by
      rw [hcall]
      decide
    have hannounced := announced_of_path .allowlistRemoved r path hnot hset
    exact .inl ⟨.allowlistRemoved, hannounced, hrequest _⟩
  · by_cases hsame : (c.ownerRaw d p wallet).attestation = (c'.ownerRaw d p wallet).attestation
    · have hinfo : (c.ownerAccounts d p wallet).attestation = (c'.ownerAccounts d p wallet).attestation :=
        Cluster.info_congr hsame
      rw [hinfo] at hvalid
      exact .inr (.inr (expired_of_credential hvalid hfound hne))
    · refine .inr (.inl ⟨hsame, ?_⟩)
      intro f keys hf hmem
      exact mem_onSasLogs.2 ⟨_, hmem, mem_dependents_of_facts (exact_of_timely ri) he hpolicy hf hsas⟩

end triggers

/-- Wallet 5 of mint 2, before and after it is put on the blacklist. -/
theorem refusal_triggers_sample : ∃ (st st' : Stored entryAccounts Bank) (c c' : Cluster),
    c.answer sampleDerivation blacklistPolicy (sampleKey 5) = .ok (.deny .compliant) ∧
      (∃ a, c'.answer sampleDerivation blacklistPolicy (sampleKey 5) = .ok (.allow a)) ∧
      ∃ kind, Announced st st' kind (sampleKey 2) (sampleKey 5) := by
  obtain ⟨h, r⟩ := Hook.blacklistedSample_reachable
  obtain ⟨st', r', hst'⟩ := Stored.of_run entryAccounts r
  obtain ⟨st, r₀, path⟩ := r'.path
  let c : Cluster := ⟨∅, 0⟩
  let entry := st'.data (bank.canonical (.blacklist (sampleKey 2) (sampleKey 5)))
  let c' := blacklistedCluster entry
  have hentries : c.HasEntries sampleDerivation bank st (sampleKey 2) (sampleKey 5) := by
    cases r₀ with
    | start hstart =>
      have hdata (a : Pda) : st.data a = [] := congrFun hstart.2.2 a
      constructor
      · exact ⟨(hdata _).symm, fun hne => absurd rfl hne⟩
      · exact ⟨(hdata _).symm, fun hne => absurd rfl hne⟩
  have hentries' := blacklistedCluster_hasEntries r' hst'
  have hbefore : c.answer sampleDerivation blacklistPolicy (sampleKey 5) = .ok (.deny .compliant) := by
    refine (answer_compliant_iff r₀ hentries rfl).2 ⟨fun hmalformed => ?_, fun hrefused => ?_⟩
    · cases hmalformed.1.1
    · rcases hrefused with ⟨-, hcall⟩ | ⟨hmode, -⟩ | ⟨hasks, -⟩
      · cases hcall
      · cases hmode
      · cases hasks.1
  have hafter : ∃ a, c'.answer sampleDerivation blacklistPolicy (sampleKey 5) = .ok (.allow a) := by
    refine (answer_allow_iff r' hentries' rfl).2 ⟨fun hmalformed => ?_, .inl ⟨rfl, blacklistedSample_lastCall r⟩⟩
    cases hmalformed.1.1
  have hnone : (blacklistedCluster entry).account
      (sampleDerivation.attestationPda blacklistPolicy.sasCredential blacklistPolicy.sasSchema (sampleKey 5)) = none :=
    blacklistedCluster_account_ne entry (by decide +kernel) (by decide +kernel)
  obtain ⟨e, he, hpolicy, -⟩ := trackedSample_entry
  refine ⟨st, st', c, c', hbefore, hafter, ?_⟩
  rcases refusal_triggers r₀ path rfl hentries hentries' hbefore hafter trackedSample_run he hpolicy with
    ⟨kind, hannounced, -⟩ | ⟨hother, -⟩ | ⟨a, ha, -⟩
  · exact ⟨kind, hannounced⟩
  · exact absurd hnone.symm hother
  · obtain ⟨tail, hdata⟩ := ha.data
    have hvacant : (c'.ownerAccounts sampleDerivation blacklistPolicy (sampleKey 5)).attestation.data = [] := by
      show (Cluster.info _ _).data = []
      rw [Cluster.info, hnone]
    rw [hvacant] at hdata
    cases hdata

end ThawGate.Keeper
