import ThawGate.Gate.Holder

/-!
# Tightening a policy

What happens to a holder when the policy is tightened: one who could thaw and no longer can is
freezable. The exception is an attestation that is live but has no data byte to compare a newly required
level with: the reader refuses it, and both operations are denied.
-/

namespace ThawGate.Gate

open Borsh Exec

/-! ### Tightening -/

/-- `args` leaves the policy's authority, issuer and SAS configuration as they are and only adds
requirements: a flag turned on, `Off` changed to `AllowOnly`, a higher level. -/
structure GatePolicy.Tightens (policy : GatePolicy) (args : PolicyArgs) : Prop where
  authority : args.authority = policy.authority
  issuerProgram : args.issuerProgram = policy.issuerProgram
  checkBlacklist : policy.checkBlacklist = true → args.checkBlacklist = true
  allowlistMode : args.allowlistMode = policy.allowlistMode ∨
    (policy.allowlistMode = .off ∧ args.allowlistMode = .allowOnly)
  requireSas : policy.requireSas = true → args.requireSas = true
  sasCredential : args.sasCredential = policy.sasCredential
  sasSchema : args.sasSchema = policy.sasSchema
  minKycLevel : policy.minKycLevel ≤ args.minKycLevel

/-- The holder's entries and attestation are absent, or accounts of this mint, owner, credential and
schema. -/
structure OwnerAccounts.WellFormed (policy : GatePolicy) (owner : Pubkey) (r : OwnerAccounts) : Prop where
  blacklist : ¬blacklistRegistry.Malformed policy.issuerProgram policy.mint owner r.blacklist
  allowlist : ¬allowlistRegistry.Malformed policy.issuerProgram policy.mint owner r.allowlist
  attestation : r.attestation.data = [] ∨ ∃ a, Attestation.Holds policy owner r.attestation a

/-- The owner's attestation is read and live, and has no byte to compare a required level with. -/
def NoLevelByte (rt : Runtime) (policy : GatePolicy) (owner : Pubkey) (r : OwnerAccounts) : Prop :=
  AttestationRead rt policy owner r ∧ 0 < policy.minKycLevel ∧
    ∃ a, Attestation.Holds policy owner r.attestation a ∧ ¬a.Expired rt.unixTimestamp ∧ a.data.1 = []

theorem Attestation.Holds.unique {policy : GatePolicy} {owner : Pubkey} {info : AccountInfo}
    {a b : Attestation} (ha : Holds policy owner info a) (hb : Holds policy owner info b) : a = b := by
  have hdec := account.tryDeserialize_iff.2 hb.data
  rw [account.tryDeserialize_iff.2 ha.data] at hdec
  exact Option.some.inj hdec

theorem Attestation.kycLevel_eq_none {a : Attestation} : a.kycLevel = none ↔ a.data.1 = [] :=
  List.head?_eq_none_iff

/-- Well-formed accounts are unreadable only for want of a data byte. -/
theorem OwnerAccounts.WellFormed.unreadable_iff {rt : Runtime} {policy : GatePolicy} {owner : Pubkey}
    {r : OwnerAccounts} (h : r.WellFormed policy owner) :
    Unreadable rt policy owner r ↔ NoLevelByte rt policy owner r := by
  constructor
  · rintro (hbad | hbad | ⟨hread, hne, hbad⟩)
    · exact absurd hbad.2 h.blacklist
    · exact absurd hbad.2 h.allowlist
    · rcases h.attestation with hempty | ⟨a, ha⟩
      · exact absurd hempty hne
      · obtain ⟨hexp, hmin, hlevel⟩ := hbad a ha
        exact ⟨hread, hmin, a, ha, hexp, Attestation.kycLevel_eq_none.1 hlevel⟩
  · rintro ⟨hread, hmin, a, ha, hexp, hdata⟩
    refine .inr (.inr ⟨hread, ?_, fun b hb => ?_⟩)
    · obtain ⟨tail, htail⟩ := ha.data
      rw [htail]
      simp [AccountType.bytes, Attestation.account]
    · obtain rfl := ha.unique hb
      exact ⟨hexp, hmin, Attestation.kycLevel_eq_none.2 hdata⟩

theorem OwnerAccounts.WellFormed.withArgs {policy : GatePolicy} {args : PolicyArgs} {owner : Pubkey}
    {r : OwnerAccounts} (h : r.WellFormed policy owner) (ht : policy.Tightens args) :
    r.WellFormed (policy.withArgs args) owner := by
  refine ⟨?_, ?_, h.attestation.imp_right ?_⟩
  · rw [show (policy.withArgs args).issuerProgram = _ from ht.issuerProgram]
    exact h.blacklist
  · rw [show (policy.withArgs args).issuerProgram = _ from ht.issuerProgram]
    exact h.allowlist
  · rintro ⟨a, ha⟩
    exact ⟨a, ha.program, ha.data, ha.nonce, ha.credential.trans ht.sasCredential.symm,
      ha.schema.trans ht.sasSchema.symm⟩

/-- **Tightening makes a non-compliant holder freezable**, except for want of a data byte: of a holder
with well-formed accounts who could thaw under the old policy and cannot under the tightened one, the
freeze is allowed; if the holder's attestation is live and has no data byte for a required level, both
operations are denied instead. -/
theorem freezable_of_tightened (rt : Runtime) (now : Int64) (h : Holder)
    (policy policy' : GatePolicy) (args : PolicyArgs) (info info' : AccountInfo)
    (hpolicy : IsPolicyOf h.mint.key info policy) (hpolicy' : IsPolicyOf h.mint.key info' policy')
    (happly : policy.apply args = .ok policy') (htight : policy.Tightens args)
    (hwf : h.accounts.WellFormed policy h.owner.key)
    (hthaw : ∃ a, decide rt (h.context policy info) .thaw = .ok (.allow a))
    (hthaw' : ∃ d, decide (rt.atTime now) (h.context policy' info') .thaw = .ok (.deny d)) :
    (¬NoLevelByte (rt.atTime now) policy' h.owner.key h.accounts →
      ∃ a, decide (rt.atTime now) (h.context policy' info') .freeze = .ok (.allow a)) ∧
    (NoLevelByte (rt.atTime now) policy' h.owner.key h.accounts →
      ∃ d, decide (rt.atTime now) (h.context policy' info') .freeze = .ok (.deny d)) := by
  have hload := h.context_loads hpolicy
  have hload' := h.context_loads hpolicy'
  obtain rfl := (GatePolicy.apply_eq_ok.1 happly).2
  have hunreadable : Unreadable (rt.atTime now) (policy.withArgs args) h.owner.key
      ((h.context (policy.withArgs args) info').ownerAccounts (policy.withArgs args)) ↔
      NoLevelByte (rt.atTime now) (policy.withArgs args) h.owner.key h.accounts :=
    h.context_consults.unreadable.trans (hwf.withArgs htight).unreadable_iff
  obtain ⟨a, hthaw⟩ := hthaw
  obtain ⟨d, hthaw'⟩ := hthaw'
  -- the old thaw shows that the account has ImmutableOwner
  have himmutable : hasImmutableOwner rt h.tokenAccount = true := by
    by_cases hread : Unreadable rt policy h.owner.key ((h.context policy info).ownerAccounts policy)
    · obtain ⟨d, hd⟩ := decide_of_unreadable hload hread
      simp [hd] at hthaw
    · obtain ⟨thaw, _, ht, -, -, hiff⟩ := decide_of_readable hload hread
      rw [hthaw, ok.injEq] at ht
      exact (hiff.1 ⟨a, ht.symm⟩).1
  constructor
  · intro hbyte
    obtain ⟨thaw, freeze, ht, hf, hfreeze, hiff⟩ := decide_of_readable hload' (mt hunreadable.1 hbyte)
    rw [hthaw', ok.injEq] at ht
    have hdenied : ¬thaw.Allowed := (Decision.denied_iff _).1 ⟨d, ht.symm⟩
    obtain ⟨b, rfl⟩ : freeze.Allowed := by
      by_contra hfree
      exact hdenied (hiff.2 ⟨himmutable, mt hfreeze.2 hfree⟩)
    exact ⟨b, hf⟩
  · intro hbyte
    obtain ⟨d, hd⟩ := decide_of_unreadable hload' (hunreadable.2 hbyte)
    exact ⟨d, hd .freeze⟩

/-! ### A holder on both sides of the exception -/

section sample

/-- `samplePolicy` with a minimum level of 2. -/
def sampleArgs : PolicyArgs where
  authority := sampleKey 2
  issuerProgram := sssTokenId
  checkBlacklist := true
  allowlistMode := .off
  requireSas := true
  sasCredential := sampleKey 3
  sasSchema := sampleKey 4
  minKycLevel := 2

/-- An attestation that never expires, with these data bytes. -/
def sampleAttestation (data : { bs : Bytes // bs.length < 256 ^ 4 }) : Attestation :=
  ⟨sampleKey 5, sampleKey 3, sampleKey 4, data, sampleKey 6, 0⟩

/-- The sample holder with that attestation and no registry entries. -/
def attestedHolder (data : { bs : Bytes // bs.length < 256 ^ 4 }) : Holder :=
  sampleHolder ⟨absentAccount, absentAccount,
    ⟨sampleKey 8, sasId, Attestation.account.bytes (sampleAttestation data)⟩⟩

theorem samplePolicy_tightens : samplePolicy.Tightens sampleArgs :=
  ⟨rfl, rfl, id, .inl rfl, id, rfl, rfl, by decide⟩

theorem attestedHolder_wellFormed (data : { bs : Bytes // bs.length < 256 ^ 4 }) :
    (attestedHolder data).accounts.WellFormed samplePolicy (sampleKey 5) :=
  ⟨fun h => h.1 rfl, fun h => h.1 rfl, .inr ⟨sampleAttestation data, rfl,
    ⟨[], (List.append_nil _).symm⟩, rfl, rfl, rfl⟩⟩

theorem freezable_of_tightened_sample :
    ∃ a, decide sampleRuntime ((attestedHolder ⟨[1], by decide⟩).context (samplePolicy.withArgs sampleArgs)
      (policyAccount (samplePolicy.withArgs sampleArgs))) .freeze = .ok (.allow a) :=
  (freezable_of_tightened sampleRuntime 1000 (attestedHolder ⟨[1], by decide⟩) samplePolicy
    (samplePolicy.withArgs sampleArgs) sampleArgs (policyAccount samplePolicy)
    (policyAccount (samplePolicy.withArgs sampleArgs)) (policyAccount_isPolicyOf samplePolicy)
    (policyAccount_isPolicyOf (samplePolicy.withArgs sampleArgs)) (by decide +kernel)
    samplePolicy_tightens (attestedHolder_wellFormed _) ⟨.kyc, by decide +kernel⟩ ⟨.kycLevelTooLow, by decide +kernel⟩).1 (by
      rintro ⟨-, -, a, ha, -, hdata⟩
      have hattestation : Attestation.Holds (samplePolicy.withArgs sampleArgs) (sampleKey 5)
          (attestedHolder ⟨[1], by decide⟩).accounts.attestation (sampleAttestation ⟨[1], by decide⟩) :=
        ⟨rfl, ⟨[], (List.append_nil _).symm⟩, rfl, rfl, rfl⟩
      obtain rfl := ha.unique hattestation
      exact List.cons_ne_nil _ _ hdata)

/-- An attestation without data counts while no level is required. Once one is, its holder can neither
be thawed nor frozen. -/
theorem tightened_without_level_byte :
    samplePolicy.Tightens sampleArgs ∧
      samplePolicy.apply sampleArgs = .ok (samplePolicy.withArgs sampleArgs) ∧
      (attestedHolder ⟨[], by decide⟩).accounts.WellFormed samplePolicy (sampleKey 5) ∧
      decide sampleRuntime ((attestedHolder ⟨[], by decide⟩).context samplePolicy
        (policyAccount samplePolicy)) .thaw = .ok (.allow .kyc) ∧
      decide sampleRuntime ((attestedHolder ⟨[], by decide⟩).context (samplePolicy.withArgs sampleArgs)
        (policyAccount (samplePolicy.withArgs sampleArgs))) .thaw = .ok (.deny .badCredential) ∧
      decide sampleRuntime ((attestedHolder ⟨[], by decide⟩).context (samplePolicy.withArgs sampleArgs)
        (policyAccount (samplePolicy.withArgs sampleArgs))) .freeze = .ok (.deny .badCredential) :=
  ⟨samplePolicy_tightens, by decide +kernel, attestedHolder_wellFormed _, by decide +kernel,
    by decide +kernel, by decide +kernel⟩

end sample

end ThawGate.Gate
