import ThawGate.Keeper.Accounts

/-!
# The keeper's copy of the freeze rule

`freezeReason` and `ownerVerdict`: which holders the keeper tries to freeze, and what it reports of one.
On the facts the gate evaluates they are the gate's `flag` and `admittedBy` (`freezeReason_of_facts`,
`ownerVerdict_of_facts`).
-/

namespace ThawGate.Keeper

open Gate (AllowlistMode Facts SasRead)

/-- The `TG:ALLOW:<reason>` of a freeze. -/
inductive FreezeReason where
  | blacklisted
  | notAllowlisted
  | noCredential
  | credentialExpired
  | kycLevelTooLow
  deriving DecidableEq, Repr

def FreezeReason.text : FreezeReason → String
  | blacklisted => "BLACKLISTED"
  | notAllowlisted => "NOT_ALLOWLISTED"
  | noCredential => "NO_CREDENTIAL"
  | credentialExpired => "CREDENTIAL_EXPIRED"
  | kycLevelTooLow => "KYC_LEVEL_TOO_LOW"

/-- The code the gate's thaw would log. -/
inductive CompliantCode where
  | pdaAllowlisted
  | kyc
  | allowlisted
  | clean
  deriving DecidableEq, Repr

def CompliantCode.text : CompliantCode → String
  | pdaAllowlisted => "PDA_ALLOWLISTED"
  | kyc => "KYC"
  | allowlisted => "ALLOWLISTED"
  | clean => "CLEAN"

/-- What the keeper has read of one owner; `none` is not read yet. -/
structure OwnerReads where
  blacklist : Option EntryRead
  allowlist : Option EntryRead
  attestation : Option AttestationRead
  ownerOffCurve : Bool
  deriving DecidableEq

inductive Credential where
  | missing
  | expired
  | levelTooLow
  | valid
  | bad
  deriving DecidableEq, Repr

def credentialState (read : AttestationRead) (minKycLevel : UInt8) (now : Int64) : Credential :=
  match read with
  | .missing => .missing
  | .bad => .bad
  | .present expiry _ firstByte =>
    if expiry ≠ 0 ∧ expiry < now then .expired
    else if 0 < minKycLevel then
      match firstByte with
      | none => .bad
      | some b => if b < minKycLevel then .levelTooLow else .valid
    else .valid

/-- The SAS input of `freezeReason`: not required, bypassed, or a credential's state. -/
inductive CredentialInput where
  | notRequired
  | bypassed
  | state (c : Credential)
  deriving DecidableEq, Repr

/-- `let credential …` of `freezeReason`; `none` where it returns early, for a read that is missing or
bad. -/
def credentialInput (policy : GatePolicy) (reads : OwnerReads) (allowlist : EntryRead) (now : Int64) :
    Option CredentialInput :=
  if policy.requireSas then
    if policy.allowlistMode = .bypassForPdas ∧ allowlist = .active ∧ reads.ownerOffCurve then
      some .bypassed
    else
      match reads.attestation with
      | none => none
      | some read =>
        let credential := credentialState read policy.minKycLevel now
        if credential = .bad then none else some (.state credential)
  else some .notRequired

/-- `const blacklist = …`: the entry where the policy checks it, `none` otherwise. -/
def blacklistRead (policy : GatePolicy) (reads : OwnerReads) : Option EntryRead :=
  if policy.checkBlacklist then reads.blacklist else some .none

def allowlistRead (policy : GatePolicy) (reads : OwnerReads) : Option EntryRead :=
  if policy.allowlistMode ≠ .off then reads.allowlist else some .none

/-- The reason the gate would log for a freeze of this owner now, or `none` if it would deny it. -/
def freezeReason (policy : GatePolicy) (reads : OwnerReads) (now : Int64) : Option FreezeReason :=
  match blacklistRead policy reads, allowlistRead policy reads with
  | some blacklist, some allowlist =>
    if blacklist = .bad ∨ allowlist = .bad then none
    else
      match credentialInput policy reads allowlist now with
      | none => none
      | some credential =>
        if blacklist = .active then some .blacklisted
        else if policy.allowlistMode = .allowOnly ∧ allowlist ≠ .active then some .notAllowlisted
        else if credential = .state .missing then some .noCredential
        else if credential = .state .expired then some .credentialExpired
        else if credential = .state .levelTooLow then some .kycLevelTooLow
        else none
  | _, _ => none

inductive OwnerVerdict where
  | unknown
  | freezable (reason : FreezeReason)
  | compliant (code : CompliantCode)
  deriving DecidableEq, Repr

def OwnerVerdict.text : OwnerVerdict → String
  | unknown => "unknown"
  | freezable reason => "freezable:" ++ reason.text
  | compliant code => "compliant:" ++ code.text

/-- One owner's standing; `now` is `none` until a sweep has read the cluster clock. -/
def ownerVerdict (policy : GatePolicy) (reads : OwnerReads) (now : Option Int64) : OwnerVerdict :=
  match now with
  | none => .unknown
  | some now =>
    match freezeReason policy reads now with
    | some reason => .freezable reason
    | none =>
      match blacklistRead policy reads, allowlistRead policy reads with
      | some blacklist, some allowlist =>
        if blacklist = .bad ∨ allowlist = .bad then .unknown
        else if policy.requireSas then
          if policy.allowlistMode = .bypassForPdas ∧ allowlist = .active ∧ reads.ownerOffCurve then
            .compliant .pdaAllowlisted
          else
            match reads.attestation with
            | none => .unknown
            | some read =>
              if credentialState read policy.minKycLevel now ≠ .valid then .unknown else .compliant .kyc
        else if allowlist = .active then .compliant .allowlisted
        else .compliant .clean
      | _, _ => .unknown

/-! ### On the gate's facts -/

def FreezeReason.of : Gate.Flag → FreezeReason
  | .blacklisted => .blacklisted
  | .notAllowlisted => .notAllowlisted
  | .noCredential => .noCredential
  | .credentialExpired => .credentialExpired
  | .kycLevelTooLow => .kycLevelTooLow

/-- The freeze outcome with this reason. -/
def FreezeReason.allow : FreezeReason → Gate.Allow
  | blacklisted => .blacklisted
  | notAllowlisted => .notAllowlisted
  | noCredential => .noCredential
  | credentialExpired => .credentialExpired
  | kycLevelTooLow => .kycLevelTooLow

/-- The thaw outcome with this code. -/
def CompliantCode.allow : CompliantCode → Gate.Allow
  | pdaAllowlisted => .pdaAllowlisted
  | kyc => .kyc
  | allowlisted => .allowlisted
  | clean => .clean

theorem FreezeReason.allow_log (r : FreezeReason) : r.allow.log = "TG:ALLOW:" ++ r.text := by
  cases r <;> rfl

theorem CompliantCode.allow_log (c : CompliantCode) : c.allow.log = "TG:ALLOW:" ++ c.text := by
  cases c <;> rfl

theorem FreezeReason.allow_of (f : Gate.Flag) : (FreezeReason.of f).allow = f.allow := by
  cases f <;> rfl

theorem FreezeReason.allow_inj {r s : FreezeReason} (h : r.allow = s.allow) : r = s := by
  cases r <;> cases s <;> first | rfl | cases h

theorem CompliantCode.allow_inj {c d : CompliantCode} (h : c.allow = d.allow) : c = d := by
  cases c <;> cases d <;> first | rfl | cases h

def Credential.of : Gate.Credential → Credential
  | .missing => .missing
  | .expired => .expired
  | .levelTooLow => .levelTooLow
  | .valid => .valid

def CredentialInput.of : SasRead → CredentialInput
  | .notRequired => .notRequired
  | .bypassed => .bypassed
  | .checked c => .state (.of c)

/-- What the keeper has for an entry the gate read, or did not consult. -/
def EntryRead.ofOption (s : Option Gate.Entry) : EntryRead := .of (s.getD .none)

theorem EntryRead.ofOption_ne_bad (s : Option Gate.Entry) : EntryRead.ofOption s ≠ .bad := by
  rcases s with _ | _ | _ | _ <;> simp [ofOption, of]

theorem EntryRead.ofOption_active (s : Option Gate.Entry) :
    EntryRead.ofOption s = .active ↔ s = some .active := by
  rcases s with _ | _ | _ | _ <;> simp [ofOption, of]

/-- The keeper's inputs are the facts the gate evaluates. -/
structure SameFacts (policy : GatePolicy) (reads : OwnerReads) (now : Int64) (facts : Facts) : Prop where
  blacklist : blacklistRead policy reads = some (.ofOption facts.blacklist)
  allowlist : allowlistRead policy reads = some (.ofOption facts.allowlist)
  mode : policy.allowlistMode = facts.allowlistMode
  credential : credentialInput policy reads (.ofOption facts.allowlist) now = some (.of facts.sas)

section facts

variable {policy : GatePolicy} {reads : OwnerReads} {now : Int64} {facts : Facts}

theorem freezeReason_of_facts (h : SameFacts policy reads now facts) :
    freezeReason policy reads now = (Gate.flag facts).map .of := by
  unfold freezeReason Gate.flag
  simp only [h.blacklist, h.allowlist, h.credential, h.mode, EntryRead.ofOption_ne_bad,
    EntryRead.ofOption_active, ne_eq, or_self, if_false]
  by_cases hblack : facts.blacklist = some .active
  · rw [if_pos hblack, if_pos hblack]
    rfl
  rw [if_neg hblack, if_neg hblack]
  by_cases hallow : facts.allowlistMode = .allowOnly ∧ ¬facts.allowlist = some .active
  · rw [if_pos hallow, if_pos hallow]
    rfl
  rw [if_neg hallow, if_neg hallow]
  cases facts.sas with
  | notRequired => rfl
  | bypassed => rfl
  | checked c => cases c <;> rfl

def CompliantCode.of (facts : Facts) : CompliantCode :=
  match facts.sas with
  | .bypassed => .pdaAllowlisted
  | .checked _ => .kyc
  | .notRequired => if facts.allowlist = some .active then .allowlisted else .clean

theorem CompliantCode.allow_of (facts : Facts) : (CompliantCode.of facts).allow = Gate.admittedBy facts := by
  unfold CompliantCode.of Gate.admittedBy
  cases facts.sas with
  | notRequired => split_ifs <;> rfl
  | bypassed => rfl
  | checked c => rfl

/-- How the credential input came about. -/
theorem credentialInput_cases {allowlist : EntryRead} {input : CredentialInput}
    (h : credentialInput policy reads allowlist now = some input) :
    (policy.requireSas = false ∧ input = .notRequired) ∨
    (policy.requireSas = true ∧ (policy.allowlistMode = .bypassForPdas ∧ allowlist = .active ∧
      reads.ownerOffCurve = true) ∧ input = .bypassed) ∨
    (policy.requireSas = true ∧ ¬(policy.allowlistMode = .bypassForPdas ∧ allowlist = .active ∧
      reads.ownerOffCurve = true) ∧ ∃ read, reads.attestation = some read ∧
        input = .state (credentialState read policy.minKycLevel now)) := by
  unfold credentialInput at h
  split_ifs at h with hsas hbypass
  · exact .inr (.inl ⟨hsas, hbypass, (Option.some.inj h).symm⟩)
  · cases hread : reads.attestation with
    | none => simp [hread] at h
    | some read =>
      simp only [hread, Option.ite_none_left_eq_some] at h
      exact .inr (.inr ⟨hsas, hbypass, read, rfl, (Option.some.inj h.2).symm⟩)
  · exact .inl ⟨by simpa using hsas, (Option.some.inj h).symm⟩

theorem CredentialInput.of_eq_state {sas : SasRead} {c : Credential}
    (h : CredentialInput.of sas = .state c) : ∃ c', sas = .checked c' ∧ c = .of c' := by
  cases sas with
  | checked c' => exact ⟨c', rfl, (CredentialInput.state.inj h).symm⟩
  | notRequired => cases h
  | bypassed => cases h

theorem ownerVerdict_of_facts (h : SameFacts policy reads now facts) :
    ownerVerdict policy reads (some now) =
      match Gate.flag facts with
      | some f => .freezable (.of f)
      | none => .compliant (.of facts) := by
  unfold ownerVerdict
  simp only [freezeReason_of_facts h, h.blacklist, h.allowlist, EntryRead.ofOption_ne_bad, or_self,
    if_false]
  cases hflag : Gate.flag facts with
  | some f => rfl
  | none =>
    simp only [Option.map_none, CompliantCode.of]
    obtain ⟨hsas, hinput⟩ | ⟨hsas, hbypass, hinput⟩ | ⟨hsas, hbypass, read, hread, hinput⟩ :=
      credentialInput_cases h.credential
    · have hnot : facts.sas = .notRequired := by
        cases hs : facts.sas <;> simp [hs, CredentialInput.of] at hinput ⊢
      simp only [hsas, hnot, EntryRead.ofOption_active, Bool.false_eq_true, if_false]
      split_ifs <;> rfl
    · have hby : facts.sas = .bypassed := by
        cases hs : facts.sas <;> simp [hs, CredentialInput.of] at hinput ⊢
      simp only [hsas, hby, if_pos hbypass, if_true]
    · obtain ⟨c, hchecked, hc⟩ := CredentialInput.of_eq_state hinput
      -- the owner is unflagged, so the credential is valid
      have hvalid : c = .valid := by
        by_contra hne
        have hflagged := (Gate.flag_isSome_iff facts).2 (.inr (.inr ⟨c, hchecked, hne⟩))
        simp [hflag] at hflagged
      simp only [hsas, hchecked, if_neg hbypass, hread, hc, hvalid, Credential.of, if_true]
      rfl

/-- A bad entry, or no credential input, leaves the owner unjudged. -/
theorem unknown_of_bad {blacklist allowlist : EntryRead}
    (hb : blacklistRead policy reads = some blacklist) (ha : allowlistRead policy reads = some allowlist)
    (hbad : blacklist = .bad ∨ allowlist = .bad ∨ credentialInput policy reads allowlist now = none) :
    freezeReason policy reads now = none ∧ ownerVerdict policy reads (some now) = .unknown := by
  have hreason : freezeReason policy reads now = none := by
    unfold freezeReason
    simp only [hb, ha]
    by_cases hentry : blacklist = .bad ∨ allowlist = .bad
    · rw [if_pos hentry]
    · rw [not_or] at hentry
      rw [hbad.resolve_left hentry.1 |>.resolve_left hentry.2, if_neg (not_or.2 hentry)]
  refine ⟨hreason, ?_⟩
  unfold ownerVerdict
  simp only [hreason, hb, ha]
  split_ifs with hentry hsas hbypass
  · rfl
  all_goals
    rw [not_or] at hentry
    have hnone := hbad.resolve_left hentry.1 |>.resolve_left hentry.2
    unfold credentialInput at hnone
  · simp [hsas, hbypass] at hnone
  · rw [if_pos hsas, if_neg hbypass] at hnone
    cases hread : reads.attestation with
    | none => rfl
    | some read =>
      simp only [hread, ite_eq_left_iff, reduceCtorEq, imp_false, not_not] at hnone
      simp [hnone]
  all_goals
    simp [hsas] at hnone

end facts

end ThawGate.Keeper
