import ThawGate.Gate.Registry
import ThawGate.Gate.Sas

/-!
# The gate's decision

`evaluate`: the decision as a function of what the handler read. A thaw passes when no policy flags
the owner, a freeze only when one does, so the two never pass together (`evaluate_freeze_iff`,
`evaluate_thaw_iff`).
-/

namespace ThawGate.Gate

inductive Op where
  | thaw
  | freeze
  deriving DecidableEq, Repr

/-- The SAS KYC policy's input. -/
inductive SasRead where
  | notRequired
  | bypassed
  | checked (credential : Credential)
  deriving DecidableEq, Repr

/-- What the handler read. `blacklist` and `allowlist` are `none` when the policy does not consult
them. -/
structure Facts where
  immutableOwner : Bool
  blacklist : Option Entry
  allowlist : Option Entry
  allowlistMode : AllowlistMode
  sas : SasRead
  deriving DecidableEq, Repr

inductive Allow where
  | clean
  | allowlisted
  | kyc
  | pdaAllowlisted
  | blacklisted
  | notAllowlisted
  | noCredential
  | credentialExpired
  | kycLevelTooLow
  deriving DecidableEq, Repr

inductive Deny where
  | missingAccounts
  | badPolicy
  | badRegistryEntry
  | badCredential
  | noImmutableOwner
  | blacklisted
  | notAllowlisted
  | noCredential
  | credentialExpired
  | kycLevelTooLow
  | compliant
  deriving DecidableEq, Repr

inductive Decision where
  | allow (a : Allow)
  | deny (d : Deny)
  deriving DecidableEq, Repr

/-! ### Codes -/

def Allow.log : Allow → String
  | clean => "TG:ALLOW:CLEAN"
  | allowlisted => "TG:ALLOW:ALLOWLISTED"
  | kyc => "TG:ALLOW:KYC"
  | pdaAllowlisted => "TG:ALLOW:PDA_ALLOWLISTED"
  | blacklisted => "TG:ALLOW:BLACKLISTED"
  | notAllowlisted => "TG:ALLOW:NOT_ALLOWLISTED"
  | noCredential => "TG:ALLOW:NO_CREDENTIAL"
  | credentialExpired => "TG:ALLOW:CREDENTIAL_EXPIRED"
  | kycLevelTooLow => "TG:ALLOW:KYC_LEVEL_TOO_LOW"

namespace Deny

def log : Deny → String
  | missingAccounts => "TG:DENY:MISSING_ACCOUNTS"
  | badPolicy => "TG:DENY:BAD_POLICY"
  | badRegistryEntry => "TG:DENY:BAD_REGISTRY_ENTRY"
  | badCredential => "TG:DENY:BAD_CREDENTIAL"
  | noImmutableOwner => "TG:DENY:NO_IMMUTABLE_OWNER"
  | blacklisted => "TG:DENY:BLACKLISTED"
  | notAllowlisted => "TG:DENY:NOT_ALLOWLISTED"
  | noCredential => "TG:DENY:NO_CREDENTIAL"
  | credentialExpired => "TG:DENY:CREDENTIAL_EXPIRED"
  | kycLevelTooLow => "TG:DENY:KYC_LEVEL_TOO_LOW"
  | compliant => "TG:DENY:COMPLIANT"

def error : Deny → GateError
  | missingAccounts => .deniedMissingAccounts
  | badPolicy => .deniedBadPolicy
  | badRegistryEntry => .deniedBadRegistryEntry
  | badCredential => .deniedBadCredential
  | noImmutableOwner => .deniedNoImmutableOwner
  | blacklisted => .deniedBlacklisted
  | notAllowlisted => .deniedNotAllowlisted
  | noCredential => .deniedNoCredential
  | credentialExpired => .deniedCredentialExpired
  | kycLevelTooLow => .deniedKycLevelTooLow
  | compliant => .deniedCompliant

/-- The error a denial returns names the code it logged. -/
theorem error_msg_log (d : Deny) : ∃ text, d.error.msg = d.log ++ ": " ++ text := by
  cases d with
  | missingAccounts => exact ⟨"extra accounts missing", rfl⟩
  | badPolicy => exact ⟨"policy account is not this mint's GatePolicy", rfl⟩
  | badRegistryEntry => exact ⟨"registry account has the wrong owner, type or fields", rfl⟩
  | badCredential =>
    exact ⟨"attestation account is not a SAS attestation of this credential, schema and owner", rfl⟩
  | noImmutableOwner => exact ⟨"token account lacks the ImmutableOwner extension", rfl⟩
  | blacklisted => exact ⟨"owner is on the issuer blacklist", rfl⟩
  | notAllowlisted => exact ⟨"owner is not on the issuer allowlist", rfl⟩
  | noCredential => exact ⟨"owner has no SAS attestation (never issued, or revoked)", rfl⟩
  | credentialExpired => exact ⟨"owner's SAS attestation has expired", rfl⟩
  | kycLevelTooLow => exact ⟨"owner's kyc_level is below the policy minimum", rfl⟩
  | compliant => exact ⟨"owner passes the policy, so it cannot be frozen permissionlessly", rfl⟩

end Deny

/-! ### The policy flags -/

/-- A policy flag on the owner: it denies a thaw and allows a freeze. -/
inductive Flag where
  | blacklisted
  | notAllowlisted
  | noCredential
  | credentialExpired
  | kycLevelTooLow
  deriving DecidableEq, Repr

def Flag.deny : Flag → Deny
  | blacklisted => .blacklisted
  | notAllowlisted => .notAllowlisted
  | noCredential => .noCredential
  | credentialExpired => .credentialExpired
  | kycLevelTooLow => .kycLevelTooLow

def Flag.allow : Flag → Allow
  | blacklisted => .blacklisted
  | notAllowlisted => .notAllowlisted
  | noCredential => .noCredential
  | credentialExpired => .credentialExpired
  | kycLevelTooLow => .kycLevelTooLow

/-- The first policy that flags the owner: blacklist, allowlist, SAS credential. -/
def flag (facts : Facts) : Option Flag :=
  if facts.blacklist = some .active then some .blacklisted
  else if facts.allowlistMode = .allowOnly ∧ facts.allowlist ≠ some .active then some .notAllowlisted
  else match facts.sas with
    | .checked .missing => some .noCredential
    | .checked .expired => some .credentialExpired
    | .checked .levelTooLow => some .kycLevelTooLow
    | .notRequired | .bypassed | .checked .valid => none

/-- What admitted an unflagged owner. -/
def admittedBy (facts : Facts) : Allow :=
  match facts.sas with
  | .bypassed => .pdaAllowlisted
  | .checked _ => .kyc
  | .notRequired => if facts.allowlist = some .active then .allowlisted else .clean

/-- Thaw passes when the account has ImmutableOwner and no policy flags the owner. Freeze passes only
when a policy flags the owner. -/
def evaluate (op : Op) (facts : Facts) : Decision :=
  match op with
  | .thaw =>
    if facts.immutableOwner = false then .deny .noImmutableOwner
    else match flag facts with
      | some f => .deny f.deny
      | none => .allow (admittedBy facts)
  | .freeze =>
    match flag facts with
    | some f => .allow f.allow
    | none => .deny .compliant

/-! ### Thaw and freeze -/

/-- Some policy flags the owner. -/
def Facts.Flagged (facts : Facts) : Prop :=
  facts.blacklist = some .active ∨
    (facts.allowlistMode = .allowOnly ∧ facts.allowlist ≠ some .active) ∨
      ∃ c, facts.sas = .checked c ∧ c ≠ .valid

theorem flag_isSome_iff (facts : Facts) : (flag facts).isSome ↔ facts.Flagged := by
  unfold flag Facts.Flagged
  split_ifs with hblack hallow
  · simp [hblack]
  · simp [hallow]
  · rcases facts.sas with _ | _ | _ | _ | _ | _ <;> simp [hblack, hallow]

def Decision.Allowed (d : Decision) : Prop := ∃ a, d = .allow a

def Decision.Denied (d : Decision) : Prop := ∃ e, d = .deny e

theorem Decision.denied_iff (d : Decision) : d.Denied ↔ ¬d.Allowed := by
  cases d <;> simp [Allowed, Denied]

theorem evaluate_freeze_iff (facts : Facts) : (evaluate .freeze facts).Allowed ↔ facts.Flagged := by
  rw [← flag_isSome_iff, evaluate]
  cases flag facts <;> simp [Decision.Allowed]

theorem evaluate_thaw_iff (facts : Facts) :
    (evaluate .thaw facts).Allowed ↔ facts.immutableOwner = true ∧ ¬facts.Flagged := by
  rw [← flag_isSome_iff, evaluate]
  cases facts.immutableOwner <;> cases flag facts <;> simp [Decision.Allowed]

end ThawGate.Gate
