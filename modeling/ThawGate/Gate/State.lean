import ThawGate.Chain
import ThawGate.Lib.Exec

/-!
# The gate's policy account

`GatePolicy` with its Borsh layout, and `apply`, the only way its settable fields change.
`PolicyArgs.Accepted` is what `apply` checks; a policy it wrote keeps it (`apply_eq_ok`).
-/

namespace ThawGate.Gate

open Borsh Exec

/-! ### Errors -/

/-- `GateError`: first the errors of policy administration, then the gate's own denials. -/
inductive GateError where
  | invalidMintConfig
  | mintConfigMismatch
  | notFreezeAuthority
  | notPolicyAuthority
  | invalidMint
  | invalidExtraMetasAccount
  | missingIssuerProgram
  | missingSasConfig
  | bypassNeedsSas
  | deniedMissingAccounts
  | deniedBadPolicy
  | deniedBadRegistryEntry
  | deniedBadCredential
  | deniedNoImmutableOwner
  | deniedBlacklisted
  | deniedNotAllowlisted
  | deniedNoCredential
  | deniedCredentialExpired
  | deniedKycLevelTooLow
  | deniedCompliant
  deriving DecidableEq, Repr

def GateError.msg : GateError → String
  | invalidMintConfig => "Not a Token ACL MintConfig (owner, size or discriminator)"
  | mintConfigMismatch => "The MintConfig belongs to a different mint"
  | notFreezeAuthority => "Signer is not the Token ACL freeze authority of this mint"
  | notPolicyAuthority => "Signer is not the policy authority"
  | invalidMint => "Mint is not a Token-2022 mint"
  | invalidExtraMetasAccount => "Extra-metas account is not the expected PDA"
  | missingIssuerProgram => "issuer_program must be set when the blacklist or allowlist is enabled"
  | missingSasConfig => "sas_credential and sas_schema must be set when require_sas is on"
  | bypassNeedsSas => "BypassForPdas stands in for the SAS credential, so it needs require_sas"
  | deniedMissingAccounts => "TG:DENY:MISSING_ACCOUNTS: extra accounts missing"
  | deniedBadPolicy => "TG:DENY:BAD_POLICY: policy account is not this mint's GatePolicy"
  | deniedBadRegistryEntry =>
    "TG:DENY:BAD_REGISTRY_ENTRY: registry account has the wrong owner, type or fields"
  | deniedBadCredential =>
    "TG:DENY:BAD_CREDENTIAL: attestation account is not a SAS attestation of this credential, " ++
      "schema and owner"
  | deniedNoImmutableOwner =>
    "TG:DENY:NO_IMMUTABLE_OWNER: token account lacks the ImmutableOwner extension"
  | deniedBlacklisted => "TG:DENY:BLACKLISTED: owner is on the issuer blacklist"
  | deniedNotAllowlisted => "TG:DENY:NOT_ALLOWLISTED: owner is not on the issuer allowlist"
  | deniedNoCredential =>
    "TG:DENY:NO_CREDENTIAL: owner has no SAS attestation (never issued, or revoked)"
  | deniedCredentialExpired => "TG:DENY:CREDENTIAL_EXPIRED: owner's SAS attestation has expired"
  | deniedKycLevelTooLow =>
    "TG:DENY:KYC_LEVEL_TOO_LOW: owner's kyc_level is below the policy minimum"
  | deniedCompliant =>
    "TG:DENY:COMPLIANT: owner passes the policy, so it cannot be frozen permissionlessly"

/-! ### The policy -/

inductive AllowlistMode where
  | off
  | allowOnly
  | bypassForPdas
  deriving DecidableEq, Repr

namespace AllowlistMode

/-- The Borsh variant index. -/
def toByte : AllowlistMode → UInt8
  | off => 0
  | allowOnly => 1
  | bypassForPdas => 2

def ofByte (b : UInt8) : Option AllowlistMode :=
  if b = 0 then some off else if b = 1 then some allowOnly else if b = 2 then some bypassForPdas
  else none

theorem ofByte_eq_some_iff (b : UInt8) (m : AllowlistMode) : ofByte b = some m ↔ b = m.toByte := by
  unfold ofByte
  cases m <;> split_ifs <;> simp_all [toByte]

def codec : Codec AllowlistMode := Codec.u8.pmap ofByte toByte ofByte_eq_some_iff

theorem codec_at {data r : Bytes} {off : Nat} {m : AllowlistMode} :
    codec.dec (data.drop off) = some (m, r) ↔ data[off]? = some m.toByte ∧ r = data.drop (off + 1) := by
  rw [codec, Codec.pmap_dec_iff, Codec.u8_at]

end AllowlistMode

structure GatePolicy where
  version : UInt8
  bump : UInt8
  mint : Pubkey
  authority : Pubkey
  issuerProgram : Pubkey
  checkBlacklist : Bool
  allowlistMode : AllowlistMode
  requireSas : Bool
  sasCredential : Pubkey
  sasSchema : Pubkey
  minKycLevel : UInt8
  reserved : Chunk 64
  deriving DecidableEq

namespace GatePolicy

/-- The fields in Borsh order. -/
def codec : Codec GatePolicy :=
  (Codec.u8.prod <| Codec.u8.prod <| Pubkey.codec.prod <| Pubkey.codec.prod <|
    Pubkey.codec.prod <| Codec.bool.prod <| AllowlistMode.codec.prod <| Codec.bool.prod <|
    Pubkey.codec.prod <| Pubkey.codec.prod <| Codec.u8.prod <| Codec.chunk 64).pmap
    (fun (v, b, m, a, i, c, mode, r, cr, s, k, res) => some ⟨v, b, m, a, i, c, mode, r, cr, s, k, res⟩)
    (fun p => (p.version, p.bump, p.mint, p.authority, p.issuerProgram, p.checkBlacklist,
      p.allowlistMode, p.requireSas, p.sasCredential, p.sasSchema, p.minKycLevel, p.reserved))
    (by rintro ⟨v, b, m, a, i, c, mode, r, cr, s, k, res⟩ ⟨⟩; simp)

/-- `#[account] GatePolicy`. -/
def account : AccountType GatePolicy where
  discriminator := [3, 77, 45, 55, 30, 166, 143, 147]
  codec := codec

/-- `data` is a policy account with these fields, in byte offsets. -/
structure LaidOut (p : GatePolicy) (data : Bytes) : Prop where
  discriminator : slice data 0 8 = account.discriminator
  version : data[8]? = some p.version
  bump : data[9]? = some p.bump
  mint : p.mint.1 = slice data 10 32
  authority : p.authority.1 = slice data 42 32
  issuerProgram : p.issuerProgram.1 = slice data 74 32
  checkBlacklist : data[106]? = some (if p.checkBlacklist then 1 else 0)
  allowlistMode : data[107]? = some p.allowlistMode.toByte
  requireSas : data[108]? = some (if p.requireSas then 1 else 0)
  sasCredential : p.sasCredential.1 = slice data 109 32
  sasSchema : p.sasSchema.1 = slice data 141 32
  minKycLevel : data[173]? = some p.minKycLevel
  length : 238 ≤ data.length
  reserved : p.reserved.1 = slice data 174 64

theorem gatePolicy_at {data : Bytes} {p : GatePolicy} :
    account.tryDeserialize data = some p ↔ p.LaidOut data := by
  rw [AccountType.tryDeserialize_at]
  simp only [account, codec, Codec.pmap_dec_iff, Codec.prod_dec_iff, List.length_cons,
    List.length_nil, Nat.zero_add, Nat.reduceAdd, Pubkey.codec_at, AllowlistMode.codec_at,
    Codec.bool_at, Codec.u8_at, Codec.chunk_at (n := 64) (by decide), and_assoc, exists_and_left,
    exists_eq_left, exists_eq, and_true]
  constructor
  · rintro ⟨hd, hv, hb, -, hm, -, ha, -, hi, hc, hmode, hr, -, hcr, -, hs, hk, hlen, hres⟩
    exact ⟨hd, hv, hb, hm, ha, hi, hc, hmode, hr, hcr, hs, hk, hlen, hres⟩
  · rintro ⟨hd, hv, hb, hm, ha, hi, hc, hmode, hr, hcr, hs, hk, hlen, hres⟩
    exact ⟨hd, hv, hb, by omega, hm, by omega, ha, by omega, hi, hc, hmode, hr, by omega, hcr,
      by omega, hs, hk, hlen, hres⟩

theorem codec_sized : codec.Sized 230 :=
  have key : Pubkey.codec.Sized 32 := Codec.chunk_sized 32
  have mode : AllowlistMode.codec.Sized 1 := Codec.u8_sized.pmap
  (Codec.u8_sized.prod <| Codec.u8_sized.prod <| key.prod <| key.prod <| key.prod <|
    Codec.bool_sized.prod <| mode.prod <| Codec.bool_sized.prod <| key.prod <| key.prod <|
    Codec.u8_sized.prod <| Codec.chunk_sized 64).pmap

/-- `8 + GatePolicy::INIT_SPACE`, the size a policy account is allocated with. -/
theorem account_bytes_length (p : GatePolicy) : (account.bytes p).length = 238 := by
  rw [AccountType.bytes, List.length_append, show account.codec = codec from rfl, codec_sized p]
  rfl

end GatePolicy

def policyVersion : UInt8 := 1

/-! ### Changing it -/

structure PolicyArgs where
  authority : Pubkey
  issuerProgram : Pubkey
  checkBlacklist : Bool
  allowlistMode : AllowlistMode
  requireSas : Bool
  sasCredential : Pubkey
  sasSchema : Pubkey
  minKycLevel : UInt8
  deriving DecidableEq

/-- The policy with every settable field from `args`. -/
def GatePolicy.withArgs (policy : GatePolicy) (args : PolicyArgs) : GatePolicy :=
  { policy with
    authority := args.authority
    issuerProgram := args.issuerProgram
    checkBlacklist := args.checkBlacklist
    allowlistMode := args.allowlistMode
    requireSas := args.requireSas
    sasCredential := args.sasCredential
    sasSchema := args.sasSchema
    minKycLevel := args.minKycLevel }

/-- `GatePolicy::apply`: validates `args` and copies them in. -/
def GatePolicy.apply (policy : GatePolicy) (args : PolicyArgs) : Exec GateError GatePolicy := do
  when (args.checkBlacklist ∨ args.allowlistMode ≠ .off) <|
    require (args.issuerProgram ≠ Pubkey.default) .missingIssuerProgram
  when args.requireSas <|
    require (args.sasCredential ≠ Pubkey.default ∧ args.sasSchema ≠ Pubkey.default) .missingSasConfig
  require (args.allowlistMode ≠ .bypassForPdas ∨ args.requireSas) .bypassNeedsSas
  pure (policy.withArgs args)

/-- What `apply` checks. -/
structure PolicyArgs.Accepted (args : PolicyArgs) : Prop where
  issuer : args.checkBlacklist ∨ args.allowlistMode ≠ .off → args.issuerProgram ≠ Pubkey.default
  sas : args.requireSas → args.sasCredential ≠ Pubkey.default ∧ args.sasSchema ≠ Pubkey.default
  bypass : args.allowlistMode = .bypassForPdas → args.requireSas

theorem GatePolicy.apply_eq_ok {policy policy' : GatePolicy} {args : PolicyArgs} :
    policy.apply args = .ok policy' ↔ args.Accepted ∧ policy' = policy.withArgs args := by
  unfold GatePolicy.apply
  simp only [when_bind_eq_ok, require_bind_eq_ok, require_eq_ok, pure_eq, ok.injEq]
  constructor
  · rintro ⟨hissuer, hsas, hbypass, rfl⟩
    exact ⟨⟨hissuer, hsas, hbypass.neg_resolve_left⟩, rfl⟩
  · rintro ⟨⟨hissuer, hsas, hbypass⟩, rfl⟩
    exact ⟨hissuer, hsas, Decidable.not_or_of_imp hbypass, rfl⟩

end ThawGate.Gate
