import ThawGate.Gate.State

/-!
# Reading a SAS attestation

`readAttestation`, the gate's reader of the Solana Attestation Service account, works on byte
offsets: `[0] discriminator = 2 | [1..33] nonce | [33..65] credential | [65..97] schema |
[97..101] data len n (u32) | [101..101+n] data | signer (32) | expiry (i64)`, and whatever follows.
`Attestation` is that layout as a record with a codec; `attestation_at` reads the codec back in
offsets, and the reader's result is stated over the record (`Says`, `Malformed`).
-/

namespace ThawGate.Gate

open Borsh Exec

/-- What the attestation at the enforced address says about the holder. -/
inductive Credential where
  | missing
  | expired
  | levelTooLow
  | valid
  deriving DecidableEq, Repr

namespace Sas

abbrev attestationDiscriminator : UInt8 := 2
abbrev nonce : Nat := 1
abbrev credential : Nat := 33
abbrev schema : Nat := 65
abbrev dataLen : Nat := 97
/-- Start of the schema data; `min_kyc_level` reads its first byte. -/
abbrev data : Nat := 101
abbrev signerLen : Nat := 32

end Sas

/-- `i64::from_le_bytes`. -/
def i64FromLeBytes (bs : Bytes) : Int64 := (UInt64.ofNat (leNat bs)).toInt64

theorem i64FromLeBytes_eq {bs : Bytes} {n : Int64}
    (h : n.toUInt64.toNat = leNat bs) : i64FromLeBytes bs = n := by
  rw [i64FromLeBytes, ← h, UInt64.ofNat_toNat, Int64.toInt64_toUInt64]

theorem toNat_i64FromLeBytes {bs : Bytes} (hlen : bs.length = 8) :
    (i64FromLeBytes bs).toUInt64.toNat = leNat bs := by
  have hlt : leNat bs < 2 ^ 64 := by
    simpa [hlen] using leNat_lt bs
  rw [i64FromLeBytes, UInt64.toUInt64_toInt64, UInt64.toNat_ofNat_of_lt' hlt]

/-- `parse_attestation`. The `&&` of a `require!` is one guard after the other here, so that each
index comes after the length check before it. -/
def parseAttestation (data : Bytes) (credential schema owner : Pubkey) (minKycLevel : UInt8)
    (now : Int64) : Exec GateError Credential := do
  require (Sas.data ≤ data.length) .deniedBadCredential
  require ((← index data 0) = Sas.attestationDiscriminator) .deniedBadCredential
  require ((← range data Sas.nonce 32) = owner.1) .deniedBadCredential
  require ((← range data Sas.credential 32) = credential.1) .deniedBadCredential
  require ((← range data Sas.schema 32) = schema.1) .deniedBadCredential
  let len := leNat (← range data Sas.dataLen 4)
  let expiryAt := Sas.data + len + Sas.signerLen
  require (expiryAt + 8 ≤ data.length) .deniedBadCredential
  let expiry := i64FromLeBytes (← range data expiryAt 8)
  if expiry ≠ 0 ∧ expiry < now then
    return .expired
  if 0 < minKycLevel then
    require (1 ≤ len) .deniedBadCredential
    if (← index data Sas.data) < minKycLevel then
      return .levelTooLow
  return .valid

/-- `read_attestation`, at the clock value `now`. -/
def readAttestation (info : AccountInfo) (policy : GatePolicy) (owner : Pubkey) (now : Int64) :
    Exec GateError Credential :=
  if info.data.isEmpty then .ok .missing
  else do
    require (info.owner = sasId) .deniedBadCredential
    parseAttestation info.data policy.sasCredential policy.sasSchema owner policy.minKycLevel now

/-! ### The layout -/

structure Attestation where
  nonce : Pubkey
  credential : Pubkey
  schema : Pubkey
  data : { bs : Bytes // bs.length < 256 ^ 4 }
  signer : Pubkey
  expiry : Int64

namespace Attestation

def codec : Codec Attestation :=
  (Pubkey.codec.prod <| Pubkey.codec.prod <| Pubkey.codec.prod <| Codec.vec.prod <|
    Pubkey.codec.prod Codec.i64).pmap
    (fun (n, c, s, d, sg, e) => some ⟨n, c, s, d, sg, e⟩)
    (fun a => (a.nonce, a.credential, a.schema, a.data, a.signer, a.expiry))
    (by rintro ⟨n, c, s, d, sg, e⟩ ⟨⟩; simp)

def account : AccountType Attestation where
  discriminator := [Sas.attestationDiscriminator]
  codec := codec

/-- `bs` is an attestation's account with these fields, in byte offsets. -/
structure LaidOut (a : Attestation) (bs : Bytes) : Prop where
  discriminator : bs[0]? = some Sas.attestationDiscriminator
  nonce : a.nonce.1 = slice bs 1 32
  credential : a.credential.1 = slice bs 33 32
  schema : a.schema.1 = slice bs 65 32
  dataLen : a.data.1.length = leNat (slice bs 97 4)
  data : a.data.1 = slice bs 101 a.data.1.length
  signer : a.signer.1 = slice bs (101 + a.data.1.length) 32
  length : 101 + a.data.1.length + 32 + 8 ≤ bs.length
  expiry : a.expiry.toUInt64.toNat = leNat (slice bs (101 + a.data.1.length + 32) 8)

theorem attestation_at {data : Bytes} {a : Attestation} :
    account.tryDeserialize data = some a ↔ a.LaidOut data := by
  have hdisc (h : 0 < data.length) :
      slice data 0 1 = [Sas.attestationDiscriminator] ↔ data[0]? = some Sas.attestationDiscriminator := by
    rw [getElem?_eq_slice h, List.getElem?_eq_getElem h, Option.some_inj, List.singleton_inj]
  rw [AccountType.tryDeserialize_at]
  simp only [account, codec, Codec.pmap_dec_iff, Codec.prod_dec_iff, List.length_cons,
    List.length_nil, Nat.zero_add, Nat.reduceAdd, Pubkey.codec_at, Codec.vec_at, Codec.i64_at,
    and_assoc, exists_and_left, exists_eq_left, exists_eq, and_true]
  constructor
  · rintro ⟨hd, -, hn, -, hc, -, hs, -, hdl, hdata, -, hsg, hlen, he⟩
    exact ⟨(hdisc (by omega)).1 hd, hn, hc, hs, hdl, hdata, hsg, hlen, he⟩
  · rintro ⟨hd, hn, hc, hs, hdl, hdata, hsg, hlen, he⟩
    exact ⟨(hdisc (by omega)).2 hd, by omega, hn, by omega, hc, by omega, hs, by omega, hdl, hdata,
      by omega, hsg, hlen, he⟩

/-- Every long enough byte string with the right first byte is some attestation's. -/
theorem exists_laidOut {data : Bytes} (hd : data[0]? = some Sas.attestationDiscriminator)
    (hlen : 101 + leNat (slice data 97 4) + 32 + 8 ≤ data.length) : ∃ a : Attestation, a.LaidOut data := by
  have hn : leNat (slice data 97 4) < 256 ^ 4 := by
    have h4 : (slice data 97 4).length = 4 := slice_length (by omega)
    simpa only [h4] using leNat_lt (slice data 97 4)
  set n := leNat (slice data 97 4) with hn_def
  have h8 : (slice data (101 + n + 32) 8).length = 8 := slice_length (by omega)
  have hdl : (slice data 101 n).length = n := slice_length (by omega)
  refine ⟨⟨⟨slice data 1 32, slice_length (by omega)⟩, ⟨slice data 33 32, slice_length (by omega)⟩,
    ⟨slice data 65 32, slice_length (by omega)⟩, ⟨slice data 101 n, hdl.trans_lt hn⟩,
    ⟨slice data (101 + n) 32, slice_length (by omega)⟩, i64FromLeBytes (slice data (101 + n + 32) 8)⟩,
    hd, rfl, rfl, rfl, ?_, ?_, ?_, ?_, ?_⟩
  · exact hdl
  · dsimp only
    rw [hdl]
  · dsimp only
    rw [hdl]
  · dsimp only
    rw [hdl]
    exact hlen
  · dsimp only
    rw [hdl, toNat_i64FromLeBytes h8]

/-- Past the SAS header's `expiry`, where 0 never expires. -/
def Expired (a : Attestation) (now : Int64) : Prop := a.expiry ≠ 0 ∧ a.expiry < now

/-- The schema data's first byte, which holds the `kyc_level`. -/
def kycLevel (a : Attestation) : Option UInt8 := a.data.1.head?

theorem LaidOut.kycLevel_eq {a : Attestation} {bs : Bytes} (h : a.LaidOut bs) :
    a.kycLevel = if a.data.1.length = 0 then none else bs[101]? := by
  rw [kycLevel, h.data, slice, List.head?_take, List.head?_drop, ← slice, ← h.data]

theorem LaidOut.kycLevel_of_pos {a : Attestation} {bs : Bytes} (h : a.LaidOut bs)
    (hpos : 0 < a.data.1.length) (hlt : 101 < bs.length) : a.kycLevel = some bs[101] := by
  rw [h.kycLevel_eq, if_neg hpos.ne', List.getElem?_eq_getElem hlt]

/-- `info` is the attestation `a` of this policy for this owner. -/
structure Holds (policy : GatePolicy) (owner : Pubkey) (info : AccountInfo) (a : Attestation) : Prop where
  program : info.owner = sasId
  data : ∃ tail, info.data = account.bytes a ++ tail
  nonce : a.nonce = owner
  credential : a.credential = policy.sasCredential
  schema : a.schema = policy.sasSchema

end Attestation

namespace Sas

open Attestation (Holds)

variable {policy : GatePolicy} {owner : Pubkey} {now : Int64} {info : AccountInfo}

/-! ### What an account says -/

/-- What the account at the attestation's address says of the owner's credential at `now`. -/
def Says (policy : GatePolicy) (owner : Pubkey) (now : Int64) (info : AccountInfo) : Credential → Prop
  | .missing => info.data = []
  | .expired => info.data ≠ [] ∧ ∃ a, Holds policy owner info a ∧ a.Expired now
  | .levelTooLow => info.data ≠ [] ∧ ∃ a, Holds policy owner info a ∧ ¬a.Expired now ∧
      ∃ level, a.kycLevel = some level ∧ level < policy.minKycLevel
  | .valid => info.data ≠ [] ∧ ∃ a, Holds policy owner info a ∧ ¬a.Expired now ∧
      (0 < policy.minKycLevel → ∃ level, a.kycLevel = some level ∧ policy.minKycLevel ≤ level)

/-- There is an account, and it is not this policy's attestation for this owner, or it is a live
one without the data byte that a required level is compared with. -/
def Malformed (policy : GatePolicy) (owner : Pubkey) (now : Int64) (info : AccountInfo) : Prop :=
  info.data ≠ [] ∧ ∀ a, Holds policy owner info a →
    ¬a.Expired now ∧ 0 < policy.minKycLevel ∧ a.kycLevel = none

theorem says_or_malformed (policy : GatePolicy) (owner : Pubkey) (now : Int64) (info : AccountInfo) :
    (∃ c, Says policy owner now info c) ∨ Malformed policy owner now info := by
  by_cases hempty : info.data = []
  · exact .inl ⟨.missing, hempty⟩
  by_cases hbad : Malformed policy owner now info
  · exact .inr hbad
  obtain ⟨a, ha, hlive⟩ : ∃ a, Holds policy owner info a ∧
      (¬a.Expired now → 0 < policy.minKycLevel → a.kycLevel ≠ none) := by
    simpa [Malformed, hempty] using hbad
  left
  by_cases hexp : a.Expired now
  · exact ⟨.expired, hempty, a, ha, hexp⟩
  cases hlevel : a.kycLevel with
  | none =>
    refine ⟨.valid, hempty, a, ha, hexp, fun hmin => absurd hlevel (hlive hexp hmin)⟩
  | some level =>
    by_cases hlow : level < policy.minKycLevel
    · exact ⟨.levelTooLow, hempty, a, ha, hexp, level, hlevel, hlow⟩
    · exact ⟨.valid, hempty, a, ha, hexp, fun _ => ⟨level, hlevel, UInt8.not_lt.1 hlow⟩⟩

/-! ### The reader -/

/-- What `parse_attestation` answers for a well-formed attestation of the right names. -/
def verdict (a : Attestation) (minKycLevel : UInt8) (now : Int64) : Exec GateError Credential :=
  if a.expiry ≠ 0 ∧ a.expiry < now then .ok .expired
  else if 0 < minKycLevel then
    match a.kycLevel with
    | none => .err .deniedBadCredential
    | some level => if level < minKycLevel then .ok .levelTooLow else .ok .valid
  else .ok .valid

theorem parseAttestation_eq_verdict {bs : Bytes} {a : Attestation} (h : a.LaidOut bs)
    (minKycLevel : UInt8) (now : Int64) :
    parseAttestation bs a.credential a.schema a.nonce minKycLevel now = verdict a minKycLevel now := by
  have hlen := h.length
  obtain ⟨h0, hdisc⟩ := List.getElem?_eq_some_iff.1 h.discriminator
  unfold parseAttestation verdict
  simp only [Sas.data, Sas.nonce, Sas.credential, Sas.schema, Sas.dataLen, Sas.signerLen]
  rw [require_pos (by omega), bind_ok, index_eq h0, bind_ok, require_pos hdisc, bind_ok,
    range_eq (by omega), bind_ok, require_pos h.nonce.symm, bind_ok,
    range_eq (by omega), bind_ok, require_pos h.credential.symm, bind_ok,
    range_eq (by omega), bind_ok, require_pos h.schema.symm, bind_ok,
    range_eq (by omega), bind_ok, ← h.dataLen, require_pos (by omega), bind_ok,
    range_eq (by omega), bind_ok, i64FromLeBytes_eq h.expiry]
  split_ifs with hexp hmin
  · rfl
  · rcases Nat.eq_zero_or_pos a.data.1.length with hnone | hpos
    · rw [h.kycLevel_eq, if_pos hnone, hnone]
      rfl
    · have h101 : 101 < bs.length := by omega
      rw [h.kycLevel_of_pos hpos h101, require_pos (by omega), bind_ok, index_eq h101, bind_ok]
      rfl
  · rfl

/-- Anything but an attestation layout of these three names is refused. -/
theorem parseAttestation_eq_err {bs : Bytes} {credential schema owner : Pubkey}
    (h : ∀ a : Attestation, a.LaidOut bs →
      ¬(a.nonce = owner ∧ a.credential = credential ∧ a.schema = schema))
    (minKycLevel : UInt8) (now : Int64) :
    parseAttestation bs credential schema owner minKycLevel now = .err .deniedBadCredential := by
  unfold parseAttestation
  simp only [Sas.data, Sas.nonce, Sas.credential, Sas.schema, Sas.dataLen, Sas.signerLen]
  by_cases hlen : 101 ≤ bs.length
  swap
  · rw [require_neg hlen, bind_err]
  have h0 : 0 < bs.length := by omega
  rw [require_pos hlen, bind_ok, index_eq h0, bind_ok, range_eq (by omega), range_eq (by omega),
    range_eq (by omega), range_eq (by omega)]
  by_cases hdisc : bs[0] = attestationDiscriminator
  swap
  · rw [require_neg hdisc, bind_err]
  rw [require_pos hdisc, bind_ok, bind_ok]
  by_cases hn : slice bs 1 32 = owner.1
  swap
  · rw [require_neg hn, bind_err]
  rw [require_pos hn, bind_ok, bind_ok]
  by_cases hc : slice bs 33 32 = credential.1
  swap
  · rw [require_neg hc, bind_err]
  rw [require_pos hc, bind_ok, bind_ok]
  by_cases hs : slice bs 65 32 = schema.1
  swap
  · rw [require_neg hs, bind_err]
  rw [require_pos hs, bind_ok, bind_ok]
  by_cases hexp : 101 + leNat (slice bs 97 4) + 32 + 8 ≤ bs.length
  swap
  · rw [require_neg hexp, bind_err]
  -- every guard before the clock passed, so the bytes are an attestation's after all
  obtain ⟨a, ha⟩ := Attestation.exists_laidOut
    (List.getElem?_eq_some_iff.2 ⟨h0, hdisc⟩) hexp
  exact absurd ⟨Subtype.ext (ha.nonce.trans hn), Subtype.ext (ha.credential.trans hc),
    Subtype.ext (ha.schema.trans hs)⟩ (h a ha)

theorem readAttestation_of_holds {a : Attestation} (hempty : info.data ≠ [])
    (h : Holds policy owner info a) :
    readAttestation info policy owner now = verdict a policy.minKycLevel now := by
  have hat : a.LaidOut info.data :=
    Attestation.attestation_at.1 (Attestation.account.tryDeserialize_iff.2 h.data)
  rw [readAttestation, if_neg (by simpa using hempty), require_pos h.program, bind_ok,
    ← h.credential, ← h.schema, ← h.nonce, parseAttestation_eq_verdict hat]

theorem verdict_of_live {a : Attestation} {minKycLevel : UInt8} (hexp : ¬a.Expired now) :
    verdict a minKycLevel now = if 0 < minKycLevel then
      match a.kycLevel with
      | none => .err .deniedBadCredential
      | some level => if level < minKycLevel then .ok .levelTooLow else .ok .valid
    else .ok .valid := by
  rw [verdict, if_neg (by exact hexp)]

theorem read_of_said {c : Credential} (h : Says policy owner now info c) :
    readAttestation info policy owner now = .ok c := by
  cases c with
  | missing =>
    have hempty : info.data = [] := h
    rw [readAttestation, if_pos (by simp [hempty])]
  | expired =>
    obtain ⟨hempty, a, ha, hexp⟩ := h
    rw [readAttestation_of_holds hempty ha, verdict, if_pos (by exact hexp)]
  | levelTooLow =>
    obtain ⟨hempty, a, ha, hexp, level, hlevel, hlow⟩ := h
    have hmin : 0 < policy.minKycLevel := by
      rw [UInt8.lt_iff_toNat_lt] at hlow ⊢
      exact Nat.zero_lt_of_lt hlow
    rw [readAttestation_of_holds hempty ha, verdict_of_live hexp, if_pos hmin, hlevel]
    exact if_pos hlow
  | valid =>
    obtain ⟨hempty, a, ha, hexp, hlevel⟩ := h
    rw [readAttestation_of_holds hempty ha, verdict_of_live hexp]
    split_ifs with hmin
    · obtain ⟨level, hlevel, hhigh⟩ := hlevel hmin
      rw [hlevel]
      exact if_neg (UInt8.not_lt.2 hhigh)
    · rfl

theorem read_of_malformed (h : Malformed policy owner now info) :
    readAttestation info policy owner now = .err .deniedBadCredential := by
  obtain ⟨hempty, hbad⟩ := h
  by_cases hholds : ∃ a, Holds policy owner info a
  · obtain ⟨a, ha⟩ := hholds
    obtain ⟨hexp, hmin, hlevel⟩ := hbad a ha
    rw [readAttestation_of_holds hempty ha, verdict_of_live hexp, if_pos hmin, hlevel]
  · rw [readAttestation, if_neg (by simpa using hempty)]
    by_cases hprogram : info.owner = sasId
    · rw [require_pos hprogram, bind_ok]
      refine parseAttestation_eq_err (fun a hat hnames => hholds
        ⟨a, hprogram, ?_, hnames.1, hnames.2.1, hnames.2.2⟩) _ _
      exact Attestation.account.tryDeserialize_iff.1 (Attestation.attestation_at.2 hat)
    · rw [require_neg hprogram, bind_err]

theorem read_eq_ok {c : Credential} :
    readAttestation info policy owner now = .ok c ↔ Says policy owner now info c := by
  refine ⟨fun h => ?_, read_of_said⟩
  rcases says_or_malformed policy owner now info with ⟨c', hc'⟩ | hbad
  · rw [read_of_said hc', ok.injEq] at h
    exact h ▸ hc'
  · rw [read_of_malformed hbad] at h
    cases h

theorem Says.unique {c c' : Credential} (h : Says policy owner now info c)
    (h' : Says policy owner now info c') : c = c' := by
  have hread := read_of_said h'
  rwa [read_of_said h, ok.injEq] at hread

theorem Says.not_malformed {c : Credential} (h : Says policy owner now info c) :
    ¬Malformed policy owner now info := by
  intro hbad
  have hread := read_of_said h
  rw [read_of_malformed hbad] at hread
  cases hread

end Sas

end ThawGate.Gate
