import ThawGate.Gate.Decide

/-!
# The keeper's decoders

The keeper reads the accounts the gate reads with decoders of its own, written in byte offsets:
`decodeGatePolicy`, `readBlacklistEntry`, `readAllowlistEntry`, `readAttestation`. Their
result is an `Exec`, where reading past the end of the data panics (a `DataView` or `decodeAddress`
throws there, and `data[i]` would be `undefined`); none of them ever does. Each is compared with the
gate's reader of the same account. They agree except on a blacklist entry whose reason is not UTF-8, which the
gate's Borsh decoder refuses and the keeper's, which skips the reason, does not (`SkipsReason`).
-/

namespace ThawGate.Keeper

open Borsh Exec Token

/-- An account as the RPC returns it; no account is `none`. -/
structure RawAccount where
  owner : Pubkey
  data : Bytes
  deriving DecidableEq

/-- `info` as the RPC returns it: an address without data may also come back as no account. -/
def Sees (info : AccountInfo) (raw : Option RawAccount) : Prop :=
  raw = some ⟨info.owner, info.data⟩ ∨ (raw = none ∧ info.data = [])

/-- The key at an offset; `decodeAddress` throws on fewer than 32 bytes. -/
def keyAt (data : Bytes) (at_ : Nat) : Exec Empty Pubkey :=
  if h : at_ + 32 ≤ data.length then .ok ⟨slice data at_ 32, key_length h⟩ else .panic

/-- `DataView.getUint32(at, true)`; throws past the end. -/
def getUint32 (data : Bytes) (at_ : Nat) : Exec Empty Nat :=
  if at_ + 4 ≤ data.length then .ok (leNat (slice data at_ 4)) else .panic

/-- `DataView.getBigInt64(at, true)`; throws past the end. -/
def getBigInt64 (data : Bytes) (at_ : Nat) : Exec Empty Int64 :=
  if at_ + 8 ≤ data.length then .ok (Gate.i64FromLeBytes (slice data at_ 8)) else .panic

theorem keyAt_ok {data : Bytes} (at_ : Nat) (h : at_ + 32 ≤ data.length) :
    keyAt data at_ = .ok ⟨slice data at_ 32, key_length h⟩ := dif_pos h

theorem keyAt_eq {data : Bytes} {at_ : Nat} {k : Pubkey} (hk : k.1 = slice data at_ 32)
    (h : at_ + 32 ≤ data.length) : keyAt data at_ = .ok k := by
  rw [keyAt, dif_pos h]
  exact congrArg _ (Subtype.ext hk.symm)

theorem getUint32_eq {data : Bytes} {at_ : Nat} (h : at_ + 4 ≤ data.length) :
    getUint32 data at_ = .ok (leNat (slice data at_ 4)) :=
  if_pos h

theorem getBigInt64_eq {data : Bytes} {at_ : Nat} (h : at_ + 8 ≤ data.length) :
    getBigInt64 data at_ = .ok (Gate.i64FromLeBytes (slice data at_ 8)) :=
  if_pos h

/-! ### GatePolicy -/

/-- The fields the keeper keeps of a policy. -/
structure GatePolicy where
  mint : Pubkey
  authority : Pubkey
  issuerProgram : Pubkey
  checkBlacklist : Bool
  allowlistMode : Gate.AllowlistMode
  requireSas : Bool
  sasCredential : Pubkey
  sasSchema : Pubkey
  minKycLevel : UInt8
  deriving DecidableEq

abbrev gatePolicyLen : Nat := 238

/-- `ALLOWLIST_MODES[b]`. -/
def allowlistModes : List Gate.AllowlistMode := [.off, .allowOnly, .bypassForPdas]

def decodeGatePolicy (data : Bytes) : Exec Empty (Option GatePolicy) :=
  if data.length ≠ gatePolicyLen ∨ ¬Gate.GatePolicy.account.discriminator.isPrefixOf data then .ok none
  else do
    match allowlistModes[(← index data 107).toNat]? with
    | none => pure none
    | some mode =>
      let mint ← keyAt data 10
      let authority ← keyAt data 42
      let issuerProgram ← keyAt data 74
      let checkBlacklist ← index data 106
      let requireSas ← index data 108
      let sasCredential ← keyAt data 109
      let sasSchema ← keyAt data 141
      let minKycLevel ← index data 173
      pure (some ⟨mint, authority, issuerProgram, checkBlacklist = 1, mode, requireSas = 1, sasCredential,
        sasSchema, minKycLevel⟩)

/-- The fields the keeper keeps, of the gate's policy. -/
def GatePolicy.of (p : Gate.GatePolicy) : GatePolicy where
  mint := p.mint
  authority := p.authority
  issuerProgram := p.issuerProgram
  checkBlacklist := p.checkBlacklist
  allowlistMode := p.allowlistMode
  requireSas := p.requireSas
  sasCredential := p.sasCredential
  sasSchema := p.sasSchema
  minKycLevel := p.minKycLevel

/-! ### Registry entries -/

inductive EntryRead where
  | none
  | inactive
  | active
  | bad
  deriving DecidableEq, Repr

def readBlacklistEntry (account : Option RawAccount) (issuer mint wallet : Pubkey) :
    Exec Empty EntryRead :=
  match account with
  | none => .ok .none
  | some account =>
    let data := account.data
    if data.length = 0 then .ok .none
    else if account.owner ≠ issuer ∨ ¬BlacklistEntry.account.discriminator.isPrefixOf data ∨
        data.length < 76 then .ok .bad
    else do
      if (← keyAt data 8) ≠ mint ∨ (← keyAt data 40) ≠ wallet then return .bad
      let reasonLen ← getUint32 data 72
      let activeAt := 76 + reasonLen + 8 + 32
      if data.length < activeAt + 2 then return .bad
      let active ← index data activeAt
      if 1 < active then return .bad
      return if active = 1 then .active else .inactive

def readAllowlistEntry (account : Option RawAccount) (issuer mint wallet : Pubkey) :
    Exec Empty EntryRead :=
  match account with
  | none => .ok .none
  | some account =>
    let data := account.data
    let activeAt := 8 + 32 + 32 + 8
    if data.length = 0 then .ok .none
    else if account.owner ≠ issuer ∨ ¬AllowlistEntry.account.discriminator.isPrefixOf data ∨
        data.length < activeAt + 2 then .ok .bad
    else do
      let active ← index data activeAt
      if (← keyAt data 8) ≠ mint ∨ (← keyAt data 40) ≠ wallet ∨ 1 < active then return .bad
      return if active = 1 then .active else .inactive

/-! ### SAS attestation -/

inductive AttestationRead where
  | missing
  | bad
  | present (expiry : Int64) (dataLen : Nat) (firstByte : Option UInt8)
  deriving DecidableEq

def readAttestation (account : Option RawAccount) (credential schema holder : Pubkey) :
    Exec Empty AttestationRead :=
  match account with
  | none => .ok .missing
  | some account => 
    let data := account.data
    if data.length = 0 then .ok .missing
    else if account.owner ≠ sasId ∨ data.length < 101 then .ok .bad
    else do
      if (← index data 0) ≠ 2 then return .bad
      if (← keyAt data 1) ≠ holder ∨ (← keyAt data 33) ≠ credential ∨ (← keyAt data 65) ≠ schema then
        return .bad
      let dataLen ← getUint32 data 97
      let expiryAt := 101 + dataLen + 32
      if data.length < expiryAt + 8 then return .bad
      let expiry ← getBigInt64 data expiryAt
      return .present expiry dataLen (if 1 ≤ dataLen then data[101]? else none)

/-! ### The policy -/

theorem allowlistModes_toByte (m : Gate.AllowlistMode) : allowlistModes[m.toByte.toNat]? = some m := by
  cases m <;> rfl

/-- The keeper decodes every policy the gate writes. -/
theorem decodeGatePolicy_bytes (p : Gate.GatePolicy) :
    decodeGatePolicy (Gate.GatePolicy.account.bytes p) = .ok (some (GatePolicy.of p)) := by
  have hat : p.LaidOut (Gate.GatePolicy.account.bytes p) :=
    Gate.GatePolicy.gatePolicy_at.1 (AccountType.tryDeserialize_iff _ |>.2 ⟨[], (List.append_nil _).symm⟩)
  have hlen := Gate.GatePolicy.account_bytes_length p
  have hprefix : Gate.GatePolicy.account.discriminator.isPrefixOf (Gate.GatePolicy.account.bytes p) :=
    List.isPrefixOf_iff_prefix.2 ⟨_, rfl⟩
  unfold decodeGatePolicy
  rw [if_neg (by simp [hlen, hprefix])]
  simp only [index, hat.allowlistMode, hat.checkBlacklist, hat.requireSas, hat.minKycLevel, unwrap_some,
    bind_ok, allowlistModes_toByte, keyAt_eq hat.mint (by omega), keyAt_eq hat.authority (by omega),
    keyAt_eq hat.issuerProgram (by omega), keyAt_eq hat.sasCredential (by omega),
    keyAt_eq hat.sasSchema (by omega), pure_eq]
  rcases p with ⟨_, _, _, _, _, b, _, s, _, _, _, _⟩
  cases b <;> cases s <;> rfl

/-! ### Blacklist entries -/

section entry

variable {issuer mint wallet : Pubkey} {info : AccountInfo} {raw : Option RawAccount}

theorem Sees.of_empty (h : Sees info raw) (hempty : info.data = []) :
    raw = none ∨ ∃ owner, raw = some ⟨owner, []⟩ := by
  rcases h with rfl | ⟨rfl, -⟩
  · exact .inr ⟨info.owner, by rw [hempty]⟩
  · exact .inl rfl

theorem Sees.of_nonempty (h : Sees info raw) (hne : info.data ≠ []) :
    raw = some ⟨info.owner, info.data⟩ :=
  h.resolve_right fun hnone => hne hnone.2

/-- The reason's length, as both decoders read it. -/
def reasonLen (data : Bytes) : Nat := leNat (slice data 72 4)

/-- A blacklist entry for this mint and wallet, but for the bytes of its reason: what the keeper's
decoder checks. -/
structure BlacklistShape (issuer mint wallet : Pubkey) (info : AccountInfo) (active : Bool) : Prop where
  program : info.owner = issuer
  discriminator : slice info.data 0 8 = BlacklistEntry.account.discriminator
  mint : mint.1 = slice info.data 8 32
  wallet : wallet.1 = slice info.data 40 32
  length : 76 + reasonLen info.data + 8 + 32 + 2 ≤ info.data.length
  active : info.data[76 + reasonLen info.data + 8 + 32]? = some (if active then 1 else 0)

theorem isPrefixOf_iff_slice {disc data : Bytes} :
    disc.isPrefixOf data ↔ slice data 0 disc.length = disc := by
  rw [List.isPrefixOf_iff_prefix, List.prefix_iff_eq_take, slice, List.drop_zero, eq_comm]

theorem byte_of_not_one_lt {b : UInt8} (h : ¬1 < b) (hone : b ≠ 1) : b = 0 := by
  rw [UInt8.lt_iff_toNat_lt] at h
  rw [ne_eq, ← UInt8.toNat_inj] at hone
  rw [← UInt8.toNat_inj]
  simp only [UInt8.toNat_one, UInt8.toNat_zero] at h hone ⊢
  omega

theorem readBlacklistEntry_of_shape {active : Bool} (h : Sees info raw)
    (hs : BlacklistShape issuer mint wallet info active) :
    readBlacklistEntry raw issuer mint wallet = .ok (if active then .active else .inactive) := by
  have hlen := hs.length
  have hne : info.data ≠ [] := by
    rintro hempty
    rw [hempty, List.length_nil] at hlen
    omega
  have hprefix : BlacklistEntry.account.discriminator.isPrefixOf info.data :=
    isPrefixOf_iff_slice.2 hs.discriminator
  obtain rfl := h.of_nonempty hne
  unfold readBlacklistEntry
  simp only
  rw [if_neg (by simpa using hne), if_neg (by simp [hs.program, hprefix]; omega),
    keyAt_eq hs.mint (by omega), bind_ok, keyAt_eq hs.wallet (by omega), bind_ok, if_neg (by simp),
    getUint32_eq (by omega), bind_ok, ← reasonLen, if_neg (by omega), index, hs.active, unwrap_some,
    bind_ok]
  cases active <;> rfl

theorem readBlacklistEntry_of_no_shape (h : Sees info raw) (hne : info.data ≠ [])
    (hs : ∀ active, ¬BlacklistShape issuer mint wallet info active) :
    readBlacklistEntry raw issuer mint wallet = .ok .bad := by
  obtain rfl := h.of_nonempty hne
  unfold readBlacklistEntry
  simp only
  rw [if_neg (by simpa using hne)]
  split_ifs with hhead
  · rfl
  simp only [not_or, not_not, not_lt] at hhead
  obtain ⟨hprogram, hprefix, hlen⟩ := hhead
  rw [keyAt_ok 8 (by omega), bind_ok, keyAt_ok 40 (by omega), bind_ok]
  split_ifs with hnames
  · rfl
  simp only [not_or, not_not] at hnames
  obtain ⟨hmint, hwallet⟩ := hnames
  rw [getUint32_eq (by omega), bind_ok, ← reasonLen]
  split_ifs with htail
  · rfl
  have hat : 76 + reasonLen info.data + 8 + 32 < info.data.length := by omega
  rw [index_eq hat, bind_ok]
  split_ifs with hbyte hone
  · rfl
  -- every check passed, so the account has the shape after all
  all_goals exfalso
  · exact hs true ⟨hprogram, isPrefixOf_iff_slice.1 hprefix, by rw [← hmint], by rw [← hwallet],
      by omega, List.getElem?_eq_some_iff.2 ⟨hat, hone⟩⟩
  · refine hs false ⟨hprogram, isPrefixOf_iff_slice.1 hprefix, by rw [← hmint], by rw [← hwallet],
      by omega, List.getElem?_eq_some_iff.2 ⟨hat, ?_⟩⟩
    simpa using byte_of_not_one_lt hbyte hone

/-- The gate takes an account for an entry exactly when the keeper does and its reason is UTF-8. -/
theorem exists_blacklist_holds_iff {active : Bool} :
    (∃ e, Gate.blacklistRegistry.Holds issuer mint wallet info e ∧ e.active = active) ↔
      BlacklistShape issuer mint wallet info active ∧
        (slice info.data 76 (reasonLen info.data)).toByteArray.validateUTF8 = true := by
  constructor
  · rintro ⟨e, ⟨hprogram, hdata, hmint, hwallet⟩, rfl⟩
    have hat := blacklistEntry_at.1 (BlacklistEntry.account.tryDeserialize_iff.2 hdata)
    have hlen : e.reason.bytes.length = reasonLen info.data := hat.reasonLen
    obtain ⟨hbump, -⟩ := List.getElem?_eq_some_iff.1 hat.bump
    rw [← hlen]
    exact ⟨⟨hprogram, hat.discriminator, hmint ▸ hat.mint, hwallet ▸ hat.target, by omega,
      hlen ▸ hat.active⟩, hat.reason ▸ e.reason.utf8⟩
  · rintro ⟨⟨hprogram, hdisc, hmint, hwallet, hlen, hactive⟩, hutf8⟩
    have hreason : (slice info.data 76 (reasonLen info.data)).length = reasonLen info.data :=
      slice_length (by omega)
    have hlt : reasonLen info.data < 256 ^ 4 := by
      have h4 : (slice info.data 72 4).length = 4 := slice_length (by omega)
      have hlt := leNat_lt (slice info.data 72 4)
      rwa [h4] at hlt
    obtain ⟨n, hn⟩ : ∃ n : Int64,
        n.toUInt64.toNat = leNat (slice info.data (76 + reasonLen info.data) 8) := by
      refine ⟨Gate.i64FromLeBytes (slice info.data (76 + reasonLen info.data) 8), ?_⟩
      exact Gate.toNat_i64FromLeBytes (slice_length (by omega))
    have hbump : 76 + reasonLen info.data + 8 + 32 + 1 < info.data.length := by omega
    let e : BlacklistEntry := ⟨mint, wallet, ⟨_, hutf8, hreason.trans_lt hlt⟩, n,
      ⟨slice info.data (76 + reasonLen info.data + 8) 32, slice_length (by omega)⟩, active,
      info.data[76 + reasonLen info.data + 8 + 32 + 1]⟩
    have hat : e.LaidOut info.data :=
      ⟨hdisc, hmint, hwallet, hreason, by rw [hreason], by rw [hreason]; exact hn, by rw [hreason],
        by rw [hreason]; exact hactive, by rw [hreason]; exact List.getElem?_eq_getElem hbump⟩
    exact ⟨e, ⟨hprogram, AccountType.tryDeserialize_iff _ |>.1 (blacklistEntry_at.2 hat), rfl, rfl⟩, rfl⟩

/-- What the keeper calls an entry the gate has read. -/
def EntryRead.of : Gate.Entry → EntryRead
  | .none => .none
  | .inactive => .inactive
  | .active => .active

/-- The keeper takes the account for an entry, and the gate does not: the reason is not UTF-8. -/
def SkipsReason (issuer mint wallet : Pubkey) (info : AccountInfo) : Prop :=
  (∃ active, BlacklistShape issuer mint wallet info active) ∧
    (slice info.data 76 (reasonLen info.data)).toByteArray.validateUTF8 = false

theorem readBlacklistEntry_of_empty (h : Sees info raw) (hempty : info.data = []) :
    readBlacklistEntry raw issuer mint wallet = .ok .none := by
  rcases h.of_empty hempty with rfl | ⟨owner, rfl⟩ <;> rfl

theorem readBlacklistEntry_of_said {s : Gate.Entry} (h : Sees info raw)
    (hs : Gate.blacklistRegistry.Says issuer mint wallet info s) :
    readBlacklistEntry raw issuer mint wallet = .ok (.of s) := by
  cases s with
  | none => exact readBlacklistEntry_of_empty h hs
  | inactive => exact readBlacklistEntry_of_shape h (exists_blacklist_holds_iff.1 hs.2).1
  | active => exact readBlacklistEntry_of_shape h (exists_blacklist_holds_iff.1 hs.2).1

/-- The gate refuses what the keeper takes for an entry without reading the reason. -/
theorem SkipsReason.malformed (h : SkipsReason issuer mint wallet info) :
    Gate.blacklistRegistry.Malformed issuer mint wallet info := by
  obtain ⟨⟨active, hs⟩, hutf8⟩ := h
  refine ⟨?_, fun e he => ?_⟩
  · rintro hempty
    have hlen := hs.length
    rw [hempty, List.length_nil] at hlen
    omega
  · have hvalid := (exists_blacklist_holds_iff.1 ⟨e, he, rfl⟩).2
    rw [hutf8] at hvalid
    cases hvalid

/-- On an account the gate refuses, the keeper answers `bad`, unless it skipped the reason. -/
theorem readBlacklistEntry_of_malformed (h : Sees info raw)
    (hbad : Gate.blacklistRegistry.Malformed issuer mint wallet info)
    (hskip : ¬SkipsReason issuer mint wallet info) :
    readBlacklistEntry raw issuer mint wallet = .ok .bad := by
  refine readBlacklistEntry_of_no_shape h hbad.1 fun active hs => hskip ⟨⟨active, hs⟩, ?_⟩
  by_contra hvalid
  obtain ⟨e, he, -⟩ := exists_blacklist_holds_iff.2 ⟨hs, Bool.not_eq_false _ ▸ hvalid⟩
  exact hbad.2 e he

theorem readBlacklistEntry_of_skipsReason (h : Sees info raw)
    (hskip : SkipsReason issuer mint wallet info) :
    ∃ s, readBlacklistEntry raw issuer mint wallet = .ok (.of s) := by
  obtain ⟨⟨active, hs⟩, -⟩ := hskip
  refine ⟨if active then .active else .inactive, ?_⟩
  rw [readBlacklistEntry_of_shape h hs]
  cases active <;> rfl

/-! ### Allowlist entries -/

theorem readAllowlistEntry_of_holds {e : AllowlistEntry} (h : Sees info raw)
    (he : Gate.allowlistRegistry.Holds issuer mint wallet info e) :
    readAllowlistEntry raw issuer mint wallet = .ok (if e.active then .active else .inactive) := by
  have hat := allowlistEntry_at.1 (AllowlistEntry.account.tryDeserialize_iff.2 he.data)
  obtain ⟨hlen, -⟩ := List.getElem?_eq_some_iff.1 hat.bump
  have hne : info.data ≠ [] := by
    rintro hempty
    rw [hempty, List.length_nil] at hlen
    omega
  have hprefix : AllowlistEntry.account.discriminator.isPrefixOf info.data :=
    isPrefixOf_iff_slice.2 hat.discriminator
  have hmint : mint.1 = slice info.data 8 32 := he.mint ▸ hat.mint
  have hwallet : wallet.1 = slice info.data 40 32 := he.wallet ▸ hat.wallet
  obtain rfl := h.of_nonempty hne
  unfold readAllowlistEntry
  simp only
  rw [if_neg (by simpa using hne), if_neg (by simp [he.owner, hprefix]; omega), index, hat.active,
    unwrap_some, bind_ok, keyAt_eq hmint (by omega), bind_ok, keyAt_eq hwallet (by omega), bind_ok]
  cases e.active <;> simp

theorem readAllowlistEntry_of_malformed (h : Sees info raw)
    (hbad : Gate.allowlistRegistry.Malformed issuer mint wallet info) :
    readAllowlistEntry raw issuer mint wallet = .ok .bad := by
  obtain ⟨hne, hnone⟩ := hbad
  obtain rfl := h.of_nonempty hne
  unfold readAllowlistEntry
  simp only
  rw [if_neg (by simpa using hne)]
  split_ifs with hhead
  · rfl
  simp only [not_or, not_not, not_lt] at hhead
  obtain ⟨hprogram, hprefix, hlen⟩ := hhead
  have h80 : 80 < info.data.length := by omega
  have h81 : 81 < info.data.length := by omega
  rw [index_eq h80, bind_ok, keyAt_ok 8 (by omega), bind_ok, keyAt_ok 40 (by omega), bind_ok]
  refine if_pos ?_
  by_contra hfields
  simp only [not_or, not_not] at hfields
  obtain ⟨hmint, hwallet, hbyte⟩ := hfields
  -- every check passed, so the account is an entry after all
  let e : AllowlistEntry := ⟨mint, wallet, Gate.i64FromLeBytes (slice info.data 72 8),
    decide (info.data[80] = 1), info.data[81]⟩
  have hactive : info.data[80]? = some (if e.active then 1 else 0) := by
    rw [List.getElem?_eq_getElem h80]
    by_cases hone : info.data[80] = 1
    · simp [e, hone]
    · simp [e, byte_of_not_one_lt hbyte hone]
  have hat : e.LaidOut info.data :=
    ⟨isPrefixOf_iff_slice.1 hprefix, congrArg Subtype.val hmint.symm, congrArg Subtype.val hwallet.symm,
      Gate.toNat_i64FromLeBytes (slice_length (by omega)), hactive, List.getElem?_eq_getElem h81⟩
  exact hnone e ⟨hprogram, AccountType.tryDeserialize_iff _ |>.1 (allowlistEntry_at.2 hat), rfl, rfl⟩

theorem readAllowlistEntry_of_said {s : Gate.Entry} (h : Sees info raw)
    (hs : Gate.allowlistRegistry.Says issuer mint wallet info s) :
    readAllowlistEntry raw issuer mint wallet = .ok (.of s) := by
  cases s with
  | none => rcases h.of_empty hs with rfl | ⟨owner, rfl⟩ <;> rfl
  | inactive =>
    obtain ⟨-, e, he, hactive⟩ := hs
    rw [readAllowlistEntry_of_holds h he, show e.active = false from hactive]
    rfl
  | active =>
    obtain ⟨-, e, he, hactive⟩ := hs
    rw [readAllowlistEntry_of_holds h he, show e.active = true from hactive]
    rfl

end entry

/-! ### Attestations -/

section attestation

variable {policy : Gate.GatePolicy} {holder : Pubkey} {info : AccountInfo} {raw : Option RawAccount}

theorem readAttestation_of_empty (h : Sees info raw) (hempty : info.data = []) (credential schema : Pubkey) :
    readAttestation raw credential schema holder = .ok .missing := by
  rcases h.of_empty hempty with rfl | ⟨owner, rfl⟩ <;> rfl

/-- An attestation's bytes, read under its own names. -/
theorem readAttestation_of_laidOut {a : Gate.Attestation} {bs : Bytes} (h : a.LaidOut bs) :
    readAttestation (some ⟨sasId, bs⟩) a.credential a.schema a.nonce =
      .ok (.present a.expiry a.data.1.length a.kycLevel) := by
  have hlen := h.length
  unfold readAttestation
  simp only
  rw [if_neg (by omega), if_neg (by simp; omega), index, h.discriminator, unwrap_some, bind_ok, if_neg (by simp),
    keyAt_eq h.nonce (by omega), bind_ok, keyAt_eq h.credential (by omega), bind_ok, keyAt_eq h.schema (by omega),
    bind_ok, if_neg (by simp), getUint32_eq (by omega), bind_ok, ← h.dataLen, if_neg (by omega),
    getBigInt64_eq (by omega), bind_ok, Gate.i64FromLeBytes_eq h.expiry, h.kycLevel_eq, pure_eq]
  rcases Nat.eq_zero_or_pos a.data.1.length with hnone | hpos
  · simp [hnone]
  · rw [if_pos (Nat.succ_le_of_lt hpos), if_neg hpos.ne']

theorem readAttestation_of_holds {a : Gate.Attestation} (h : Sees info raw)
    (ha : Gate.Attestation.Holds policy holder info a) :
    readAttestation raw policy.sasCredential policy.sasSchema holder =
      .ok (.present a.expiry a.data.1.length a.kycLevel) := by
  have hat := Gate.Attestation.attestation_at.1 (Gate.Attestation.account.tryDeserialize_iff.2 ha.data)
  have hlen := hat.length
  have hne : info.data ≠ [] := by
    rintro hempty
    rw [hempty, List.length_nil] at hlen
    omega
  obtain rfl := h.of_nonempty hne
  rw [ha.program, ← ha.credential, ← ha.schema, ← ha.nonce, readAttestation_of_laidOut hat]

theorem readAttestation_of_not_holds (h : Sees info raw) (hne : info.data ≠ [])
    (hnone : ∀ a, ¬Gate.Attestation.Holds policy holder info a) :
    readAttestation raw policy.sasCredential policy.sasSchema holder = .ok .bad := by
  obtain rfl := h.of_nonempty hne
  unfold readAttestation
  simp only
  rw [if_neg (by simpa using hne)]
  split_ifs with hhead
  · rfl
  simp only [not_or, not_not, not_lt] at hhead
  obtain ⟨hprogram, hlen⟩ := hhead
  have h0 : 0 < info.data.length := by omega
  rw [index_eq h0, bind_ok]
  split_ifs with hdisc
  · rfl
  rw [keyAt_ok 1 (by omega), bind_ok, keyAt_ok 33 (by omega), bind_ok, keyAt_ok 65 (by omega), bind_ok]
  split_ifs with hnames
  · rfl
  simp only [not_or, not_not] at hdisc hnames
  obtain ⟨hnonce, hcredential, hschema⟩ := hnames
  rw [getUint32_eq (by omega), bind_ok]
  refine if_pos ?_
  by_contra htail
  -- every check passed, so the account is an attestation after all
  obtain ⟨a, ha⟩ := Gate.Attestation.exists_laidOut
    (List.getElem?_eq_some_iff.2 ⟨h0, hdisc⟩) (not_lt.1 htail)
  exact hnone a ⟨hprogram,
    AccountType.tryDeserialize_iff _ |>.1 (Gate.Attestation.attestation_at.2 ha),
    (Subtype.ext ha.nonce).trans hnonce, (Subtype.ext ha.credential).trans hcredential,
    (Subtype.ext ha.schema).trans hschema⟩

end attestation

end ThawGate.Keeper
