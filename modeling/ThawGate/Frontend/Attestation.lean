import ThawGate.Gate.Waiting
import ThawGate.Keeper.Accounts
import ThawGate.Lib.Double

/-!
# One attestation, three readers

The gate, the keeper and the frontend each read an attestation's expiry and first data byte in byte offsets
of their own. The gate's and the keeper's expiry is the stored one. The frontend's is a JavaScript number,
the double nearest to it, which is the stored expiry exactly when that has 53 significant bits.
-/

namespace ThawGate.Frontend

open Borsh Exec
open Gate (Attestation Credential parseAttestation)
open Keeper (keyAt getUint32 getBigInt64)

/-- What the frontend shows of an attestation; `expiry` is a number, which every integer double is. -/
structure AttestationView where
  signer : Pubkey
  expiry : ℤ
  kycLevel : Option UInt8
  deriving DecidableEq

/-- `readAttestation` of chainLogs.ts: it checks no name and no owner. -/
def readAttestation (data : Bytes) : Exec Empty (Option AttestationView) :=
  if data.length < 101 then .ok none
  else do
    if (← index data 0) ≠ 2 then return none
    let len ← getUint32 data 97
    if data.length < 141 + len then return none
    let signer ← keyAt data (101 + len)
    let expiry ← getBigInt64 data (133 + len)
    -- `Number(…)`
    return some ⟨signer, Double.ofInt expiry.toInt, if 1 ≤ len then data[101]? else none⟩

theorem readAttestation_of_laidOut {a : Attestation} {bs : Bytes} (h : a.LaidOut bs) :
    readAttestation bs = .ok (some ⟨a.signer, Double.ofInt a.expiry.toInt, a.kycLevel⟩) := by
  have hlen := h.length
  have hexpiry : a.expiry.toUInt64.toNat = leNat (slice bs (133 + a.data.1.length) 8) := by
    rw [h.expiry]
    congr 2
    omega
  unfold readAttestation
  rw [if_neg (by omega), index, h.discriminator, unwrap_some, bind_ok, if_neg (by simp),
    Keeper.getUint32_eq (by omega), bind_ok, ← h.dataLen, if_neg (by omega),
    Keeper.keyAt_eq h.signer (by omega), bind_ok, Keeper.getBigInt64_eq (by omega), bind_ok,
    Gate.i64FromLeBytes_eq hexpiry, h.kycLevel_eq, pure_eq]
  rcases Nat.eq_zero_or_pos a.data.1.length with hnone | hpos
  · simp [hnone]
  · rw [if_pos (Nat.succ_le_of_lt hpos), if_neg hpos.ne']

theorem readAttestation_of_not_laidOut {bs : Bytes} (h : ∀ a : Attestation, ¬a.LaidOut bs) :
    readAttestation bs = .ok none := by
  unfold readAttestation
  split_ifs with hlen
  · rfl
  have h0 : 0 < bs.length := by omega
  rw [index_eq h0, bind_ok]
  split_ifs with hdisc
  · rfl
  rw [Keeper.getUint32_eq (by omega), bind_ok]
  refine if_pos (lt_of_not_ge fun htail => ?_)
  obtain ⟨a, ha⟩ := Attestation.exists_laidOut (List.getElem?_eq_some_iff.2 ⟨h0, not_not.1 hdisc⟩) (by omega)
  exact h a ha

/-! ### The gate's answer -/

section gate

variable {a : Attestation} {bs : Bytes} {minKycLevel : UInt8} {now : Int64}

theorem verdict_ne_panic (a : Attestation) (minKycLevel : UInt8) (now : Int64) :
    Gate.Sas.verdict a minKycLevel now ≠ .panic := by
  unfold Gate.Sas.verdict
  split_ifs
  · simp
  · cases a.kycLevel with
    | none => simp
    | some level =>
      dsimp only
      split_ifs <;> simp
  · simp

theorem parseAttestation_ne_panic (bs : Bytes) (credential schema owner : Pubkey) (minKycLevel : UInt8)
    (now : Int64) : parseAttestation bs credential schema owner minKycLevel now ≠ .panic := by
  by_cases h : ∃ a : Attestation, a.LaidOut bs ∧ a.nonce = owner ∧ a.credential = credential ∧ a.schema = schema
  · obtain ⟨a, ha, rfl, rfl, rfl⟩ := h
    rw [Gate.Sas.parseAttestation_eq_verdict ha]
    exact verdict_ne_panic a minKycLevel now
  · rw [Gate.Sas.parseAttestation_eq_err fun a ha hnames => h ⟨a, ha, hnames⟩]
    simp

/-- What a live attestation is worth under a minimum level. -/
def liveAnswer (minKycLevel : UInt8) (kycLevel : Option UInt8) : Exec Gate.GateError Credential :=
  if minKycLevel = 0 then .ok .valid
  else
    match kycLevel with
    | none => .err .deniedBadCredential
    | some level => .ok (if level < minKycLevel then .levelTooLow else .valid)

theorem verdict_eq (a : Attestation) (minKycLevel : UInt8) (now : Int64) :
    Gate.Sas.verdict a minKycLevel now =
      if a.expiry ≠ 0 ∧ a.expiry < now then .ok .expired else liveAnswer minKycLevel a.kycLevel := by
  unfold Gate.Sas.verdict liveAnswer
  have hmin : 0 < minKycLevel ↔ ¬minKycLevel = 0 := by
    rw [UInt8.lt_iff_toNat_lt, ← UInt8.toNat_inj]
    exact Nat.pos_iff_ne_zero
  by_cases hzero : minKycLevel = 0
  · rw [if_pos hzero, if_neg (mt hmin.1 (not_not.2 hzero))]
  · rw [if_neg hzero, if_pos (hmin.2 hzero)]
    cases a.kycLevel with
    | none => rfl
    | some level =>
      dsimp only
      split_ifs <;> rfl

end gate

/-- **Reading an attestation**: the gate's reader never leaves the data, refuses whatever is not an attestation of
these names with room for signer and expiry, and answers one that is by expiry, then level. From the same bytes
the keeper reads the same expiry and first byte. The frontend reads the same first byte, and the double nearest
to the expiry, which is the expiry itself exactly when that has 53 significant bits. -/
theorem attestation_reading (bs : Bytes) (credential schema owner : Pubkey) (minKycLevel : UInt8) (now : Int64) :
    parseAttestation bs credential schema owner minKycLevel now ≠ .panic ∧
      ((∀ a : Attestation, a.LaidOut bs → ¬(a.nonce = owner ∧ a.credential = credential ∧ a.schema = schema)) →
        parseAttestation bs credential schema owner minKycLevel now = .err .deniedBadCredential) ∧
      ∀ a : Attestation, a.LaidOut bs → a.nonce = owner ∧ a.credential = credential ∧ a.schema = schema →
        (parseAttestation bs credential schema owner minKycLevel now =
          if a.expiry ≠ 0 ∧ a.expiry < now then .ok .expired else liveAnswer minKycLevel a.kycLevel) ∧
        Keeper.readAttestation (some ⟨sasId, bs⟩) credential schema owner =
          .ok (.present a.expiry a.data.1.length a.kycLevel) ∧
        readAttestation bs = .ok (some ⟨a.signer, Double.ofInt a.expiry.toInt, a.kycLevel⟩) ∧
        (Double.ofInt a.expiry.toInt = a.expiry.toInt ↔ Double.Exact a.expiry.toInt) ∧
        (a.expiry.toInt.natAbs ≤ 2 ^ 53 → Double.Exact a.expiry.toInt) ∧
        ∀ d, Double.Exact d →
          (Double.ofInt a.expiry.toInt - a.expiry.toInt).natAbs ≤ (d - a.expiry.toInt).natAbs := by
  refine ⟨parseAttestation_ne_panic bs credential schema owner minKycLevel now,
    fun hnames => Gate.Sas.parseAttestation_eq_err hnames minKycLevel now, ?_⟩
  rintro a ha ⟨rfl, rfl, rfl⟩
  refine ⟨?_, Keeper.readAttestation_of_laidOut ha, readAttestation_of_laidOut ha, Double.ofInt_eq_iff, Double.exact_of_le,
    ?_⟩
  · rw [Gate.Sas.parseAttestation_eq_verdict ha, verdict_eq]
  · intro d hd
    exact Double.ofInt_nearest _ hd

/-- An expiry of 2^53 + 1: the keeper reads it, and the frontend the double below. -/
theorem frontend_rounds_expiry :
    let info := Gate.sampleCredential 9007199254740993
    Keeper.readAttestation (some ⟨info.owner, info.data⟩) (sampleKey 3) (sampleKey 4) (sampleKey 5) =
        .ok (.present 9007199254740993 1 (some 2)) ∧
      readAttestation info.data = .ok (some ⟨sampleKey 6, 9007199254740992, some 2⟩) := by
  decide +kernel

end ThawGate.Frontend
