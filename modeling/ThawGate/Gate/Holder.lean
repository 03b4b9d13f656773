import ThawGate.Gate.Exclusive

/-!
# A holder's account list

The accounts Token ACL passes to the gate for one holder, in the order of the policy's layout
(`Holder.context`). The handler's reads find the holder's own accounts there, wherever the policy
consults them.
-/

namespace ThawGate.Gate

open Borsh Exec

/-! ### The accounts a policy consults -/

/-- The same accounts, wherever the policy consults them. -/
structure OwnerAccounts.ConsultedAs (policy : GatePolicy) (r r' : OwnerAccounts) : Prop where
  blacklist : policy.checkBlacklist = true → r.blacklist = r'.blacklist
  allowlist : policy.allowlistMode ≠ .off → r.allowlist = r'.allowlist
  attestation : policy.requireSas = true → r.attestation = r'.attestation

theorem OwnerAccounts.ConsultedAs.symm {policy : GatePolicy} {r r' : OwnerAccounts}
    (h : r.ConsultedAs policy r') : r'.ConsultedAs policy r :=
  ⟨fun hon => (h.blacklist hon).symm, fun hon => (h.allowlist hon).symm,
    fun hon => (h.attestation hon).symm⟩

section consulted

variable {rt : Runtime} {policy : GatePolicy} {owner : Pubkey} {r r' : OwnerAccounts}

theorem OwnerAccounts.ConsultedAs.attestationRead (h : r.ConsultedAs policy r') :
    AttestationRead rt policy owner r ↔ AttestationRead rt policy owner r' := by
  unfold AttestationRead Bypassed
  refine and_congr_right fun _ => not_congr (and_congr_right fun hmode => and_congr_left' ?_)
  rw [AllowlistSays, AllowlistSays, h.allowlist (by simp [hmode])]

theorem OwnerAccounts.ConsultedAs.unreadable (h : r.ConsultedAs policy r') :
    Unreadable rt policy owner r ↔ Unreadable rt policy owner r' := by
  refine or_congr (and_congr_right fun hon => ?_) (or_congr (and_congr_right fun hon => ?_) ?_)
  · rw [h.blacklist hon]
  · rw [h.allowlist hon]
  · rw [h.attestationRead]
    exact and_congr_right fun hread => by rw [h.attestation hread.1]

theorem OwnerAccounts.ConsultedAs.gathers {facts : Facts} (h : r.ConsultedAs policy r')
    (hg : Gathers rt policy owner r facts) : Gathers rt policy owner r' facts := by
  obtain ⟨hb, ha, hmode, hsas⟩ := hg
  refine ⟨?_, ?_, hmode, ?_⟩
  · refine hb.congr fun hon s => ?_
    rw [BlacklistSays, BlacklistSays, h.blacklist hon]
  · refine ha.congr fun hon s => ?_
    rw [AllowlistSays, AllowlistSays, h.allowlist hon]
  · cases hs : facts.sas with
    | notRequired =>
      rw [hs] at hsas
      exact hsas
    | bypassed =>
      rw [hs] at hsas
      exact ⟨hsas.1, by_contra fun hby => (h.attestationRead.2 ⟨hsas.1, hby⟩).2 hsas.2⟩
    | checked c =>
      rw [hs] at hsas
      exact ⟨h.attestationRead.1 hsas.1, h.attestation hsas.1.1 ▸ hsas.2⟩

/-- The same accounts, wherever the decision reads them. -/
structure OwnerAccounts.ReadAs (rt : Runtime) (policy : GatePolicy) (owner : Pubkey) (r r' : OwnerAccounts) : Prop where
  blacklist : policy.checkBlacklist = true → r.blacklist = r'.blacklist
  allowlist : policy.allowlistMode ≠ .off → r.allowlist = r'.allowlist
  attestation : AttestationRead rt policy owner r → r.attestation = r'.attestation

namespace OwnerAccounts.ReadAs

variable (h : r.ReadAs rt policy owner r')
include h

theorem attestationRead : AttestationRead rt policy owner r ↔ AttestationRead rt policy owner r' := by
  unfold AttestationRead Bypassed
  refine and_congr_right fun _ => not_congr (and_congr_right fun hmode => and_congr_left' ?_)
  rw [AllowlistSays, AllowlistSays, h.allowlist (by simp [hmode])]

theorem unreadable : Unreadable rt policy owner r ↔ Unreadable rt policy owner r' := by
  refine or_congr (and_congr_right fun hon => ?_) (or_congr (and_congr_right fun hon => ?_) ?_)
  · rw [h.blacklist hon]
  · rw [h.allowlist hon]
  · rw [← h.attestationRead]
    exact and_congr_right fun hread => by rw [h.attestation hread]

theorem flagged : Flagged rt policy owner r ↔ Flagged rt policy owner r' := by
  refine or_congr (and_congr_right fun hon => ?_) (or_congr (and_congr_right fun hmode => ?_) ?_)
  · rw [BlacklistSays, BlacklistSays, h.blacklist hon]
  · rw [AllowlistSays, AllowlistSays, h.allowlist (by simp [hmode])]
  · rw [← h.attestationRead]
    exact and_congr_right fun hread => by rw [h.attestation hread]

end OwnerAccounts.ReadAs

end consulted

/-! ### A holder's account list -/

/-- One holder's accounts in a call of the gate, but for the policy's. -/
structure Holder where
  caller : AccountInfo
  tokenAccount : AccountInfo
  mint : AccountInfo
  owner : AccountInfo
  flagAccount : AccountInfo
  extraMetas : AccountInfo
  issuerProgram : AccountInfo
  sasProgram : AccountInfo
  credential : AccountInfo
  schema : AccountInfo
  accounts : OwnerAccounts

namespace Holder

variable (h : Holder) (policy : GatePolicy)

def issuerGroup : List AccountInfo :=
  if policy.checkBlacklist ∨ policy.allowlistMode ≠ .off then [h.issuerProgram] else []

def blacklistGroup : List AccountInfo := if policy.checkBlacklist then [h.accounts.blacklist] else []

def allowlistGroup : List AccountInfo :=
  if policy.allowlistMode ≠ .off then [h.accounts.allowlist] else []

def sasGroup : List AccountInfo :=
  if policy.requireSas then [h.sasProgram, h.credential, h.schema, h.accounts.attestation] else []

/-- The gate's context for this holder, with the extra accounts the policy's metas list. -/
def context (policyInfo : AccountInfo) : CanGate where
  caller := h.caller
  tokenAccount := h.tokenAccount
  mint := h.mint
  owner := h.owner
  flagAccount := h.flagAccount
  remainingAccounts := h.extraMetas :: policyInfo ::
    (h.issuerGroup policy ++ h.blacklistGroup policy ++ h.allowlistGroup policy ++ h.sasGroup policy)

variable {policy} {policyInfo : AccountInfo}

theorem context_complete : (h.context policy policyInfo).Complete policy := by
  obtain ⟨_, _, _, _, _, b, m, s, _, _, _, _⟩ := policy
  cases b <;> cases m <;> cases s <;> exact Nat.le_refl _

theorem context_loads (hpolicy : IsPolicyOf h.mint.key policyInfo policy) :
    (h.context policy policyInfo).Loads policy :=
  ⟨⟨policyInfo, rfl, hpolicy⟩, h.context_complete⟩

/-- The accounts at the layout's positions are the holder's, wherever the policy consults them. -/
theorem context_consults :
    ((h.context policy policyInfo).ownerAccounts policy).ConsultedAs policy h.accounts := by
  obtain ⟨_, _, _, _, _, b, m, s, _, _, _, _⟩ := policy
  refine ⟨fun hon => ?_, fun hon => ?_, fun hon => ?_⟩
  · cases hon
    cases m <;> cases s <;> rfl
  · cases m with
    | off => exact absurd rfl hon
    | allowOnly => cases b <;> cases s <;> rfl
    | bypassForPdas => cases b <;> cases s <;> rfl
  · cases hon
    cases b <;> cases m <;> rfl

/-- The freeze of the holder's account is allowed if all accounts that are read are readable and the policy flags the
owner. -/
theorem freeze_allowed_iff (rt : Runtime) (hpolicy : IsPolicyOf h.mint.key policyInfo policy) :
    (∃ allow, decide rt (h.context policy policyInfo) .freeze = .ok (.allow allow)) ↔
      ¬Unreadable rt policy h.owner.key h.accounts ∧ Flagged rt policy h.owner.key h.accounts := by
  let ctx := h.context policy policyInfo
  have hload : ctx.Loads policy := h.context_loads hpolicy
  have hconsults : (ctx.ownerAccounts policy).ConsultedAs policy h.accounts := h.context_consults
  obtain ⟨facts, hfacts⟩ | hbad := gathers_or_unreadable rt policy h.owner.key h.accounts
  · have hallowed := evaluate_freeze_iff { facts with immutableOwner := immutableOwnerFor rt ctx .freeze }
    have hflagged : Facts.Flagged { facts with immutableOwner := immutableOwnerFor rt ctx .freeze } ↔ facts.Flagged :=
      Iff.rfl
    rw [hflagged, Decision.Allowed, hfacts.flagged_iff] at hallowed
    rw [decide_of_gathers hload (hconsults.symm.gathers hfacts) .freeze]
    simp only [ok.injEq]
    rw [hallowed]
    exact (and_iff_right hfacts.readable).symm
  · obtain ⟨deny, hdeny⟩ := decide_of_unreadable hload (hconsults.symm.unreadable.1 hbad)
    rw [hdeny .freeze]
    refine iff_of_false ?_ fun h => h.1 hbad
    rintro ⟨allow, h⟩
    cases h

/-- The freeze is refused for want of a reason if all accounts that are read are readable and the policy does not flag
the owner. -/
theorem freeze_compliant_iff (rt : Runtime) (hpolicy : IsPolicyOf h.mint.key policyInfo policy) :
    decide rt (h.context policy policyInfo) .freeze = .ok (.deny .compliant) ↔
      ¬Unreadable rt policy h.owner.key h.accounts ∧ ¬Flagged rt policy h.owner.key h.accounts := by
  have hallowed := h.freeze_allowed_iff rt hpolicy
  let ctx := h.context policy policyInfo
  have hload : ctx.Loads policy := h.context_loads hpolicy
  have hconsults : (ctx.ownerAccounts policy).ConsultedAs policy h.accounts := h.context_consults
  obtain ⟨facts, hfacts⟩ | hbad := gathers_or_unreadable rt policy h.owner.key h.accounts
  · rw [decide_of_gathers hload (hconsults.symm.gathers hfacts) .freeze] at hallowed ⊢
    rw [and_iff_right hfacts.readable] at hallowed ⊢
    rw [← hallowed, evaluate]
    cases flag { facts with immutableOwner := immutableOwnerFor rt ctx .freeze } <;> simp
  · obtain ⟨d, hd, hdeny⟩ := decide_eq_of_unreadable hload (hconsults.symm.unreadable.1 hbad)
    rw [hdeny .freeze]
    refine iff_of_false ?_ fun h => h.1 hbad
    rcases hd with rfl | rfl <;> simp

end Holder

/-! ### Accounts for concrete calls -/

/-- The account of a policy, as the gate writes it. -/
def policyAccount (policy : GatePolicy) : AccountInfo :=
  ⟨Pubkey.default, gateId, GatePolicy.account.bytes policy⟩

theorem policyAccount_isPolicyOf (policy : GatePolicy) :
    IsPolicyOf policy.mint (policyAccount policy) policy :=
  ⟨rfl, ⟨[], (List.append_nil _).symm⟩, rfl⟩

def absentAccount : AccountInfo := ⟨Pubkey.default, Pubkey.default, []⟩

/-- A runtime where every key is on the curve and every token account has ImmutableOwner. -/
def sampleRuntime : Runtime := ⟨1000, fun _ => true, fun _ => true⟩

/-- The holder with key 5, of mint 1, with these accounts. -/
def sampleHolder (accounts : OwnerAccounts) : Holder where
  caller := absentAccount
  tokenAccount := ⟨sampleKey 7, token2022Id, []⟩
  mint := ⟨sampleKey 1, token2022Id, []⟩
  owner := ⟨sampleKey 5, Pubkey.default, []⟩
  flagAccount := absentAccount
  extraMetas := absentAccount
  issuerProgram := absentAccount
  sasProgram := absentAccount
  credential := absentAccount
  schema := absentAccount
  accounts := accounts

/-- Mint 1's policy: the blacklist is checked, and a credential of any level required. -/
def samplePolicy : GatePolicy where
  version := policyVersion
  bump := 255
  mint := sampleKey 1
  authority := sampleKey 2
  issuerProgram := sssTokenId
  checkBlacklist := true
  allowlistMode := .off
  requireSas := true
  sasCredential := sampleKey 3
  sasSchema := sampleKey 4
  minKycLevel := 0
  reserved := ⟨List.replicate 64 0, reserved_length⟩

end ThawGate.Gate
