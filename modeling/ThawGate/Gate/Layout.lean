import ThawGate.Gate.State

/-!
# Where the extra accounts sit

The gate instruction's accounts are `0 caller | 1 token_account | 2 mint | 3 token_account_owner |
4 flag_account | 5 extra_metas | 6 policy`, then, only for enabled policies, the issuer program, the
blacklist entry, the allowlist entry, and the SAS group. `Layout.of` is the single source for both
writing the extra-metas list and reading the accounts back.
-/

namespace ThawGate.Gate

abbrev mintIndex : Nat := 2
abbrev ownerIndex : Nat := 3
abbrev extraMetasIndex : Nat := 5
abbrev policyIndex : Nat := 6

/-- The SAS group, from its first index: SAS program, credential, schema, attestation. -/
abbrev sasGroupLen : Nat := 4
abbrev sasCredentialOffset : Nat := 1
abbrev sasSchemaOffset : Nat := 2
abbrev sasAttestationOffset : Nat := 3

structure Layout where
  issuer : Option Nat
  blacklist : Option Nat
  allowlist : Option Nat
  /-- First index of the SAS group. -/
  sas : Option Nat
  /-- Number of accounts in the gate instruction. -/
  len : Nat
  deriving DecidableEq, Repr

namespace Layout

/-- The closure of `Layout::of`: the next `width` indices if `on`, and the counter behind them. -/
def slot (on : Bool) (width next : Nat) : Option Nat × Nat :=
  if on then (some next, next + width) else (none, next)

def of (checkBlacklist : Bool) (allowlistMode : AllowlistMode) (requireSas : Bool) : Layout :=
  let allowlistOn : Bool := allowlistMode ≠ .off
  let issuer := slot (checkBlacklist || allowlistOn) 1 (policyIndex + 1)
  let blacklist := slot checkBlacklist 1 issuer.2
  let allowlist := slot allowlistOn 1 blacklist.2
  let sas := slot requireSas sasGroupLen allowlist.2
  ⟨issuer.1, blacklist.1, allowlist.1, sas.1, sas.2⟩

def forPolicy (policy : GatePolicy) : Layout :=
  of policy.checkBlacklist policy.allowlistMode policy.requireSas

/-- Index of the holder's SAS attestation. -/
def attestation (l : Layout) : Option Nat := l.sas.map (· + sasAttestationOffset)

/-! ### What a layout places -/

section places

variable (b : Bool) (m : AllowlistMode) (s : Bool)

theorem of_isSome : (of b m s).blacklist.isSome = b ∧ (of b m s).allowlist.isSome = decide (m ≠ .off) ∧
    (of b m s).attestation.isSome = s := by
  cases b <;> cases m <;> cases s <;> decide

theorem of_blacklist_lt : ∀ i ∈ (of b m s).blacklist, policyIndex < i ∧ i < (of b m s).len := by
  cases b <;> cases m <;> cases s <;> decide

theorem of_allowlist_lt : ∀ i ∈ (of b m s).allowlist, policyIndex < i ∧ i < (of b m s).len := by
  cases b <;> cases m <;> cases s <;> decide

theorem of_attestation_lt : ∀ i ∈ (of b m s).attestation, policyIndex < i ∧ i < (of b m s).len := by
  cases b <;> cases m <;> cases s <;> decide

end places

/-- The layout places an account exactly when the policy consults it, always behind the policy
account and before the layout's end. -/
structure Places (l : Layout) (policy : GatePolicy) : Prop where
  blacklist : l.blacklist.isSome ↔ policy.checkBlacklist = true
  allowlist : l.allowlist.isSome ↔ policy.allowlistMode ≠ .off
  attestation : l.attestation.isSome ↔ policy.requireSas = true
  blacklist_lt : ∀ i ∈ l.blacklist, policyIndex < i ∧ i < l.len
  allowlist_lt : ∀ i ∈ l.allowlist, policyIndex < i ∧ i < l.len
  attestation_lt : ∀ i ∈ l.attestation, policyIndex < i ∧ i < l.len

theorem forPolicy_places (policy : GatePolicy) : (forPolicy policy).Places policy := by
  obtain ⟨hb, ha, hs⟩ := of_isSome policy.checkBlacklist policy.allowlistMode policy.requireSas
  exact ⟨by rw [← hb]; rfl, by rw [← decide_eq_true_iff (p := policy.allowlistMode ≠ .off), ← ha]; rfl,
    by rw [← hs]; rfl, of_blacklist_lt _ _ _, of_allowlist_lt _ _ _, of_attestation_lt _ _ _⟩

theorem forPolicy_len_le (policy : GatePolicy) : (forPolicy policy).len ≤ 14 := by
  unfold forPolicy
  generalize policy.checkBlacklist = b
  generalize policy.allowlistMode = m
  generalize policy.requireSas = s
  cases b <;> cases m <;> cases s <;> decide

example : of true .bypassForPdas true = ⟨some 7, some 8, some 9, some 10, 14⟩ := rfl

end Layout

end ThawGate.Gate
