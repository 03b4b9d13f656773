import ThawGate.Gate.Holder
import ThawGate.Gate.Metas

/-!
# What a list resolves to

Token ACL resolves the list of a variant and calls the gate with the accounts it finds. The metas of
`extraMetas` count through the same layout that `decide` reads its accounts with, so for every policy the
call has the shape of `Holder.context`, with each account at its derived address (`invokeContext_eq`). On such
a call `decide` misses no account, and its answer depends on the accounts at those addresses alone
(`decide_ne_missing`, `decide_congr`).
-/

namespace ThawGate.Gate

open Borsh Exec

/-! ### The call of the gate -/

/-- The accounts of the interface, which the metas count from. -/
structure Base where
  caller : AccountInfo
  tokenAccount : AccountInfo
  mint : AccountInfo
  owner : AccountInfo
  flagAccount : AccountInfo
  extraMetas : AccountInfo

namespace Base

variable (b : Base)

def accounts : List AccountInfo := [b.caller, b.tokenAccount, b.mint, b.owner, b.flagAccount, b.extraMetas]

/-- Five accounts have a name in `CanGate`; the others remain. -/
def context (accounts : List AccountInfo) : CanGate :=
  ⟨b.caller, b.tokenAccount, b.mint, b.owner, b.flagAccount, accounts.drop extraMetasIndex⟩

end Base

/-- Token ACL's call: resolve the list, and hand the gate what it resolves to. -/
def invokeContext (c : ThawGate.Accounts) (v : Variant) (b : Base) : Option CanGate := do
  let metas ← MetaList.unpack v.discriminator b.extraMetas.data
  let accounts ← resolveMetas c gateId b.accounts metas
  some (b.context accounts)

/-! ### Where the accounts are -/

section addresses

variable (c : ThawGate.Accounts) (policy : GatePolicy) (mint owner : Pubkey)

def policyKey : Pubkey := c.findProgramAddress [policySeed, mint.1] gateId

def blacklistKey : Pubkey := c.findProgramAddress [seedBlacklist, mint.1, owner.1] policy.issuerProgram

def allowlistKey : Pubkey := c.findProgramAddress [seedAllowlist, mint.1, owner.1] policy.issuerProgram

def attestationKey : Pubkey :=
  c.findProgramAddress [attestationSeed, policy.sasCredential.1, policy.sasSchema.1, owner.1] sasId

/-- The accounts of an owner, each at its address. -/
def ownerAccountsAt : OwnerAccounts where
  blacklist := c.info (blacklistKey c policy mint owner)
  allowlist := c.info (allowlistKey c policy mint owner)
  attestation := c.info (attestationKey c policy owner)

/-- The holder that the call of the gate is about. -/
def Base.holder (b : Base) : Holder where
  caller := b.caller
  tokenAccount := b.tokenAccount
  mint := b.mint
  owner := b.owner
  flagAccount := b.flagAccount
  extraMetas := b.extraMetas
  issuerProgram := c.info policy.issuerProgram
  sasProgram := c.info sasId
  credential := c.info policy.sasCredential
  schema := c.info policy.sasSchema
  accounts := ownerAccountsAt c policy b.mint.key b.owner.key

end addresses

/-- Every meta counts to the account it is meant for, whatever the policy has switched on. -/
theorem resolveMetas_extraMetas {c : ThawGate.Accounts} {policy : GatePolicy} {metas : List ExtraAccountMeta}
    (b : Base) (h : extraMetas policy = some metas) : ∃ accounts, resolveMetas c gateId b.accounts metas = some accounts ∧
      b.context accounts = (b.holder c policy).context policy (c.info (policyKey c b.mint.key)) := by
  obtain ⟨version, bump, mint, authority, issuer, check, mode, req, credential, schema, level, reserved⟩ := policy
  cases check <;> cases mode <;> cases req <;>
  · obtain rfl := Option.some.inj h
    exact ⟨_, rfl, rfl⟩

theorem metas_length_lt {policy : GatePolicy} {metas : List ExtraAccountMeta} (h : extraMetas policy = some metas) :
    metas.length < 256 ^ 4 := by
  obtain ⟨metas', hmetas, hlen⟩ := length_extraMetas policy
  obtain rfl := Option.some.inj (h.symm.trans hmetas)
  have hle := Layout.forPolicy_len_le policy
  simp only [policyIndex] at hlen
  omega

/-- A list that was written for a policy gives the gate this policy's accounts. -/
theorem invokeContext_eq {c : ThawGate.Accounts} {v : Variant} {policy : GatePolicy} {metas : List ExtraAccountMeta}
    {b : Base} (h : extraMetas policy = some metas) (hdata : b.extraMetas.data = MetaList.pack v.discriminator metas) :
    invokeContext c v b = some ((b.holder c policy).context policy (c.info (policyKey c b.mint.key))) := by
  obtain ⟨accounts, hresolve, hcontext⟩ := resolveMetas_extraMetas (c := c) b h
  have hunpack := MetaList.unpack_pack (discriminator_length v) (extraMetas_fits h) (metas_length_lt h) []
  rw [List.append_nil] at hunpack
  rw [invokeContext, hdata, hunpack, Option.bind_eq_bind, Option.bind_some, hresolve, Option.bind_eq_bind,
    Option.bind_some, hcontext]

/-! ### What `decide` reads -/

namespace CanGate

/-- The accounts that `decide` looks up for `p` are those at the derived addresses. -/
structure ReadsFrom (ctx : CanGate) (c : ThawGate.Accounts) (p : GatePolicy) : Prop where
  policy : ctx.extra policyIndex = some (c.info (policyKey c ctx.mint.key))
  blacklist : ∀ i ∈ (Layout.forPolicy p).blacklist,
    ctx.extra i = some (c.info (blacklistKey c p ctx.mint.key ctx.owner.key))
  allowlist : ∀ i ∈ (Layout.forPolicy p).allowlist,
    ctx.extra i = some (c.info (allowlistKey c p ctx.mint.key ctx.owner.key))
  attestation : ∀ i ∈ (Layout.forPolicy p).attestation,
    ctx.extra i = some (c.info (attestationKey c p ctx.owner.key))

/-- Two calls of the gate that agree on everything it looks up for `p`. -/
structure SameReads (p : GatePolicy) (ctx ctx' : CanGate) : Prop where
  tokenAccount : ctx'.tokenAccount = ctx.tokenAccount
  mint : ctx'.mint.key = ctx.mint.key
  owner : ctx'.owner.key = ctx.owner.key
  complete : ctx'.Complete p ↔ ctx.Complete p
  policy : ctx'.extra policyIndex = ctx.extra policyIndex
  blacklist : ∀ i ∈ (Layout.forPolicy p).blacklist, ctx'.extra i = ctx.extra i
  allowlist : ∀ i ∈ (Layout.forPolicy p).allowlist, ctx'.extra i = ctx.extra i
  attestation : ∀ i ∈ (Layout.forPolicy p).attestation, ctx'.extra i = ctx.extra i

theorem read_congr {ctx ctx' : CanGate} {index : Option Nat} (h : ∀ i ∈ index, ctx'.extra i = ctx.extra i)
    (reader : AccountInfo → Exec GateError Entry) : ctx'.read index reader = ctx.read index reader := by
  cases index with
  | none => rfl
  | some i => rw [read, read, h i rfl]

end CanGate

section decides

variable {rt : Runtime} {ctx ctx' : CanGate} {policy : GatePolicy}

theorem readSas_congr (h : ctx.SameReads policy ctx') (allowlist : Option Entry) :
    readSas rt ctx' policy allowlist = readSas rt ctx policy allowlist := by
  unfold readSas
  cases hidx : (Layout.forPolicy policy).attestation with
  | none => rfl
  | some i =>
    dsimp only
    rw [h.owner, h.attestation i hidx]

/-- Nothing else decides: two calls that agree on what is looked up get the same answer. -/
theorem decide_congr (hload : ctx.Loads policy) (h : CanGate.SameReads policy ctx ctx') (op : Op) :
    decide rt ctx' op = decide rt ctx op := by
  obtain ⟨⟨info, hinfo, hpolicy⟩, hlen⟩ := hload
  have hlen' := h.complete.2 hlen
  have himmutable : immutableOwnerFor rt ctx' op = immutableOwnerFor rt ctx op := by
    cases op with
    | thaw => rw [immutableOwnerFor, immutableOwnerFor, h.tokenAccount]
    | freeze => rfl
  unfold decide
  simp only [h.policy, h.mint, h.owner, hinfo, loadPolicy_eq_some.2 hpolicy, if_neg (not_lt.2 hlen),
    if_neg (not_lt.2 hlen'), CanGate.read_congr h.blacklist, CanGate.read_congr h.allowlist, readSas_congr h,
    himmutable]

theorem evaluate_ne_missing (op : Op) (facts : Facts) : evaluate op facts ≠ .deny .missingAccounts := by
  have hflag (f : Flag) : f.deny ≠ .missingAccounts := by cases f <;> decide
  unfold evaluate
  cases op with
  | thaw =>
    dsimp only
    split_ifs
    · decide
    · cases flag facts with
      | none => exact Decision.noConfusion
      | some f => exact fun h => hflag f (Decision.deny.inj h)
  | freeze =>
    cases flag facts with
    | none => exact fun h => Deny.noConfusion (Decision.deny.inj h)
    | some f => exact Decision.noConfusion

theorem readSas_error {allowlist : Option Entry} {d : Deny} (h : readSas rt ctx policy allowlist = .ok (.error d)) :
    d = .badCredential := by
  unfold readSas at h
  split at h
  · cases h
  · split_ifs at h
    · cases h
    · obtain ⟨credential, -, h⟩ := bind_eq_ok.1 h
      cases credential <;> cases h
      rfl

/-- On a list as long as the policy's layout no account is missing. -/
theorem decide_ne_missing (hload : ctx.Loads policy) (op : Op) :
    decide rt ctx op ≠ .ok (.deny .missingAccounts) := by
  obtain ⟨⟨info, hinfo, hpolicy⟩, hlen⟩ := hload
  intro h
  unfold decide at h
  simp only [hinfo, loadPolicy_eq_some.2 hpolicy, if_neg (not_lt.2 hlen)] at h
  obtain ⟨blacklist, -, h⟩ := bind_eq_ok.1 h
  obtain ⟨allowlist, -, h⟩ := bind_eq_ok.1 h
  split at h
  · obtain ⟨sas, hsas, h⟩ := bind_eq_ok.1 h
    cases sas with
    | ok sas => exact evaluate_ne_missing _ _ (ok.inj h)
    | error d =>
      obtain rfl := readSas_error hsas
      cases h
  · cases h

end decides

/-- The call that a policy's list gives rise to reads the accounts at the derived addresses. -/
theorem context_readsFrom (c : ThawGate.Accounts) (policy : GatePolicy) (b : Base) :
    ((b.holder c policy).context policy (c.info (policyKey c b.mint.key))).ReadsFrom c policy := by
  obtain ⟨version, bump, mint, authority, issuer, check, mode, req, credential, schema, level, reserved⟩ := policy
  refine ⟨rfl, ?_, ?_, ?_⟩ <;> cases check <;> cases mode <;> cases req <;> rintro i hi <;> cases hi <;> rfl

end ThawGate.Gate
