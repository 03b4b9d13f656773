import ThawGate.Gate.Decision
import ThawGate.Gate.Layout

/-!
# `can_thaw_permissionless` and `can_freeze_permissionless`

`decide` is the handler both instructions run: it finds the policy and the owner's accounts among the
remaining accounts, reads them and evaluates. What it must answer is stated over the accounts and not
over the readers: `Unreadable` (an account that it reads is malformed) and `Flagged` (some policy flags
the owner). The proof goes through `Gathers`, which relates a policy and the owner's accounts to the
`Facts` the handler evaluates: gathering is total on readable accounts and never panics
(`decide_of_loaded`).
-/

namespace ThawGate.Gate

open Borsh Exec

/-- What the gate asks of the runtime and of crates outside the repository. -/
structure Runtime where
  /-- `Clock::get()?.unix_timestamp` -/
  unixTimestamp : Int64
  /-- `validate_edwards`: the key is an ed25519 point. -/
  validateEdwards : Pubkey → Bool
  /-- The data unpacks as a Token-2022 account with the ImmutableOwner extension. -/
  immutableOwnerExtension : Bytes → Bool

/-- The same runtime at the clock value `now`. -/
def Runtime.atTime (rt : Runtime) (now : Int64) : Runtime := { rt with unixTimestamp := now }

/-- `Context<CanGate>`. -/
structure CanGate where
  caller : AccountInfo
  tokenAccount : AccountInfo
  mint : AccountInfo
  owner : AccountInfo
  flagAccount : AccountInfo
  /-- `[5]` extra_metas and the resolved extras. -/
  remainingAccounts : List AccountInfo

/-- This mint's `GatePolicy`: owned by the gate, right discriminator, `policy.mint == mint`. -/
def loadPolicy (info : AccountInfo) (mint : Pubkey) : Option GatePolicy :=
  if info.owner = gateId then
    (GatePolicy.account.tryDeserialize info.data).filter (·.mint = mint)
  else none

/-- A Token-2022 account with the ImmutableOwner extension. -/
def hasImmutableOwner (rt : Runtime) (info : AccountInfo) : Bool :=
  info.owner = token2022Id && rt.immutableOwnerExtension info.data

def isOffCurve (rt : Runtime) (key : Pubkey) : Bool := !rt.validateEdwards key

namespace CanGate

/-- Gate instruction index to remaining account. -/
def extra (ctx : CanGate) (index : Nat) : Option AccountInfo :=
  ctx.remainingAccounts[index - extraMetasIndex]?

/-- The closure `read` of `decide`. -/
def read (ctx : CanGate) (index : Option Nat) (reader : AccountInfo → Exec GateError Entry) :
    Exec GateError (Option Entry) :=
  match index with
  | none => .ok none
  | some i => do
    let info ← unwrap (ctx.extra i)
    let entry ← reader info
    pure (some entry)

end CanGate

/-- The SAS policy's input, `let sas = …` of `decide`; an `error` is its early return. -/
def readSas (rt : Runtime) (ctx : CanGate) (policy : GatePolicy) (allowlist : Option Entry) :
    Exec Empty (Except Deny SasRead) :=
  match (Layout.forPolicy policy).attestation with
  | none => .ok (.ok .notRequired)
  | some index =>
    -- a pool or vault PDA the issuer allowlisted: the entry stands in for the credential
    if policy.allowlistMode = .bypassForPdas ∧ allowlist = some .active ∧ isOffCurve rt ctx.owner.key then
      .ok (.ok .bypassed)
    else do
      let credential ← attempt do
        let info ← unwrap (ctx.extra index)
        readAttestation info policy ctx.owner.key rt.unixTimestamp
      match credential with
      | .ok credential => .ok (.ok (.checked credential))
      | .error _ => .ok (.error .badCredential)

/-- The ImmutableOwner fact; it is not a freeze criterion. -/
def immutableOwnerFor (rt : Runtime) (ctx : CanGate) : Op → Bool
  | .thaw => hasImmutableOwner rt ctx.tokenAccount
  | .freeze => true

def decide (rt : Runtime) (ctx : CanGate) (op : Op) : Exec Empty Decision :=
  let mint := ctx.mint.key
  let owner := ctx.owner.key
  match ctx.extra policyIndex with
  | none => .ok (.deny .missingAccounts)
  | some policyInfo =>
  match loadPolicy policyInfo mint with
  | none => .ok (.deny .badPolicy)
  | some policy =>
  let layout := Layout.forPolicy policy
  if extraMetasIndex + ctx.remainingAccounts.length < layout.len then .ok (.deny .missingAccounts)
  else do
    let blacklist ← attempt <|
      ctx.read layout.blacklist (readBlacklist · policy.issuerProgram mint owner)
    let allowlist ← attempt <|
      ctx.read layout.allowlist (readAllowlist · policy.issuerProgram mint owner)
    match blacklist, allowlist with
    | .ok blacklist, .ok allowlist =>
      match ← readSas rt ctx policy allowlist with
      | .ok sas =>
        .ok (evaluate op
          ⟨immutableOwnerFor rt ctx op, blacklist, allowlist, policy.allowlistMode, sas⟩)
      | .error deny => .ok (.deny deny)
    | _, _ => .ok (.deny .badRegistryEntry)

/-- `can_gate_handler`: the log line and the instruction's result. -/
def canGateHandler (rt : Runtime) (ctx : CanGate) (op : Op) : Exec Empty (String × Except GateError Unit) := do
  match ← decide rt ctx op with
  | .allow allow => pure (allow.log, .ok ())
  | .deny deny => pure (deny.log, .error deny.error)

/-! ### What the accounts say of an owner -/

/-- The accounts that speak for one owner under a policy. -/
structure OwnerAccounts where
  blacklist : AccountInfo
  allowlist : AccountInfo
  attestation : AccountInfo

section judged

variable (rt : Runtime) (policy : GatePolicy) (owner : Pubkey) (r : OwnerAccounts)

def BlacklistSays (s : Entry) : Prop :=
  blacklistRegistry.Says policy.issuerProgram policy.mint owner r.blacklist s

def AllowlistSays (s : Entry) : Prop :=
  allowlistRegistry.Says policy.issuerProgram policy.mint owner r.allowlist s

/-- An active allowlist entry of an off-curve owner stands in for the credential. -/
def Bypassed : Prop :=
  policy.allowlistMode = .bypassForPdas ∧ AllowlistSays policy owner r .active ∧ isOffCurve rt owner = true

/-- The owner's attestation is read. -/
def AttestationRead : Prop := policy.requireSas = true ∧ ¬Bypassed rt policy owner r

/-- An account that the decision reads is there and malformed. -/
def Unreadable : Prop :=
  (policy.checkBlacklist = true ∧ blacklistRegistry.Malformed policy.issuerProgram policy.mint owner r.blacklist) ∨
    (policy.allowlistMode ≠ .off ∧
      allowlistRegistry.Malformed policy.issuerProgram policy.mint owner r.allowlist) ∨
    (AttestationRead rt policy owner r ∧ Sas.Malformed policy owner rt.unixTimestamp r.attestation)

/-- Some policy flags the owner. -/
def Flagged : Prop :=
  (policy.checkBlacklist = true ∧ BlacklistSays policy owner r .active) ∨
    (policy.allowlistMode = .allowOnly ∧ ¬AllowlistSays policy owner r .active) ∨
    (AttestationRead rt policy owner r ∧
      ∃ c, Sas.Says policy owner rt.unixTimestamp r.attestation c ∧ c ≠ .valid)

/-- What one registry account says where the policy consults it, as the handler passes it on. -/
def Consulted (on : Prop) (meaning : Entry → Prop) : Option Entry → Prop
  | none => ¬on
  | some s => on ∧ meaning s

/-- What the handler evaluates is what the accounts say. -/
structure Gathers (facts : Facts) : Prop where
  blacklist : Consulted (policy.checkBlacklist = true) (BlacklistSays policy owner r) facts.blacklist
  allowlist : Consulted (policy.allowlistMode ≠ .off) (AllowlistSays policy owner r) facts.allowlist
  mode : facts.allowlistMode = policy.allowlistMode
  sas : match facts.sas with
    | .notRequired => policy.requireSas = false
    | .bypassed => policy.requireSas = true ∧ Bypassed rt policy owner r
    | .checked c => AttestationRead rt policy owner r ∧
        Sas.Says policy owner rt.unixTimestamp r.attestation c

end judged

theorem Consulted.congr {on : Prop} {P Q : Entry → Prop} {s : Option Entry} (h : Consulted on P s)
    (hpq : on → ∀ s, P s ↔ Q s) : Consulted on Q s := by
  cases s with
  | none => exact h
  | some s => exact ⟨h.1, (hpq h.1 s).1 h.2⟩

theorem consulted_or_malformed {α : Type} (on : Prop) (t : EntryType α) (issuer mint wallet : Pubkey)
    (info : AccountInfo) :
    (∃ s, Consulted on (t.Says issuer mint wallet info) s) ∨ (on ∧ t.Malformed issuer mint wallet info) := by
  by_cases hon : on
  · rcases EntryType.says_or_malformed t issuer mint wallet info with ⟨s, hs⟩ | hbad
    · exact .inl ⟨some s, hon, hs⟩
    · exact .inr ⟨hon, hbad⟩
  · exact .inl ⟨none, hon⟩

theorem Consulted.not_malformed {α : Type} {on : Prop} {t : EntryType α} {issuer mint wallet : Pubkey}
    {info : AccountInfo} {s : Option Entry} (h : Consulted on (t.Says issuer mint wallet info) s) :
    ¬(on ∧ t.Malformed issuer mint wallet info) := by
  rintro ⟨hon, hbad⟩
  cases s with
  | none => exact h hon
  | some s => exact h.2.not_malformed hbad

theorem Consulted.unique {α : Type} {on : Prop} {t : EntryType α} {issuer mint wallet : Pubkey}
    {info : AccountInfo} {s s' : Option Entry} (h : Consulted on (t.Says issuer mint wallet info) s)
    (h' : Consulted on (t.Says issuer mint wallet info) s') : s = s' := by
  cases s with
  | none =>
    cases s' with
    | none => rfl
    | some s' => exact absurd h'.1 h
  | some s =>
    cases s' with
    | none => exact absurd h.1 h'
    | some s' => rw [h.2.unique h'.2]

/-- An entry is active for the handler exactly when it is consulted and says so. -/
theorem Consulted.active_iff {α : Type} {on : Prop} {t : EntryType α} {issuer mint wallet : Pubkey}
    {info : AccountInfo} {s : Option Entry} (h : Consulted on (t.Says issuer mint wallet info) s) :
    s = some .active ↔ on ∧ t.Says issuer mint wallet info .active := by
  cases s with
  | none => simp [show ¬on from h]
  | some s =>
    rw [Option.some_inj]
    exact ⟨fun hs => hs ▸ h, fun hact => h.2.unique hact.2⟩

section gathers

variable {rt : Runtime} {policy : GatePolicy} {owner : Pubkey} {r : OwnerAccounts} {facts : Facts}

/-- Either every account that the decision reads is readable, and there are facts, or one is not. -/
theorem gathers_or_unreadable (rt : Runtime) (policy : GatePolicy) (owner : Pubkey) (r : OwnerAccounts) :
    (∃ facts, Gathers rt policy owner r facts) ∨ Unreadable rt policy owner r := by
  rcases consulted_or_malformed (policy.checkBlacklist = true) blacklistRegistry policy.issuerProgram policy.mint
    owner r.blacklist with ⟨b, hb⟩ | hbad
  swap
  · exact .inr (.inl hbad)
  rcases consulted_or_malformed (policy.allowlistMode ≠ .off) allowlistRegistry policy.issuerProgram policy.mint
    owner r.allowlist with ⟨a, ha⟩ | hbad
  swap
  · exact .inr (.inr (.inl hbad))
  by_cases hreq : policy.requireSas = true
  swap
  · exact .inl ⟨⟨true, b, a, policy.allowlistMode, .notRequired⟩, hb, ha, rfl, by simpa using hreq⟩
  by_cases hbypass : Bypassed rt policy owner r
  · exact .inl ⟨⟨true, b, a, policy.allowlistMode, .bypassed⟩, hb, ha, rfl, hreq, hbypass⟩
  rcases Sas.says_or_malformed policy owner rt.unixTimestamp r.attestation with ⟨c, hc⟩ | hbad
  · exact .inl ⟨⟨true, b, a, policy.allowlistMode, .checked c⟩, hb, ha, rfl, ⟨hreq, hbypass⟩, hc⟩
  · exact .inr (.inr (.inr ⟨⟨hreq, hbypass⟩, hbad⟩))

theorem Gathers.readable (h : Gathers rt policy owner r facts) : ¬Unreadable rt policy owner r := by
  rintro (hbad | hbad | ⟨⟨hreq, hbypass⟩, hbad⟩)
  · exact h.blacklist.not_malformed hbad
  · exact h.allowlist.not_malformed hbad
  · have hsas := h.sas
    cases hs : facts.sas with
    | notRequired =>
      rw [hs] at hsas
      exact absurd hreq (by simp [hsas])
    | bypassed =>
      rw [hs] at hsas
      exact hbypass hsas.2
    | checked c =>
      rw [hs] at hsas
      exact hsas.2.not_malformed hbad

theorem Gathers.flagged_iff (h : Gathers rt policy owner r facts) :
    facts.Flagged ↔ Flagged rt policy owner r := by
  have hsas : (∃ c, facts.sas = .checked c ∧ c ≠ .valid) ↔ AttestationRead rt policy owner r ∧
      ∃ c, Sas.Says policy owner rt.unixTimestamp r.attestation c ∧ c ≠ .valid := by
    have hsas := h.sas
    cases hs : facts.sas with
    | notRequired =>
      rw [hs] at hsas
      simp [AttestationRead, hsas]
    | bypassed =>
      rw [hs] at hsas
      simp [AttestationRead, hsas.2]
    | checked c =>
      rw [hs] at hsas
      constructor
      · rintro ⟨c', hc', hvalid⟩
        obtain rfl := SasRead.checked.inj hc'
        exact ⟨hsas.1, c, hsas.2, hvalid⟩
      · rintro ⟨-, c', hc', hvalid⟩
        exact ⟨c, rfl, hsas.2.unique hc' ▸ hvalid⟩
  unfold Facts.Flagged Flagged
  refine or_congr h.blacklist.active_iff (or_congr ?_ hsas)
  rw [h.mode]
  refine and_congr_right fun hmode => ?_
  rw [ne_eq, h.allowlist.active_iff]
  simp [hmode, AllowlistSays]

end gathers

/-! ### The handler -/

/-- `info` is the policy account of `mint`. -/
structure IsPolicyOf (mint : Pubkey) (info : AccountInfo) (policy : GatePolicy) : Prop where
  owner : info.owner = gateId
  data : ∃ tail, info.data = GatePolicy.account.bytes policy ++ tail
  mint : policy.mint = mint

theorem loadPolicy_eq_some {info : AccountInfo} {mint : Pubkey} {policy : GatePolicy} :
    loadPolicy info mint = some policy ↔ IsPolicyOf mint info policy := by
  rw [loadPolicy, Option.ite_none_right_eq_some, Option.filter_eq_some_iff,
    AccountType.tryDeserialize_iff, decide_eq_true_eq]
  exact ⟨fun ⟨h, hd, hm⟩ => ⟨h, hd, hm⟩, fun ⟨h, hd, hm⟩ => ⟨h, hd, hm⟩⟩

namespace CanGate

/-- The owner's accounts, at the positions of the policy's layout. -/
def ownerAccounts (ctx : CanGate) (policy : GatePolicy) : OwnerAccounts where
  blacklist := ((Layout.forPolicy policy).blacklist.bind ctx.extra).getD default
  allowlist := ((Layout.forPolicy policy).allowlist.bind ctx.extra).getD default
  attestation := ((Layout.forPolicy policy).attestation.bind ctx.extra).getD default

/-- The list is as long as the policy's layout. -/
def Complete (ctx : CanGate) (policy : GatePolicy) : Prop :=
  (Layout.forPolicy policy).len ≤ extraMetasIndex + ctx.remainingAccounts.length

theorem Complete.extra_isSome {ctx : CanGate} {policy : GatePolicy} (h : ctx.Complete policy) {i : Nat}
    (hi : policyIndex < i ∧ i < (Layout.forPolicy policy).len) : ∃ info, ctx.extra i = some info := by
  refine ⟨_, List.getElem?_eq_getElem ?_⟩
  simp only [policyIndex, Complete, extraMetasIndex] at hi h ⊢
  omega

section read

variable {ctx : CanGate} {index : Option Nat} {α : Type} {t : EntryType α} {on : Prop}
  {issuer mint wallet : Pubkey}

theorem read_of_consulted {s : Option Entry} (hon : index.isSome ↔ on)
    (hidx : ∀ i ∈ index, ∃ info, ctx.extra i = some info)
    (h : Consulted on (t.Says issuer mint wallet ((index.bind ctx.extra).getD default)) s) :
    ctx.read index (t.read · issuer mint wallet) = .ok s := by
  cases index with
  | none =>
    cases s with
    | none => rfl
    | some s => exact absurd (hon.2 h.1) (by simp)
  | some i =>
    obtain ⟨info, hinfo⟩ := hidx i rfl
    cases s with
    | none => exact absurd (hon.1 rfl) h
    | some s =>
      rw [Option.bind_some, hinfo, Option.getD_some] at h
      rw [read, hinfo, unwrap_some, bind_ok, EntryType.read_of_said h.2, bind_ok, pure_eq]

theorem read_of_malformed (hon : index.isSome ↔ on)
    (hidx : ∀ i ∈ index, ∃ info, ctx.extra i = some info)
    (h : on ∧ t.Malformed issuer mint wallet ((index.bind ctx.extra).getD default)) :
    ctx.read index (t.read · issuer mint wallet) = .err .deniedBadRegistryEntry := by
  cases index with
  | none => exact absurd (hon.2 h.1) (by simp)
  | some i =>
    obtain ⟨info, hinfo⟩ := hidx i rfl
    rw [Option.bind_some, hinfo, Option.getD_some] at h
    rw [read, hinfo, unwrap_some, bind_ok, EntryType.read_of_malformed h.2, bind_err]

/-- A registry read either passes on what the account says, or fails on a malformed account. -/
theorem read_cases (hon : index.isSome ↔ on) (hidx : ∀ i ∈ index, ∃ info, ctx.extra i = some info) :
    (∃ s, Consulted on (t.Says issuer mint wallet ((index.bind ctx.extra).getD default)) s ∧
      ctx.read index (t.read · issuer mint wallet) = .ok s) ∨
    ((on ∧ t.Malformed issuer mint wallet ((index.bind ctx.extra).getD default)) ∧
      ctx.read index (t.read · issuer mint wallet) = .err .deniedBadRegistryEntry) := by
  rcases consulted_or_malformed on t issuer mint wallet ((index.bind ctx.extra).getD default) with
    ⟨s, hs⟩ | hbad
  · exact .inl ⟨s, hs, read_of_consulted hon hidx hs⟩
  · exact .inr ⟨hbad, read_of_malformed hon hidx hbad⟩

theorem Complete.blacklist_cases {policy : GatePolicy} (h : ctx.Complete policy) (owner : Pubkey) :
    (∃ s, Consulted (policy.checkBlacklist = true)
        (BlacklistSays policy owner (ctx.ownerAccounts policy)) s ∧
      ctx.read (Layout.forPolicy policy).blacklist
        (readBlacklist · policy.issuerProgram policy.mint owner) = .ok s) ∨
    ((policy.checkBlacklist = true ∧ blacklistRegistry.Malformed policy.issuerProgram policy.mint owner
        (ctx.ownerAccounts policy).blacklist) ∧
      ctx.read (Layout.forPolicy policy).blacklist
        (readBlacklist · policy.issuerProgram policy.mint owner) = .err .deniedBadRegistryEntry) :=
  have hplaces := Layout.forPolicy_places policy
  read_cases hplaces.blacklist fun i hi => h.extra_isSome (hplaces.blacklist_lt i hi)

theorem Complete.allowlist_cases {policy : GatePolicy} (h : ctx.Complete policy) (owner : Pubkey) :
    (∃ s, Consulted (policy.allowlistMode ≠ .off)
        (AllowlistSays policy owner (ctx.ownerAccounts policy)) s ∧
      ctx.read (Layout.forPolicy policy).allowlist
        (readAllowlist · policy.issuerProgram policy.mint owner) = .ok s) ∨
    ((policy.allowlistMode ≠ .off ∧ allowlistRegistry.Malformed policy.issuerProgram policy.mint owner
        (ctx.ownerAccounts policy).allowlist) ∧
      ctx.read (Layout.forPolicy policy).allowlist
        (readAllowlist · policy.issuerProgram policy.mint owner) = .err .deniedBadRegistryEntry) :=
  have hplaces := Layout.forPolicy_places policy
  read_cases hplaces.allowlist fun i hi => h.extra_isSome (hplaces.allowlist_lt i hi)

end read

/-- The handler finds this policy, in a list long enough for it. -/
structure Loads (ctx : CanGate) (policy : GatePolicy) : Prop where
  found : ∃ info, ctx.extra policyIndex = some info ∧ IsPolicyOf ctx.mint.key info policy
  complete : ctx.Complete policy

end CanGate

section handler

variable {rt : Runtime} {ctx : CanGate} {policy : GatePolicy} {facts : Facts}

theorem readSas_of_gathers (hlen : ctx.Complete policy)
    (h : Gathers rt policy ctx.owner.key (ctx.ownerAccounts policy) facts) :
    readSas rt ctx policy facts.allowlist = .ok (.ok facts.sas) := by
  have hsas := h.sas
  have hplaces := Layout.forPolicy_places policy
  have hbypass : (policy.allowlistMode = .bypassForPdas ∧ facts.allowlist = some .active ∧
      isOffCurve rt ctx.owner.key) ↔ Bypassed rt policy ctx.owner.key (ctx.ownerAccounts policy) := by
    unfold Bypassed
    refine and_congr_right fun hmode => and_congr_left' ?_
    rw [h.allowlist.active_iff]
    simp [hmode, AllowlistSays]
  unfold readSas
  cases hidx : (Layout.forPolicy policy).attestation with
  | none =>
    have hoff : ¬policy.requireSas = true := fun hon => by simpa [hidx] using hplaces.attestation.2 hon
    cases hs : facts.sas with
    | notRequired => rfl
    | bypassed =>
      rw [hs] at hsas
      exact absurd hsas.1 hoff
    | checked c =>
      rw [hs] at hsas
      exact absurd hsas.1.1 hoff
  | some i =>
    have hon : policy.requireSas = true := hplaces.attestation.1 (by simp [hidx])
    cases hs : facts.sas with
    | notRequired =>
      rw [hs] at hsas
      exact absurd hon (by simp [hsas])
    | bypassed =>
      rw [hs] at hsas
      exact if_pos (hbypass.2 hsas.2)
    | checked c =>
      rw [hs] at hsas
      obtain ⟨info, hinfo⟩ := hlen.extra_isSome (hplaces.attestation_lt i hidx)
      have hsays := hsas.2
      simp only [CanGate.ownerAccounts, hidx, Option.bind_some, hinfo, Option.getD_some] at hsays
      refine (if_neg (mt hbypass.1 hsas.1.2)).trans ?_
      rw [hinfo, unwrap_some, bind_ok, Sas.read_of_said hsays, attempt_ok, bind_ok]

theorem readSas_of_malformed (hlen : ctx.Complete policy) {s : Option Entry}
    (ha : Consulted (policy.allowlistMode ≠ .off)
      (AllowlistSays policy ctx.owner.key (ctx.ownerAccounts policy)) s)
    (hread : AttestationRead rt policy ctx.owner.key (ctx.ownerAccounts policy))
    (hbad : Sas.Malformed policy ctx.owner.key rt.unixTimestamp (ctx.ownerAccounts policy).attestation) :
    readSas rt ctx policy s = .ok (.error .badCredential) := by
  have hplaces := Layout.forPolicy_places policy
  obtain ⟨i, hidx⟩ := Option.isSome_iff_exists.1 (hplaces.attestation.2 hread.1)
  obtain ⟨info, hinfo⟩ := hlen.extra_isSome (hplaces.attestation_lt i hidx)
  have hbypass : ¬(policy.allowlistMode = .bypassForPdas ∧ s = some .active ∧
      isOffCurve rt ctx.owner.key = true) := by
    rintro ⟨hmode, hactive, hcurve⟩
    exact hread.2 ⟨hmode, (ha.active_iff.1 hactive).2, hcurve⟩
  simp only [CanGate.ownerAccounts, hidx, Option.bind_some, hinfo, Option.getD_some] at hbad
  unfold readSas
  rw [hidx]
  refine (if_neg hbypass).trans ?_
  rw [hinfo, unwrap_some, bind_ok, Sas.read_of_malformed hbad, attempt_err, bind_ok]

theorem decide_of_gathers (hload : ctx.Loads policy)
    (h : Gathers rt policy ctx.owner.key (ctx.ownerAccounts policy) facts) (op : Op) :
    decide rt ctx op = .ok (evaluate op { facts with immutableOwner := immutableOwnerFor rt ctx op }) := by
  obtain ⟨⟨info, hinfo, hpolicy⟩, hlen⟩ := hload
  rcases hlen.blacklist_cases ctx.owner.key with ⟨b, hb, hbread⟩ | ⟨hbad, -⟩
  swap
  · exact absurd (.inl hbad) h.readable
  rcases hlen.allowlist_cases ctx.owner.key with ⟨a, ha, haread⟩ | ⟨hbad, -⟩
  swap
  · exact absurd (.inr (.inl hbad)) h.readable
  obtain rfl := hb.unique h.blacklist
  obtain rfl := ha.unique h.allowlist
  rw [hpolicy.mint] at hbread haread
  unfold decide
  simp only [hinfo, loadPolicy_eq_some.2 hpolicy, if_neg (not_lt.2 hlen), hbread, haread, attempt_ok,
    bind_ok, readSas_of_gathers hlen h, h.mode]

theorem decide_eq_of_unreadable (hload : ctx.Loads policy)
    (h : Unreadable rt policy ctx.owner.key (ctx.ownerAccounts policy)) :
    ∃ d, (d = .badRegistryEntry ∨ d = .badCredential) ∧ ∀ op, decide rt ctx op = .ok (.deny d) := by
  obtain ⟨⟨info, hinfo, hpolicy⟩, hlen⟩ := hload
  have hbcases := hlen.blacklist_cases ctx.owner.key
  have hacases := hlen.allowlist_cases ctx.owner.key
  rw [hpolicy.mint] at hbcases hacases
  unfold decide
  simp only [hinfo, loadPolicy_eq_some.2 hpolicy, if_neg (not_lt.2 hlen)]
  rcases hbcases with ⟨b, hb, hbread⟩ | ⟨-, hbread⟩ <;>
    rcases hacases with ⟨a, ha, haread⟩ | ⟨-, haread⟩
  · rcases h with hbad | hbad | ⟨hread, hbad⟩
    · exact absurd (hpolicy.mint ▸ hbad) hb.not_malformed
    · exact absurd (hpolicy.mint ▸ hbad) ha.not_malformed
    · refine ⟨.badCredential, .inr rfl, fun op => ?_⟩
      simp only [hbread, haread, attempt_ok, bind_ok, readSas_of_malformed hlen ha hread hbad]
  all_goals
    refine ⟨.badRegistryEntry, .inl rfl, fun op => ?_⟩
    simp only [hbread, haread, attempt_ok, attempt_err, bind_ok]

theorem decide_of_unreadable (hload : ctx.Loads policy)
    (h : Unreadable rt policy ctx.owner.key (ctx.ownerAccounts policy)) :
    ∃ d, ∀ op, decide rt ctx op = .ok (.deny d) := by
  obtain ⟨d, -, hdeny⟩ := decide_eq_of_unreadable hload h
  exact ⟨d, hdeny⟩

/-- A list that is too short, or without this mint's policy, is denied before anything is read. -/
theorem decide_of_not_loads (rt : Runtime) (h : ∀ policy, ¬ctx.Loads policy) :
    ∃ d, ∀ op, decide rt ctx op = .ok (.deny d) := by
  unfold decide
  cases hinfo : ctx.extra policyIndex with
  | none => exact ⟨.missingAccounts, fun _ => rfl⟩
  | some info =>
    cases hpolicy : loadPolicy info ctx.mint.key with
    | none =>
      refine ⟨.badPolicy, fun op => ?_⟩
      simp only [hpolicy]
    | some policy =>
      have hshort : extraMetasIndex + ctx.remainingAccounts.length < (Layout.forPolicy policy).len :=
        not_le.1 fun hlen => h policy ⟨⟨info, hinfo, loadPolicy_eq_some.1 hpolicy⟩, hlen⟩
      refine ⟨.missingAccounts, fun op => ?_⟩
      simp only [hpolicy, if_pos hshort]

end handler

end ThawGate.Gate
