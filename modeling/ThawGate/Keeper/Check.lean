import ThawGate.Keeper.Cluster
import ThawGate.Keeper.Mirror

/-!
# Checks

`check` takes the owners with thawed accounts, reads each one's addresses and accounts, judges it by its own copy of
the freeze rule, and asks for a freeze of what it found thawed. `check_freezes`: of the accounts that the index has for
an owner, it asks for those that the read found thawed, exactly where the gate, run on the same accounts at the same
time, allows anyone to freeze them.
-/

namespace ThawGate.Keeper

open Borsh Exec

/-! ### The plan -/

inductive Trigger where
  | sas
  | blacklist
  | allowlist
  | expiry
  | policy
  | tokenAccount
  | sweep
  | resync
  | manual
  deriving DecidableEq, Repr

/-- What `check` asks the freezer for. -/
structure FreezeCall where
  mint : Pubkey
  tokenAccount : Pubkey
  owner : Pubkey
  trigger : Trigger
  observedAt : Nat
  minContextSlot : Option Nat
  deriving DecidableEq

namespace MintEntry

variable (d : Derivation) (e : MintEntry)

/-- The facts that `owner` comes back with where nothing else runs. -/
def factsFor (owner : Pubkey) : OwnerFacts := (e.owners.lookup owner).getD (d.facts e.policy e.mint owner)

/-- The owners to check; `none` is `"all"`. -/
def targets (owners : Option (List Pubkey)) : List Pubkey :=
  (owners.getD e.ownersWithThawedAccounts).filter fun o => o ∈ e.ownersWithThawedAccounts

def plan (owners : Option (List Pubkey)) : List (OwnerFacts × List Pubkey) :=
  (e.targets owners).map fun o => (e.factsFor d o, e.thawedAccounts (e.factsFor d o).owner)

end MintEntry

/-- The addresses of one batch read. -/
def planAddresses (plan : List (OwnerFacts × List Pubkey)) : List Pubkey :=
  plan.flatMap fun (f, tokenAccounts) => [f.attestationPda, f.blacklistPda, f.allowlistPda].filterMap id ++ tokenAccounts

/-! ### Judging -/

/-- What `check` makes of one owner. -/
structure Judgement where
  facts : OwnerFacts
  /-- The token accounts it records in the index. -/
  recorded : List (Pubkey × TrackedAccount)
  thawed : List Pubkey
  reason : Option FreezeReason

/-- An address that the facts have is read; what was read before stays where they have none. -/
def readAt {α : Type} (address : Option Pubkey) (read : Pubkey → Option RawAccount)
    (reader : Option RawAccount → Exec Empty α) (before : Option α) : Exec Empty (Option α) :=
  match address with
  | some a => do pure (some (← reader (read a)))
  | none => .ok before

def readToken (read : Pubkey → Option RawAccount) (tokenAccount : Pubkey) :
    Exec Empty (Option (Pubkey × TrackedAccount)) :=
  match read tokenAccount with
  | none => .ok none
  | some raw => do
    let token ← decodeTokenAccount raw.data
    pure (token.map fun t => (tokenAccount, ⟨t.owner, t.state⟩))

def judge (p : GatePolicy) (mint : Pubkey) (read : Pubkey → Option RawAccount) (now : Int64) (f : OwnerFacts)
    (tokenAccounts : List Pubkey) : Exec Empty Judgement := do
  let attestation ← readAt f.attestationPda read (readAttestation · p.sasCredential p.sasSchema f.owner)
    f.reads.attestation
  let blacklist ← readAt f.blacklistPda read (readBlacklistEntry · p.issuerProgram mint f.owner) f.reads.blacklist
  let allowlist ← readAt f.allowlistPda read (readAllowlistEntry · p.issuerProgram mint f.owner) f.reads.allowlist
  let tokens ← tokenAccounts.mapM' (readToken read)
  let recorded := tokens.filterMap id
  let reads : OwnerReads := ⟨blacklist, allowlist, attestation, f.reads.ownerOffCurve⟩
  pure
    { facts := { f with reads }
      recorded
      thawed := (recorded.filter fun t => t.2.state = .initialized).map Prod.fst
      reason := freezeReason p reads now }

/-- The trigger that a freeze is counted under. -/
def Trigger.label (trigger : Trigger) (reason : FreezeReason) : Trigger :=
  if reason = .credentialExpired ∧ (trigger = .sweep ∨ trigger = .resync) then .expiry else trigger

def Judgement.freezes (j : Judgement) (mint : Pubkey) (trigger : Trigger) (observedAt : Nat)
    (minContextSlot : Option Nat) : List FreezeCall :=
  match j.reason with
  | none => []
  | some reason => j.thawed.map fun tokenAccount =>
    ⟨mint, tokenAccount, j.facts.owner, trigger.label reason, observedAt, minContextSlot⟩

/-- `read`, filled from the batch: `accounts[i]` is the answer for `addresses[i]`. -/
def readMap (addresses : List Pubkey) (accounts : List (Option RawAccount)) (address : Pubkey) : Option RawAccount :=
  ((Map.insertAll ∅ (addresses.zip accounts)).lookup address).join

/-- `check` of a mint that the index has, with the answers of a cluster to its reads. -/
def check (d : Derivation) (c : Cluster) (e : MintEntry) (owners : Option (List Pubkey)) (trigger : Trigger)
    (observedAt : Nat) (minContextSlot : Option Nat) : Exec Empty (List Judgement × List FreezeCall) := do
  let plan := e.plan d owners
  let addresses := planAddresses plan
  let read := readMap addresses (c.readAccounts addresses)
  let judgements ← plan.mapM' fun (f, tokenAccounts) => judge e.policy e.mint read c.now f tokenAccounts
  pure (judgements, judgements.flatMap (·.freezes e.mint trigger observedAt minContextSlot))

/-! ### What an owner's facts are -/

/-- The facts are those that `owner` derives under the mint's policy, whatever has been read into them. -/
structure OwnerFacts.DerivedFor (d : Derivation) (p : GatePolicy) (mint owner : Pubkey) (f : OwnerFacts) : Prop where
  name : f.owner = owner
  addresses : f.addresses = (d.facts p mint owner).addresses
  offCurve : f.reads.ownerOffCurve = d.isOffCurve owner

/-- Every owner's facts are derived under the mint's policy. -/
def MintEntry.Derived (d : Derivation) (e : MintEntry) : Prop :=
  ∀ (owner : Pubkey) (f : OwnerFacts), e.owners.lookup owner = some f → f.DerivedFor d e.policy e.mint owner

theorem MintEntry.Derived.factsFor {d : Derivation} {e : MintEntry} (h : e.Derived d) (owner : Pubkey) :
    (e.factsFor d owner).DerivedFor d e.policy e.mint owner := by
  unfold MintEntry.factsFor
  cases hf : e.owners.lookup owner with
  | none => exact ⟨rfl, rfl, rfl⟩
  | some f => exact h owner f hf

/-! ### Reads that the policy does not consult -/

theorem freezeReason_congr {p : GatePolicy} {r r' : OwnerReads} {now : Int64}
    (hb : p.checkBlacklist = true → r.blacklist = r'.blacklist)
    (ha : p.allowlistMode ≠ .off → r.allowlist = r'.allowlist)
    (ht : p.requireSas = true → r.attestation = r'.attestation) (hcurve : r.ownerOffCurve = r'.ownerOffCurve) :
    freezeReason p r now = freezeReason p r' now := by
  have hblack : blacklistRead p r = blacklistRead p r' := by
    unfold blacklistRead
    split_ifs with hon
    · exact hb hon
    · rfl
  have hallow : allowlistRead p r = allowlistRead p r' := by
    unfold allowlistRead
    split_ifs with hon
    · exact ha hon
    · rfl
  have hcredential (allowlist : EntryRead) :
      credentialInput p r allowlist now = credentialInput p r' allowlist now := by
    unfold credentialInput
    by_cases hon : p.requireSas = true
    · rw [if_pos hon, if_pos hon, hcurve, ht hon]
    · rw [if_neg hon, if_neg hon]
  unfold freezeReason
  rw [hblack, hallow]
  simp only [hcredential]

/-! ### One owner -/

namespace Cluster

variable (c : Cluster) (d : Derivation) (p : Gate.GatePolicy) (owner : Pubkey)

/-- The accounts that the gate reads for an owner. -/
def ownerAccounts : Gate.OwnerAccounts where
  blacklist := c.info (d.blacklistPda p.issuerProgram p.mint owner)
  allowlist := c.info (d.allowlistPda p.issuerProgram p.mint owner)
  attestation := c.info (d.attestationPda p.sasCredential p.sasSchema owner)

def ownerRaw : RawAccounts where
  blacklist := c.account (d.blacklistPda p.issuerProgram p.mint owner)
  allowlist := c.account (d.allowlistPda p.issuerProgram p.mint owner)
  attestation := c.account (d.attestationPda p.sasCredential p.sasSchema owner)

theorem sees_owner : SeesAll (c.ownerAccounts d p owner) (c.ownerRaw d p owner) :=
  ⟨c.sees_info _, c.sees_info _, c.sees_info _⟩

/-- The token account that an address holds. -/
def token (address : Pubkey) : Option TrackedAccount :=
  match readToken c.account address with
  | .ok found => found.map Prod.snd
  | _ => none

theorem readToken_eq {read : Pubkey → Option RawAccount} {address : Pubkey} (hread : read address = c.account address) :
    readToken read address = .ok ((c.token address).map fun t => (address, t)) := by
  unfold token readToken
  rw [hread]
  cases c.account address with
  | none => rfl
  | some raw =>
    dsimp only
    obtain h | ⟨token, h, -⟩ := decodeTokenAccount_cases raw.data <;> rw [h] <;> rfl

end Cluster

section judge

variable {d : Derivation} {c : Cluster} {p : Gate.GatePolicy} {owner : Pubkey} {f : OwnerFacts}
  {read : Pubkey → Option RawAccount} {tokenAccounts : List Pubkey}

theorem OwnerFacts.DerivedFor.pdas {p : GatePolicy} {mint : Pubkey} (hf : f.DerivedFor d p mint owner) :
    f.attestationPda = (if p.requireSas then some (d.attestationPda p.sasCredential p.sasSchema owner) else none) ∧
      f.blacklistPda = (if p.checkBlacklist then some (d.blacklistPda p.issuerProgram mint owner) else none) ∧
      f.allowlistPda = (if p.allowlistMode ≠ .off then some (d.allowlistPda p.issuerProgram mint owner) else none) := by
  have h := hf.addresses
  rw [OwnerFacts.addresses, Prod.ext_iff, Prod.ext_iff] at h
  exact h

theorem readAt_eq {α : Type} {on : Prop} [Decidable on] {address : Option Pubkey} {k : Pubkey}
    {reader : Option RawAccount → Exec Empty α} {a : α} (haddress : address = if on then some k else none)
    (h : on → reader (read k) = .ok a) (before : Option α) :
    readAt address read reader before = .ok (if on then some a else before) := by
  subst haddress
  by_cases hon : on
  · rw [if_pos hon, if_pos hon, readAt, h hon]
    rfl
  · rw [if_neg hon, if_neg hon, readAt]

theorem ownerReads_eq {b a : EntryRead} {t : AttestationRead} {raw : RawAccounts} (offCurve : Bool)
    (hb : readBlacklistEntry raw.blacklist p.issuerProgram p.mint owner = .ok b)
    (ha : readAllowlistEntry raw.allowlist p.issuerProgram p.mint owner = .ok a)
    (ht : readAttestation raw.attestation p.sasCredential p.sasSchema owner = .ok t) :
    ownerReads (.of p) owner offCurve raw.blacklist raw.allowlist raw.attestation =
      .ok ⟨if p.checkBlacklist then some b else none, if p.allowlistMode ≠ .off then some a else none,
        if p.requireSas then some t else none, offCurve⟩ := by
  unfold ownerReads
  refine (congrArg (· >>= _) (readIf_eq ht)).trans ?_
  rw [bind_ok]
  refine (congrArg (· >>= _) (readIf_eq hb)).trans ?_
  rw [bind_ok]
  refine (congrArg (· >>= _) (readIf_eq ha)).trans ?_
  rw [bind_ok, pure_eq]
  rfl

/-- The accounts found thawed, in the order that they were read. -/
theorem thawed_eq (c : Cluster) (tokenAccounts : List Pubkey) :
    (((tokenAccounts.map fun ta => (c.token ta).map fun t => (ta, t)).filterMap id).filter
        fun t => t.2.state = .initialized).map Prod.fst =
      tokenAccounts.filter fun ta => (c.token ta).any fun t => t.state = .initialized := by
  induction tokenAccounts with
  | nil => rfl
  | cons ta rest ih =>
    rw [List.map_cons]
    cases htoken : c.token ta with
    | none =>
      rw [Option.map_none, List.filterMap_cons_none rfl, ih,
        List.filter_cons_of_neg (by rw [htoken]; exact Bool.false_ne_true)]
    | some t =>
      rw [Option.map_some, List.filterMap_cons_some (f := id) rfl, List.filter_cons, List.filter_cons, htoken]
      by_cases hstate : t.state = .initialized
      · rw [if_pos (decide_eq_true hstate), List.map_cons, ih]
        exact (if_pos (decide_eq_true hstate)).symm
      · rw [if_neg (by simpa using hstate), ih]
        exact (if_neg (by simpa using hstate)).symm

/-- What `check` makes of the owner's reads: the kinds that the policy consults are read, the others stay. -/
def OwnerFacts.readsWith (f : OwnerFacts) (p : GatePolicy) (b a : EntryRead) (t : AttestationRead) : OwnerReads where
  blacklist := if p.checkBlacklist then some b else f.reads.blacklist
  allowlist := if p.allowlistMode ≠ .off then some a else f.reads.allowlist
  attestation := if p.requireSas then some t else f.reads.attestation
  ownerOffCurve := f.reads.ownerOffCurve

/-- An owner is judged by the reads that the mirror compares with the gate's. -/
theorem judge_eq (hf : f.DerivedFor d (.of p) p.mint owner)
    (hread : ∀ a, f.attestationPda = some a ∨ f.blacklistPda = some a ∨ f.allowlistPda = some a ∨ a ∈ tokenAccounts →
      read a = c.account a) :
    ∃ j reads, judge (.of p) p.mint read c.now f tokenAccounts = .ok j ∧
      ownerReads (.of p) owner (d.isOffCurve owner) (c.ownerRaw d p owner).blacklist
        (c.ownerRaw d p owner).allowlist (c.ownerRaw d p owner).attestation = .ok reads ∧
      j.facts.owner = owner ∧ j.reason = freezeReason (.of p) reads c.now ∧
      j.thawed = tokenAccounts.filter fun ta => (c.token ta).any fun t => t.state = .initialized := by
  obtain ⟨b, hb, -⟩ := blacklist_read p owner (c.sees_owner d p owner)
  obtain ⟨a, ha, -⟩ := allowlist_read p owner (c.sees_owner d p owner)
  obtain ⟨t, ht, -⟩ := attestation_read p owner c.now (c.sees_owner d p owner)
  obtain ⟨hpt, hpb, hpa⟩ := hf.pdas
  have htokens : tokenAccounts.mapM' (readToken read) =
      .ok (tokenAccounts.map fun ta => (c.token ta).map fun t => (ta, t)) :=
    Exec.mapM'_eq_ok fun ta hta => c.readToken_eq (hread ta (.inr (.inr (.inr hta))))
  have hattestation : readAt f.attestationPda read
      (readAttestation · (GatePolicy.of p).sasCredential (GatePolicy.of p).sasSchema f.owner) f.reads.attestation =
        .ok (f.readsWith (.of p) b a t).attestation := by
    refine readAt_eq hpt (fun hon => ?_) _
    rw [hf.name, hread _ (.inl (hpt.trans (if_pos hon)))]
    exact ht
  have hblacklist : readAt f.blacklistPda read
      (readBlacklistEntry · (GatePolicy.of p).issuerProgram p.mint f.owner) f.reads.blacklist =
        .ok (f.readsWith (.of p) b a t).blacklist := by
    refine readAt_eq hpb (fun hon => ?_) _
    rw [hf.name, hread _ (.inr (.inl (hpb.trans (if_pos hon))))]
    exact hb
  have hallowlist : readAt f.allowlistPda read
      (readAllowlistEntry · (GatePolicy.of p).issuerProgram p.mint f.owner) f.reads.allowlist =
        .ok (f.readsWith (.of p) b a t).allowlist := by
    refine readAt_eq hpa (fun hon => ?_) _
    rw [hf.name, hread _ (.inr (.inr (.inl (hpa.trans (if_pos hon)))))]
    exact ha
  let recorded := (tokenAccounts.map fun ta => (c.token ta).map fun t => (ta, t)).filterMap id
  let reads := f.readsWith (.of p) b a t
  refine ⟨⟨{ f with reads }, recorded, (recorded.filter fun t => t.2.state = .initialized).map Prod.fst,
    freezeReason (.of p) reads c.now⟩, _, ?_, ownerReads_eq _ hb ha ht, hf.name, ?_, ?_⟩
  · unfold judge
    rw [hattestation, bind_ok, hblacklist, bind_ok, hallowlist, bind_ok, htokens, bind_ok]
    rfl
  · exact freezeReason_congr (fun hon => (if_pos hon).trans (if_pos hon).symm)
      (fun hon => (if_pos hon).trans (if_pos hon).symm) (fun hon => (if_pos hon).trans (if_pos hon).symm) hf.offCurve
  · exact thawed_eq c tokenAccounts

end judge

/-! ### The freezes -/

/-- A call of the gate for one holder, run where the keeper reads. -/
structure Cluster.Runs (c : Cluster) (d : Derivation) (p : Gate.GatePolicy) (rt : Gate.Runtime) (h : Gate.Holder)
    (info : AccountInfo) : Prop where
  now : rt.unixTimestamp = c.now
  curve : d.isOffCurve h.owner.key = Gate.isOffCurve rt h.owner.key
  policy : Gate.IsPolicyOf h.mint.key info p
  accounts : h.accounts = c.ownerAccounts d p h.owner.key

/-- The blacklist entry of an owner, where the policy reads it, has a reason that is UTF-8. -/
def Cluster.ReasonReadable (c : Cluster) (d : Derivation) (p : Gate.GatePolicy) (owner : Pubkey) : Prop :=
  ¬(p.checkBlacklist = true ∧ SkipsReason p.issuerProgram p.mint owner (c.ownerAccounts d p owner).blacklist)

def Cluster.thawed (c : Cluster) (tokenAccount : Pubkey) : Bool :=
  (c.token tokenAccount).any fun t => t.state = .initialized

section freezes

variable {d : Derivation} {c : Cluster} {p : Gate.GatePolicy} {rt : Gate.Runtime} {h : Gate.Holder}
  {info : AccountInfo} {reads : OwnerReads}

/-- The gate's answer to a freeze, told from the reason: it allows with the reason's code, or denies. -/
def FreezeReason.Answers (reason : Option FreezeReason) (answer : Exec Empty Gate.Decision) : Prop :=
  match reason with
  | some reason => answer = .ok (.allow reason.allow)
  | none => ∃ deny, answer = .ok (.deny deny)

theorem FreezeReason.Answers.isSome_iff {reason : Option FreezeReason} {answer : Exec Empty Gate.Decision}
    (h : FreezeReason.Answers reason answer) : reason.isSome ↔ ∃ a, answer = .ok (.allow a) := by
  cases reason with
  | some reason => exact iff_of_true rfl ⟨reason.allow, h⟩
  | none =>
    obtain ⟨deny, rfl⟩ := h
    exact iff_of_false Bool.false_ne_true nofun

theorem freezeReason_answers (hruns : c.Runs d p rt h info) (hreadable : c.ReasonReadable d p h.owner.key)
    (hreads : ownerReads (.of p) h.owner.key (d.isOffCurve h.owner.key) (c.ownerRaw d p h.owner.key).blacklist
      (c.ownerRaw d p h.owner.key).allowlist (c.ownerRaw d p h.owner.key).attestation = .ok reads) :
    FreezeReason.Answers (freezeReason (.of p) reads c.now) (Gate.decide rt (h.context p info) .freeze) := by
  have hload := h.context_loads hruns.policy
  have hconsults : ((h.context p info).ownerAccounts p).ConsultedAs p (c.ownerAccounts d p h.owner.key) :=
    hruns.accounts ▸ h.context_consults
  obtain ⟨reads', hreads', hcases⟩ := ownerReads_cases rt p h.owner.key (c.sees_owner d p h.owner.key) hruns.curve
  obtain rfl : reads = reads' := ok.inj (hreads.symm.trans hreads')
  rw [← hruns.now]
  rcases hcases with ⟨facts, hfacts, hsame⟩ | ⟨hbad, -, hnone, -⟩ | ⟨hskip, -, -⟩
  · rw [Gate.decide_of_gathers hload (hconsults.symm.gathers hfacts) .freeze, freezeReason_of_facts hsame]
    have hflag : Gate.flag { facts with immutableOwner := Gate.immutableOwnerFor rt (h.context p info) .freeze } =
        Gate.flag facts := rfl
    unfold Gate.evaluate
    dsimp only
    rw [hflag]
    cases Gate.flag facts with
    | none => exact ⟨_, rfl⟩
    | some f => exact congrArg (ok ∘ Gate.Decision.allow) (FreezeReason.allow_of f).symm
  · obtain ⟨deny, hdeny⟩ := Gate.decide_of_unreadable hload (hconsults.unreadable.2 hbad)
    rw [hnone, hdeny]
    exact ⟨deny, rfl⟩
  · exact absurd hskip hreadable

/-- What is asked for on behalf of one owner. -/
theorem mem_freezes {j : Judgement} {mint : Pubkey} {trigger : Trigger} {observedAt : Nat} {slot : Option Nat}
    {call : FreezeCall} : call ∈ j.freezes mint trigger observedAt slot ↔
      ∃ reason, j.reason = some reason ∧ ∃ ta ∈ j.thawed,
        call = ⟨mint, ta, j.facts.owner, trigger.label reason, observedAt, slot⟩ := by
  unfold Judgement.freezes
  cases hreason : j.reason with
  | none => exact iff_of_false List.not_mem_nil nofun
  | some reason =>
    simp only [List.mem_map, Option.some.injEq, exists_eq_left', eq_comm]

/-- A judgement asks for what it should of one owner: the accounts that are still thawed, if the gate lets anyone
freeze them, under the trigger that the gate's code gives. -/
def Judgement.FreezesAs (j : Judgement) (c : Cluster) (d : Derivation) (p : Gate.GatePolicy) (owner : Pubkey)
    (tokenAccounts : List Pubkey) : Prop :=
  j.facts.owner = owner ∧ (j.thawed = tokenAccounts.filter fun ta => c.thawed ta) ∧
    ∀ {rt h info}, c.Runs d p rt h info → h.owner.key = owner → c.ReasonReadable d p owner →
      FreezeReason.Answers j.reason (Gate.decide rt (h.context p info) .freeze)

variable {f : OwnerFacts} {read : Pubkey → Option RawAccount} {owner : Pubkey} {tokenAccounts : List Pubkey}

theorem judge_freezes (hf : f.DerivedFor d (.of p) p.mint owner)
    (hread : ∀ a, f.attestationPda = some a ∨ f.blacklistPda = some a ∨ f.allowlistPda = some a ∨ a ∈ tokenAccounts →
      read a = c.account a) :
    ∃ j, judge (.of p) p.mint read c.now f tokenAccounts = .ok j ∧ j.FreezesAs c d p owner tokenAccounts := by
  obtain ⟨j, reads, hj, hreads, howner, hreason, hthawed⟩ := judge_eq hf hread
  refine ⟨j, hj, howner, hthawed, ?_⟩
  rintro rt h info hruns rfl hreadable
  rw [hreason]
  exact freezeReason_answers hruns hreadable hreads

variable {e : MintEntry}

/-- Every address of the plan is answered as the cluster has it. -/
theorem readMap_eq {plan : List (OwnerFacts × List Pubkey)} (hplan : (f, tokenAccounts) ∈ plan) {a : Pubkey}
    (ha : f.attestationPda = some a ∨ f.blacklistPda = some a ∨ f.allowlistPda = some a ∨ a ∈ tokenAccounts) :
    readMap (planAddresses plan) (c.readAccounts (planAddresses plan)) a = c.account a := by
  have hmem : a ∈ planAddresses plan := by
    refine List.mem_flatMap.2 ⟨_, hplan, List.mem_append.2 ?_⟩
    rcases ha with h | h | h | h
    · exact .inl (by simp [h])
    · exact .inl (by simp [h])
    · exact .inl (by simp [h])
    · exact .inr h
  rw [readMap, c.readAccounts_eq, Map.lookup_insertAll_zip, if_pos hmem]
  rfl

/-- **A check asks for the freezes that the gate allows, and no others**: of the accounts that the index has as thawed
and of one of the owners asked for, those that are thawed on the cluster, each owner's if and only if the gate, run on
the same accounts at the same time, allows anyone to freeze them. -/
theorem check_freezes (hpolicy : e.policy = .of p) (hmint : e.mint = p.mint) (he : e.Derived d)
    (owners : Option (List Pubkey)) (trigger : Trigger) (observedAt : Nat) (slot : Option Nat) :
    ∃ js calls, check d c e owners trigger observedAt slot = .ok (js, calls) ∧
      (∀ call ∈ calls, call.mint = p.mint ∧ call.owner ∈ e.targets owners) ∧
      ∀ {rt h info}, c.Runs d p rt h info → c.ReasonReadable d p h.owner.key → ∀ ta : Pubkey,
        (∃ call ∈ calls, call.tokenAccount = ta ∧ call.owner = h.owner.key) ↔
          h.owner.key ∈ e.targets owners ∧ e.accounts.lookup ta = some ⟨h.owner.key, .initialized⟩ ∧ c.thawed ta ∧
            ∃ allow, Gate.decide rt (h.context p info) .freeze = .ok (.allow allow) := by
  let plan := e.plan d owners
  let addresses := planAddresses plan
  obtain ⟨js, hjs, hfrom, hto⟩ := Exec.mapM'_ok (l := plan)
    (f := fun x => judge e.policy e.mint (readMap addresses (c.readAccounts addresses)) c.now x.1 x.2)
    (R := fun x j => j.FreezesAs c d p x.1.owner x.2) (fun x hx => by
      obtain ⟨f, tokenAccounts⟩ := x
      have hf : f.DerivedFor d (.of p) p.mint f.owner := by
        obtain ⟨o, -, heq⟩ := List.mem_map.1 hx
        obtain ⟨rfl, -⟩ := Prod.mk.inj heq
        have hderived := he.factsFor o
        rw [hderived.name, ← hpolicy, ← hmint]
        exact hderived
      rw [hpolicy, hmint]
      exact judge_freezes hf fun a ha => readMap_eq hx ha)
  refine ⟨js, js.flatMap (·.freezes e.mint trigger observedAt slot), ?_, ?_, ?_⟩
  · unfold check
    exact (congrArg (· >>= _) hjs).trans rfl
  · intro call hcall
    obtain ⟨j, hj, hcall⟩ := List.mem_flatMap.1 hcall
    obtain ⟨reason, -, ta, -, rfl⟩ := mem_freezes.1 hcall
    obtain ⟨⟨f, tokenAccounts⟩, hx, hname, -⟩ := hto j hj
    obtain ⟨o, ho, heq⟩ := List.mem_map.1 hx
    obtain ⟨rfl, rfl⟩ := Prod.mk.inj heq
    have howner : j.facts.owner = o := hname.trans (he.factsFor o).name
    exact ⟨hmint, howner ▸ ho⟩
  · intro rt h info hruns hreadable ta
    constructor
    · rintro ⟨call, hcall, rfl, howner⟩
      obtain ⟨j, hj, hcall⟩ := List.mem_flatMap.1 hcall
      obtain ⟨reason, hreason, ta, hta, rfl⟩ := mem_freezes.1 hcall
      obtain ⟨⟨f, tokenAccounts⟩, hx, hname, hthawed, hdecide⟩ := hto j hj
      obtain ⟨o, ho, heq⟩ := List.mem_map.1 hx
      obtain ⟨rfl, rfl⟩ := Prod.mk.inj heq
      rw [hthawed, List.mem_filter, MintEntry.mem_thawedAccounts] at hta
      have hkey : (e.factsFor d o).owner = h.owner.key := hname.symm.trans howner
      have ho' : o = h.owner.key := (he.factsFor o).name.symm.trans hkey
      exact ⟨ho' ▸ ho, hkey ▸ hta.1, hta.2,
        (hdecide hruns hkey.symm (hkey ▸ hreadable)).isSome_iff.1 (Option.isSome_iff_exists.2 ⟨reason, hreason⟩)⟩
    · rintro ⟨htarget, hindexed, hthawed, hallow⟩
      have hname : (e.factsFor d h.owner.key).owner = h.owner.key := (he.factsFor _).name
      obtain ⟨j, hj, howner, hj', hdecide⟩ := hfrom _ (List.mem_map_of_mem htarget)
      obtain ⟨reason, hreason⟩ := Option.isSome_iff_exists.1
        ((hdecide hruns hname.symm (by rw [hname]; exact hreadable)).isSome_iff.2 hallow)
      have hta : ta ∈ j.thawed := by
        rw [hj', List.mem_filter, MintEntry.mem_thawedAccounts, hname]
        exact ⟨hindexed, hthawed⟩
      exact ⟨_, List.mem_flatMap.2 ⟨j, hj, mem_freezes.2 ⟨reason, hreason, ta, hta, rfl⟩⟩, rfl, howner.trans hname⟩

end freezes

end ThawGate.Keeper
