import ThawGate.Gate.Metas
import ThawGate.Keeper.Check
import ThawGate.Keeper.HolderExact

/-!
# A resync, end to end

`resyncOnce` at one state of the cluster, with nothing else running: it lists the gate's policies, loads each wanted
mint that Token ACL gates by ThawGate, drops the other mints, and checks every mint. Whatever the index had before,
it then asks for the freeze of exactly the token accounts that the gate lets anyone freeze (`resync_freezes`).
-/

namespace ThawGate.Keeper

open Borsh Exec Lts

/-- The mints of the keeper's configuration; `none` is every mint. -/
structure MintFilter where
  mints : Option (List Pubkey)
  skipMints : List Pubkey

namespace MintFilter

variable (config : MintFilter)

def wanted (mint : Pubkey) : Bool :=
  if mint ∈ config.skipMints then false
  else match config.mints with
    | none => true
    | some mints => mint ∈ mints

end MintFilter

def Derivation.mintConfigPda (d : Derivation) (mint : Pubkey) : Pubkey :=
  d.programDerivedAddress tokenAclId ["MINT_CONFIG".toUTF8.data.toList, mint.1]

/-- Where the gate keeps a mint's policy. -/
def Derivation.policyPda (d : Derivation) (mint : Pubkey) : Pubkey :=
  d.programDerivedAddress gateId [Gate.policySeed, mint.1]

/-! ### One resync -/

section definitions

variable (d : Derivation) (c : Cluster) (config : MintFilter)

/-- Token ACL's `MintConfig` names ThawGate as the gate and has permissionless freeze on. -/
def gatedByUs (mint : Pubkey) : Exec Empty Bool :=
  match c.readAccounts [d.mintConfigPda mint] with
  | some account :: _ => do
    match ← decodeMintConfig account.data with
    | some config => pure (config.mint = mint ∧ config.gatingProgram = gateId ∧ config.permissionlessFreeze = true)
    | none => pure false
  | _ => .ok false

/-- The policy that an account of the gate brings into the index, if any. -/
def considered (account : RawAccount) : Exec Empty (Option GatePolicy) := do
  match ← decodeGatePolicy account.data with
  | none => pure none
  | some policy =>
    if config.wanted policy.mint = false then pure none
    else do
      pure (if ← gatedByUs d c policy.mint then some policy else none)

/-- The mint's token accounts that `loadMint` lists. -/
def listed (mint : Pubkey) : Exec Empty (List (Pubkey × TrackedAccount)) := do
  let tokens ← (c.getProgramAccounts token2022Id 0 mint.1).mapM' fun (pubkey, account) => do
    let token ← decodeTokenAccount account.data
    pure (token.bind fun t => if t.mint = mint then some (pubkey, (⟨t.owner, t.state⟩ : TrackedAccount)) else none)
  pure (tokens.filterMap id)

def loadMint (s : HolderIndex) (policyAddress : Pubkey) (policy : GatePolicy) : Exec Empty HolderIndex := do
  let s := s.reload policyAddress policy
  let accounts ← listed c policy.mint
  match s.mints.lookup policy.mint with
  | some id => pure (s.relist id accounts)
  | none => pure s

/-- The loop over the policies, with `seen`. -/
def loadAll : List (Pubkey × RawAccount) → HolderIndex → List Pubkey → Exec Empty (HolderIndex × List Pubkey)
  | [], s, seen => .ok (s, seen)
  | (pubkey, account) :: rest, s, seen => do
    match ← considered d c config account with
    | none => loadAll rest s seen
    | some policy => loadAll rest (← loadMint c s pubkey policy) (policy.mint :: seen)

def HolderIndex.dropUnseen (s : HolderIndex) (seen : List Pubkey) : HolderIndex :=
  s.mints.keys.foldl (fun s mint => if mint ∈ seen then s else s.removeMint mint) s

/-- The checks of every mint of the index. -/
def checkAll (s : HolderIndex) (observedAt : Nat) : Exec Empty (List (List Judgement × List FreezeCall)) :=
  s.mints.keys.mapM' fun mint =>
    match s.entryOf mint with
    | none => .ok ([], [])
    | some e => check d c e none .resync observedAt none

/-- The index that the checks run on, and what they come to. -/
def resyncOnce (s : HolderIndex) (observedAt : Nat) :
    Exec Empty (HolderIndex × List (List Judgement × List FreezeCall)) := do
  let policies := c.getProgramAccounts gateId 0 Gate.GatePolicy.account.discriminator
  let (s, seen) ← loadAll d c config policies s []
  let s := s.dropUnseen seen
  pure (s, ← checkAll d c s observedAt)

end definitions

/-! ### What is read -/

section reads

variable {d : Derivation} {c : Cluster} {config : MintFilter}

/-- Token ACL gates the mint by ThawGate, and lets anyone freeze. -/
def Cluster.GatedByUs (c : Cluster) (d : Derivation) (mint : Pubkey) : Prop :=
  ∃ account mintConfig, c.account (d.mintConfigPda mint) = some account ∧
    decodeMintConfig account.data = .ok (some mintConfig) ∧ mintConfig.mint = mint ∧
      mintConfig.gatingProgram = gateId ∧ mintConfig.permissionlessFreeze = true

/-- A Token-2022 account of the mint. -/
def Cluster.HoldsToken (c : Cluster) (mint tokenAccount : Pubkey) (tracked : TrackedAccount) : Prop :=
  ∃ account token, c.account tokenAccount = some account ∧ account.owner = token2022Id ∧
    decodeTokenAccount account.data = .ok (some token) ∧ token.mint = mint ∧ tracked = ⟨token.owner, token.state⟩

theorem gatedByUs_eq (mint : Pubkey) : ∃ gated : Bool, gatedByUs d c mint = .ok gated ∧ (gated ↔ c.GatedByUs d mint) := by
  unfold gatedByUs Cluster.GatedByUs
  rw [c.readAccounts_eq, List.map_cons]
  cases haccount : c.account (d.mintConfigPda mint) with
  | none =>
    refine ⟨false, rfl, iff_of_false Bool.false_ne_true ?_⟩
    rintro ⟨_, _, h, -⟩
    contradiction
  | some account =>
    dsimp only
    obtain ⟨found, hfound⟩ := decodeMintConfig_ok account.data
    rw [hfound, bind_ok]
    cases found with
    | none =>
      refine ⟨false, rfl, iff_of_false Bool.false_ne_true ?_⟩
      rintro ⟨account', _, h, hdecode, -⟩
      obtain rfl := Option.some.inj h
      rw [hfound] at hdecode
      cases hdecode
    | some mintConfig =>
      refine ⟨_, rfl, ?_⟩
      rw [decide_eq_true_eq]
      constructor
      · exact fun h => ⟨account, mintConfig, rfl, hfound, h⟩
      · rintro ⟨account', mintConfig', h, hdecode, hrest⟩
        obtain rfl := Option.some.inj h
        obtain rfl := Option.some.inj (ok.inj (hfound.symm.trans hdecode))
        exact hrest

/-- The accounts of the gate are policies, each at its mint's address. -/
def Cluster.GateAccounts (c : Cluster) (policyPda : Pubkey → Pubkey) : Prop :=
  ∀ address account, c.account address = some account → account.owner = gateId →
    Gate.GatePolicy.account.discriminator <+: account.data →
      ∃ p : Gate.GatePolicy, account.data = Gate.GatePolicy.account.bytes p ∧ address = policyPda p.mint

/-- `decodeGatePolicy` reads the account, the mint is wanted and gated. -/
def Cluster.Considers (c : Cluster) (d : Derivation) (config : MintFilter) (p : Gate.GatePolicy) : Prop :=
  config.wanted p.mint = true ∧ c.GatedByUs d p.mint

theorem considered_eq (config : MintFilter) {account : RawAccount} {p : Gate.GatePolicy}
    (hdata : account.data = Gate.GatePolicy.account.bytes p) :
    considered d c config account = .ok (some (.of p)) ∧ c.Considers d config p ∨
      considered d c config account = .ok none ∧ ¬c.Considers d config p := by
  unfold considered Cluster.Considers
  rw [hdata, decodeGatePolicy_bytes, bind_ok]
  dsimp only
  obtain ⟨gated, hgated, hiff⟩ := gatedByUs_eq (d := d) (c := c) p.mint
  have hmint : (GatePolicy.of p).mint = p.mint := rfl
  rw [hmint, hgated, bind_ok, ← hiff]
  cases config.wanted p.mint <;> cases gated <;> simp

/-- A listed account tells what it holds. -/
def ListedAs (mint : Pubkey) (listing : Pubkey × RawAccount) (found : Option (Pubkey × TrackedAccount)) : Prop :=
  ∀ entry, found = some entry ↔ entry.1 = listing.1 ∧ ∃ token, decodeTokenAccount listing.2.data = .ok (some token) ∧
    token.mint = mint ∧ entry.2 = ⟨token.owner, token.state⟩

theorem listing_eq (mint : Pubkey) (listing : Pubkey × RawAccount) : ∃ found,
    (do
      let token ← decodeTokenAccount listing.2.data
      pure (token.bind fun t => if t.mint = mint then some (listing.1, (⟨t.owner, t.state⟩ : TrackedAccount)) else none)) =
        Exec.ok found ∧ ListedAs mint listing found := by
  obtain hnone | ⟨token, hsome, -⟩ := decodeTokenAccount_cases listing.2.data
  · rw [hnone]
    refine ⟨none, rfl, fun entry => iff_of_false nofun ?_⟩
    rintro ⟨-, token, h, -⟩
    rw [hnone] at h
    cases h
  · rw [hsome]
    refine ⟨_, rfl, fun entry => ?_⟩
    rw [Option.bind_some]
    have htoken (t : TokenAccount) : Exec.ok (some token) = (Exec.ok (some t) : Exec Empty _) ↔ token = t := by simp
    simp only [hsome, htoken, exists_eq_left']
    by_cases hmint : token.mint = mint
    · rw [if_pos hmint, Option.some_inj, Prod.ext_iff]
      exact ⟨fun h => ⟨h.1.symm, hmint, h.2.symm⟩, fun h => ⟨h.1.symm, h.2.2.symm⟩⟩
    · rw [if_neg hmint]
      exact iff_of_false nofun fun h => hmint h.2.1

/-- The listing has the mint's token accounts, each once. -/
theorem listed_eq (c : Cluster) (mint : Pubkey) : ∃ accounts, listed c mint = .ok accounts ∧
    ∀ ta t, (Map.insertAll ∅ accounts).lookup ta = some t ↔ c.HoldsToken mint ta t := by
  obtain ⟨found, hfound, hfrom, hto⟩ := Exec.mapM'_ok (R := ListedAs mint)
    fun listing (_ : listing ∈ c.getProgramAccounts token2022Id 0 mint.1) => listing_eq mint listing
  have hmem (ta : Pubkey) (t : TrackedAccount) : (ta, t) ∈ found.filterMap id ↔ c.HoldsToken mint ta t := by
    rw [List.mem_filterMap]
    constructor
    · rintro ⟨_, hmem, rfl⟩
      obtain ⟨⟨pubkey, account⟩, hlisted, hlisting⟩ := hto _ hmem
      obtain ⟨rfl, token, hdecode, hmint, heq⟩ := (hlisting (ta, t)).1 rfl
      obtain ⟨haccount, howner, -⟩ := c.mem_getProgramAccounts.1 hlisted
      exact ⟨account, token, haccount, howner, hdecode, hmint, heq⟩
    · rintro ⟨account, token, haccount, howner, hdecode, hmint, heq⟩
      have hfront : slice account.data 0 mint.1.length = mint.1 := by
        obtain hnone | ⟨token', htoken, hslice⟩ := decodeTokenAccount_cases account.data
        · rw [hnone] at hdecode
          cases hdecode
        · obtain rfl := Option.some.inj (ok.inj (htoken.symm.trans hdecode))
          rw [mint.2, ← hslice, hmint]
      obtain ⟨entry, hentry, hlisting⟩ := hfrom (ta, account) (c.mem_getProgramAccounts.2 ⟨haccount, howner, hfront⟩)
      exact ⟨entry, hentry, (hlisting (ta, t)).2 ⟨rfl, token, hdecode, hmint, heq⟩⟩
  refine ⟨found.filterMap id, ?_, fun ta t => ?_⟩
  · unfold listed
    exact (congrArg (· >>= _) hfound).trans rfl
  · refine (Map.lookup_insertAll_eq_some ?_ ∅).trans ?_
    · intro ta t t' ht ht'
      obtain ⟨account, token, haccount, -, hdecode, -, rfl⟩ := (hmem ta t).1 ht
      obtain ⟨account', token', haccount', -, hdecode', -, rfl⟩ := (hmem ta t').1 ht'
      obtain rfl := Option.some.inj (haccount.symm.trans haccount')
      obtain rfl := Option.some.inj (ok.inj (hdecode.symm.trans hdecode'))
      rfl
    · rw [hmem, AList.lookup_empty]
      exact or_iff_left fun h => nomatch h.2

end reads

/-! ### The index -/

section index

variable {d : Derivation} {s : HolderIndex} {mint : Pubkey}

/-- Every entry's facts are derived under its policy. -/
def HolderIndex.Derived (d : Derivation) (s : HolderIndex) : Prop :=
  ∀ m e, s.entryOf m = some e → e.Derived d

/-- A mint as `loadMint` leaves it. -/
structure Loaded (d : Derivation) (c : Cluster) (policy : GatePolicy) (e : MintEntry) : Prop where
  mint : e.mint = policy.mint
  derived : e.Derived d
  accounts : ∀ ta t, e.accounts.lookup ta = some t ↔ c.HoldsToken policy.mint ta t
  policy : e.policy = policy

theorem setMint_entryOf (hw : s.WellFormed) (mint policyAddress : Pubkey) (policy : GatePolicy) :
    ∃ e, (s.setMint mint policyAddress policy).1.entryOf mint = some e ∧ e.mint = mint ∧ e.policy = policy := by
  unfold HolderIndex.setMint
  cases hid : s.mints.lookup mint with
  | some id =>
    obtain ⟨e, he, hmint⟩ := hw.entry hid
    have hentry : s.entryOf mint = some e := HolderIndex.entryOf_eq_some.2 ⟨id, hid, he⟩
    dsimp only
    rw [HolderIndex.entryOf_modify, HolderIndex.forgetOwners_mints, if_pos hid, HolderIndex.forgetOwners_entryOf,
      if_pos hid, hentry]
    exact ⟨_, rfl, hmint, rfl⟩
  | none =>
    refine ⟨_, HolderIndex.entryOf_eq_some.2 ⟨_, AList.lookup_insert _, List.getElem?_concat_length⟩, rfl, rfl⟩

/-- After a reload the mint has the policy, and derived facts; the other mints are untouched. -/
theorem reload_entryOf (hw : s.WellFormed) (hs : s.Derived d) (policyAddress : Pubkey) (policy : GatePolicy) :
    (∃ e, (s.reload policyAddress policy).entryOf policy.mint = some e ∧ e.mint = policy.mint ∧ e.policy = policy ∧
      e.Derived d) ∧ ∀ m ≠ policy.mint, (s.reload policyAddress policy).entryOf m = s.entryOf m := by
  have hset : (∃ e, (s.setMint policy.mint policyAddress policy).1.entryOf policy.mint = some e ∧
      e.mint = policy.mint ∧ e.policy = policy ∧ e.Derived d) ∧
        ∀ m ≠ policy.mint, (s.setMint policy.mint policyAddress policy).1.entryOf m = s.entryOf m := by
    obtain ⟨e, he, hmint, hpolicy⟩ := setMint_entryOf hw policy.mint policyAddress policy
    refine ⟨⟨e, he, hmint, hpolicy, ?_⟩, fun m hm => hw.setMint_entryOf_ne hm⟩
    intro owner f hf
    rw [HolderIndex.setMint_owners he, AList.lookup_empty] at hf
    cases hf
  unfold HolderIndex.reload
  cases he : s.entryOf policy.mint with
  | none => exact hset
  | some e =>
    dsimp only
    by_cases hpolicy : e.policy = policy
    · rw [if_pos hpolicy]
      obtain ⟨id, hid, hentry⟩ := HolderIndex.entryOf_eq_some.1 he
      exact ⟨⟨e, he, (hw.mint_eq hid hentry).symm, hpolicy, hs _ e he⟩, fun _ _ => rfl⟩
    · rw [if_neg hpolicy]
      exact hset

theorem relist_entryOf (s : HolderIndex) (id : Nat) (accounts : List (Pubkey × TrackedAccount)) (m : Pubkey) :
    (s.relist id accounts).entryOf m = if s.mints.lookup m = some id then
      (s.entryOf m).map fun e => { e with accounts := Map.insertAll ∅ accounts } else s.entryOf m :=
  s.entryOf_modify id _ m

theorem loadMint_eq (c : Cluster) (hw : s.WellFormed) (hs : s.Derived d) (policyAddress : Pubkey)
    (policy : GatePolicy) : ∃ s', loadMint c s policyAddress policy = .ok s' ∧ s'.WellFormed ∧
      (∃ e, s'.entryOf policy.mint = some e ∧ Loaded d c policy e) ∧
        ∀ m ≠ policy.mint, s'.entryOf m = s.entryOf m := by
  obtain ⟨accounts, haccounts, hlookup⟩ := listed_eq c policy.mint
  obtain ⟨⟨e, he, hmint, hpolicy, hderived⟩, hother⟩ := reload_entryOf hw hs policyAddress policy
  have hw' := hw.reload policyAddress policy
  obtain ⟨id, hid, -⟩ := HolderIndex.entryOf_eq_some.1 he
  unfold loadMint
  simp only [haccounts, bind_ok, hid]
  refine ⟨_, rfl, hw'.modify_accounts (fun _ => rfl) (fun _ => rfl), ?_, ?_⟩
  · rw [relist_entryOf, if_pos hid, he]
    exact ⟨_, rfl, hmint, hderived, hlookup, hpolicy⟩
  · intro m hm
    rw [relist_entryOf, if_neg (hw'.lookup_ne hid hm)]
    exact hother m hm

/-- Only the mints that were seen stay. -/
theorem dropUnseen_entryOf (hw : s.WellFormed) (seen : List Pubkey) :
    (s.dropUnseen seen).WellFormed ∧
      ∀ m, (s.dropUnseen seen).entryOf m = if m ∈ seen then s.entryOf m else none := by
  have hfold (mints : List Pubkey) (s' : HolderIndex) (hw' : s'.WellFormed) :
      (mints.foldl (fun s mint => if mint ∈ seen then s else s.removeMint mint) s').WellFormed ∧ ∀ m,
        (mints.foldl (fun s mint => if mint ∈ seen then s else s.removeMint mint) s').entryOf m =
          if m ∈ seen ∨ m ∉ mints then s'.entryOf m else none := by
    induction mints generalizing s' with
    | nil => exact ⟨hw', fun m => (if_pos (.inr List.not_mem_nil)).symm⟩
    | cons k mints ih =>
      rw [List.foldl_cons]
      by_cases hk : k ∈ seen
      · rw [if_pos hk]
        obtain ⟨hwell, hentry⟩ := ih s' hw'
        refine ⟨hwell, fun m => ?_⟩
        rw [hentry m]
        obtain rfl | hm := eq_or_ne m k
        · simp [hk]
        · simp [hm]
      · rw [if_neg hk]
        obtain ⟨hwell, hentry⟩ := ih (s'.removeMint k) hw'.removeMint
        refine ⟨hwell, fun m => ?_⟩
        rw [hentry m]
        obtain rfl | hm := eq_or_ne m k
        · simp [hk, HolderIndex.removeMint_entryOf]
        · simp [hm, hw'.removeMint_entryOf_ne hm]
  obtain ⟨hwell, hentry⟩ := hfold s.mints.keys s hw
  refine ⟨hwell, fun m => (hentry m).trans ?_⟩
  by_cases hm : m ∈ seen
  · rw [if_pos (.inl hm), if_pos hm]
  · rw [if_neg hm]
    by_cases hkey : m ∈ s.mints.keys
    · exact if_neg (by simp [hm, hkey])
    · rw [if_pos (.inr hkey), HolderIndex.entryOf, AList.lookup_eq_none.2 hkey, Option.bind_none]

end index

/-! ### A reached index -/

section reached

variable {d : Derivation} {s : HolderIndex} {id : Nat}

/-- Every owner's facts know whether the owner is off the curve. -/
def HolderIndex.KnowsCurve (d : Derivation) (s : HolderIndex) : Prop :=
  ∀ (id : Nat) (e : MintEntry) (owner : Pubkey) (f : OwnerFacts),
    s.entries[id]? = some e → e.owners.lookup owner = some f → f.reads.ownerOffCurve = d.isOffCurve owner

namespace HolderIndex.KnowsCurve

theorem modify (hk : s.KnowsCurve d) {f : MintEntry → MintEntry}
    (hf : ∀ e owner g, (f e).owners.lookup owner = some g →
      e.owners.lookup owner = some g ∨ g.reads.ownerOffCurve = d.isOffCurve owner) : (s.modify id f).KnowsCurve d := by
  intro j e owner g he hg
  rw [HolderIndex.getElem?_modify_entries] at he
  obtain ⟨e', he', rfl⟩ := Option.map_eq_some_iff.1 he
  split_ifs at hg with hid
  · exact (hf e' owner g hg).elim (hk j e' owner g he') fun h => h
  · exact hk j e' owner g he' hg

theorem forgetOwners (hk : s.KnowsCurve d) : (s.forgetOwners id).KnowsCurve d := by
  unfold HolderIndex.forgetOwners
  split
  · exact hk
  · have hcleared : (s.modify id fun e => { e with owners := ∅ }).KnowsCurve d := by
      refine hk.modify fun e owner g hg => ?_
      rw [AList.lookup_empty] at hg
      cases hg
    exact hcleared

theorem setMint (hk : s.KnowsCurve d) (mint policyAddress : Pubkey) (policy : GatePolicy) :
    (s.setMint mint policyAddress policy).1.KnowsCurve d := by
  unfold HolderIndex.setMint
  split
  · exact hk.forgetOwners.modify fun _ _ _ => .inl
  · intro j e owner g he hg
    obtain hlt | hge := lt_or_ge j s.entries.length
    · rw [List.getElem?_append_left hlt] at he
      exact hk j e owner g he hg
    · rw [List.getElem?_append_right hge, List.getElem?_singleton] at he
      obtain ⟨-, rfl⟩ := Option.ite_none_right_eq_some.1 he |>.imp_right Option.some.inj
      rw [AList.lookup_empty] at hg
      cases hg

theorem removeMint (hk : s.KnowsCurve d) (mint : Pubkey) : (s.removeMint mint).KnowsCurve d := by
  unfold HolderIndex.removeMint
  split
  · exact hk
  · exact hk.forgetOwners

theorem settleOwner (hk : s.KnowsCurve d) {owner : Pubkey} {facts : OwnerFacts}
    (hfacts : facts.reads.ownerOffCurve = d.isOffCurve owner) : (s.settleOwner id owner facts).KnowsCurve d := by
  unfold HolderIndex.settleOwner
  split
  · exact hk
  · split
    · exact hk
    · have hinserted : (s.modify id fun e => { e with owners := e.owners.insert owner facts }).KnowsCurve d := by
        refine hk.modify fun e o g hg => ?_
        obtain ⟨rfl, rfl⟩ | ⟨-, hg⟩ := Map.lookup_insert_eq_some.1 hg
        · exact .inr hfacts
        · exact .inl hg
      exact hinserted

theorem observe (hk : s.KnowsCurve d) (o : Observation) : (s.observe id o).KnowsCurve d := by
  cases o with
  | read slot tokenAccount found =>
    cases found with
    | some account => exact hk.modify fun _ _ _ => .inl
    | none => exact hk
  | _ => exact hk.modify fun _ _ _ => .inl

end HolderIndex.KnowsCurve

theorem knowsCurve_of_reachable {s : Holders} (r : (holders d).Reachable s) : s.index.KnowsCurve d := by
  refine r.invariant (I := fun s => s.index.KnowsCurve d) ?_ ?_
  · intro s hs
    rw [hs]
    intro id e owner f he
    cases he
  · intro s label s' hk hs
    cases hs with
    | setMint mint policyAddress policy => exact hk.setMint mint policyAddress policy
    | reload policyAddress policy =>
      unfold HolderIndex.reload
      split
      · exact hk.setMint policy.mint policyAddress policy
      · split_ifs
        · exact hk
        · exact hk.setMint policy.mint policyAddress policy
    | removeMint => exact hk.removeMint _
    | owner mint owner =>
      unfold Holders.startOwner
      split
      · exact hk
      · split
        · exact hk
        · split_ifs
          · exact hk
          · exact hk.settleOwner rfl
          · exact hk
    | resume i =>
      unfold Holders.resumeOwner
      split
      · exact hk
      · split_ifs
        · exact hk
        · split
          · exact hk
          · exact hk.settleOwner rfl
    | observed => exact hk.observe _

/-- In an index that was reached with no call coming back late, every owner's facts are derived. -/
theorem derived_of_timely {labels : List HolderLabel} {s : Holders}
    (r : ((holders d).restrict (TimelyStep d)).Run labels s) : s.index.Derived d := by
  have hx : s.index.Exact d := by
    refine Run.invariant (I := fun _ s => s.index.Exact d) ?_ ?_ r
    · intro s hs
      rw [show s = _ from hs]
      exact .empty
    · intro labels s label s' r hx hs
      exact (exact_step_iff hx (wellFormed_of_reachable r.of_restrict.reachable) hs.2).2 hs.1
  have r := r.of_restrict.reachable
  intro m e he owner f hf
  obtain ⟨id, hid, hentry⟩ := HolderIndex.entryOf_eq_some.1 he
  have hw := wellFormed_of_reachable r
  obtain rfl := hw.mint_eq hid hentry
  exact ⟨hw.owner hentry hf, hx.facts he hf, knowsCurve_of_reachable r id e owner f hentry hf⟩

end reached

/-! ### The loop over the policies -/

section resync

variable {d : Derivation} {c : Cluster} {config : MintFilter} {s : HolderIndex}

/-- The gate's account of the policy. -/
def Cluster.HasPolicy (c : Cluster) (d : Derivation) (p : Gate.GatePolicy) : Prop :=
  c.account (d.policyPda p.mint) = some ⟨gateId, Gate.GatePolicy.account.bytes p⟩

/-- A mint is in the index as the loop loads it. -/
def HolderIndex.Keeps (s : HolderIndex) (d : Derivation) (c : Cluster) (config : MintFilter) (mint : Pubkey) : Prop :=
  ∃ p e, p.mint = mint ∧ c.HasPolicy d p ∧ c.Considers d config p ∧ s.entryOf mint = some e ∧ Loaded d c (.of p) e

theorem policy_eq_of_bytes {p q : Gate.GatePolicy}
    (h : Gate.GatePolicy.account.bytes q = Gate.GatePolicy.account.bytes p) : q = p := by
  have hp := Gate.GatePolicy.account.tryDeserialize_iff.2 ⟨[], (List.append_nil (Gate.GatePolicy.account.bytes p)).symm⟩
  have hq := Gate.GatePolicy.account.tryDeserialize_iff.2 ⟨[], (List.append_nil (Gate.GatePolicy.account.bytes q)).symm⟩
  rw [h, hp] at hq
  exact (Option.some.inj hq).symm

theorem hasPolicy_of_listed (hgate : c.GateAccounts d.policyPda) {listing : Pubkey × RawAccount}
    (hl : listing ∈ c.getProgramAccounts gateId 0 Gate.GatePolicy.account.discriminator) :
    ∃ p, c.HasPolicy d p ∧ listing.2.data = Gate.GatePolicy.account.bytes p := by
  obtain ⟨address, owner, data⟩ := listing
  obtain ⟨haccount, rfl, hfront⟩ := c.mem_getProgramAccounts.1 hl
  obtain ⟨p, rfl, rfl⟩ := hgate address _ haccount rfl (by
    rw [← hfront]
    exact List.take_prefix _ _)
  exact ⟨p, haccount, rfl⟩

theorem loadAll_eq (config : MintFilter) (hgate : c.GateAccounts d.policyPda) (policies : List (Pubkey × RawAccount))
    (hlisted : ∀ l ∈ policies, l ∈ c.getProgramAccounts gateId 0 Gate.GatePolicy.account.discriminator)
    (hw : s.WellFormed) (hs : s.Derived d) (seen : List Pubkey) (hseen : ∀ m ∈ seen, s.Keeps d c config m) :
    ∃ s' seen', loadAll d c config policies s seen = .ok (s', seen') ∧ s'.WellFormed ∧
      (∀ m ∈ seen', s'.Keeps d c config m) ∧ (∀ m ∈ seen, m ∈ seen') ∧
        ∀ l ∈ policies, ∀ p, l.2.data = Gate.GatePolicy.account.bytes p → c.Considers d config p → p.mint ∈ seen' := by
  induction policies generalizing s seen with
  | nil => exact ⟨s, seen, rfl, hw, hseen, fun _ h => h, fun _ h => absurd h List.not_mem_nil⟩
  | cons listing rest ih =>
    obtain ⟨pubkey, account⟩ := listing
    have hrest := fun l hl => hlisted l (List.mem_cons_of_mem _ hl)
    obtain ⟨p, hp, hdata⟩ := hasPolicy_of_listed hgate (hlisted _ (List.mem_cons_self ..))
    have hhead (q : Gate.GatePolicy) (hq : account.data = Gate.GatePolicy.account.bytes q) : q = p :=
      policy_eq_of_bytes (hq.symm.trans hdata)
    unfold loadAll
    obtain ⟨hread, hconsiders⟩ | ⟨hread, hnot⟩ := considered_eq (d := d) (c := c) config hdata
    · obtain ⟨s₁, hs₁, hw₁, ⟨e, he, hloaded⟩, hother⟩ := loadMint_eq c hw hs pubkey (.of p)
      have hs' : s₁.Derived d := fun m e' he' => by
        obtain rfl | hm := eq_or_ne m p.mint
        · obtain rfl := Option.some.inj (he.symm.trans he')
          exact hloaded.derived
        · exact hs m e' ((hother m hm).symm.trans he')
      have hseen₁ : ∀ m ∈ p.mint :: seen, s₁.Keeps d c config m := by
        intro m hm
        obtain rfl | hne := eq_or_ne m p.mint
        · exact ⟨p, e, rfl, hp, hconsiders, he, hloaded⟩
        · obtain ⟨q, e', hq, hpolicy, hcons, he', hl⟩ := hseen m (List.mem_of_ne_of_mem hne hm)
          exact ⟨q, e', hq, hpolicy, hcons, (hother m hne).trans he', hl⟩
      obtain ⟨s', seen', hrun, hw', hkept, hmono, hall⟩ := ih hrest hw₁ hs' (p.mint :: seen) hseen₁
      refine ⟨s', seen', ?_, hw', hkept, fun m hm => hmono m (List.mem_cons_of_mem _ hm), ?_⟩
      · rw [hread, bind_ok]
        dsimp only
        rw [hs₁, bind_ok]
        exact hrun
      · intro l hl q hq hcons
        obtain rfl | hl := List.mem_cons.1 hl
        · rw [hhead q hq]
          exact hmono _ (List.mem_cons_self ..)
        · exact hall l hl q hq hcons
    · obtain ⟨s', seen', hrun, hw', hkept, hmono, hall⟩ := ih hrest hw hs seen hseen
      refine ⟨s', seen', ?_, hw', hkept, hmono, ?_⟩
      · rw [hread, bind_ok]
        exact hrun
      · intro l hl q hq hcons
        obtain rfl | hl := List.mem_cons.1 hl
        · refine absurd ?_ hnot
          rw [← hhead q hq]
          exact hcons
        · exact hall l hl q hq hcons

theorem mem_targets_none {e : MintEntry} {ta o : Pubkey} (h : e.accounts.lookup ta = some ⟨o, .initialized⟩) :
    o ∈ e.targets none := by
  have hmem := MintEntry.mem_ownersWithThawedAccounts.2 ⟨ta, MintEntry.mem_thawedAccounts.2 h⟩
  exact List.mem_filter.2 ⟨hmem, decide_eq_true hmem⟩

theorem thawed_of_holds {mint ta o : Pubkey} (h : c.HoldsToken mint ta ⟨o, .initialized⟩) : c.thawed ta = true := by
  obtain ⟨account, token, haccount, -, hdecode, -, heq⟩ := h
  have htoken : c.token ta = some ⟨token.owner, token.state⟩ := by
    unfold Cluster.token readToken
    rw [haccount]
    dsimp only
    rw [hdecode]
    rfl
  rw [Cluster.thawed, htoken, ← heq]
  rfl

/-- What the calls for one mint are. -/
structure ChecksMint (c : Cluster) (d : Derivation) (config : MintFilter) (mint : Pubkey) (calls : List FreezeCall)
    (p : Gate.GatePolicy) : Prop where
  ofMint : p.mint = mint
  policy : c.HasPolicy d p
  considered : c.Considers d config p
  named : ∀ call ∈ calls, call.mint = mint
  freezes : ∀ {rt h info}, c.Runs d p rt h info → c.ReasonReadable d p h.owner.key → ∀ ta : Pubkey,
    (∃ call ∈ calls, call.tokenAccount = ta ∧ call.owner = h.owner.key) ↔
      c.HoldsToken p.mint ta ⟨h.owner.key, .initialized⟩ ∧
        ∃ allow, Gate.decide rt (h.context p info) .freeze = .ok (.allow allow)

theorem check_of_keeps {mint : Pubkey} {e : MintEntry} {p : Gate.GatePolicy} (hmint : p.mint = mint)
    (hp : c.HasPolicy d p) (hconsiders : c.Considers d config p) (he : Loaded d c (.of p) e) (observedAt : Nat) :
    ∃ out, check d c e none .resync observedAt none = .ok out ∧ ChecksMint c d config mint out.2 p := by
  obtain ⟨js, calls, hcheck, hcalls, hfreezes⟩ :=
    check_freezes (c := c) he.policy he.mint he.derived none .resync observedAt none
  refine ⟨(js, calls), hcheck, hmint, hp, hconsiders, fun call h => (hcalls call h).1.trans hmint, ?_⟩
  intro rt h info hruns hreadable ta
  rw [hfreezes hruns hreadable ta, he.accounts]
  constructor
  · rintro ⟨-, hholds, -, hallow⟩
    exact ⟨hholds, hallow⟩
  · rintro ⟨hholds, hallow⟩
    exact ⟨mem_targets_none ((he.accounts _ _).2 hholds), hholds, thawed_of_holds hholds, hallow⟩

theorem checkAll_eq (hw : s.WellFormed) (hs : ∀ m e, s.entryOf m = some e → s.Keeps d c config m) (observedAt : Nat) :
    ∃ checks, checkAll d c s observedAt = .ok checks ∧
      (∀ m e, s.entryOf m = some e → ∃ out ∈ checks, ∃ p, ChecksMint c d config m out.2 p) ∧
        ∀ out ∈ checks, ∃ m p, ChecksMint c d config m out.2 p := by
  obtain ⟨checks, hchecks, hfrom, hto⟩ := Exec.mapM'_ok (l := s.mints.keys)
    (f := fun mint => match s.entryOf mint with
      | none => Exec.ok ([], [])
      | some e => check d c e none .resync observedAt none)
    (R := fun m out => ∃ p, ChecksMint c d config m out.2 p) (fun m hm => by
      obtain ⟨id, hid⟩ := Option.isSome_iff_exists.1 (AList.lookup_isSome.2 hm)
      obtain ⟨e, he, -⟩ := hw.entry hid
      have hentry : s.entryOf m = some e := HolderIndex.entryOf_eq_some.2 ⟨id, hid, he⟩
      obtain ⟨p, e', hmint, hp, hconsiders, he', hloaded⟩ := hs m e hentry
      obtain ⟨out, hout, hcheck⟩ := check_of_keeps hmint hp hconsiders hloaded observedAt
      refine ⟨out, ?_, p, hcheck⟩
      simp only [he']
      exact hout)
  refine ⟨checks, hchecks, fun m e he => ?_, fun out h => ?_⟩
  · obtain ⟨id, hid, -⟩ := HolderIndex.entryOf_eq_some.1 he
    exact hfrom m (AList.lookup_isSome.1 (Option.isSome_iff_exists.2 ⟨id, hid⟩))
  · obtain ⟨m, -, hm⟩ := hto out h
    exact ⟨m, hm⟩

/-- A policy has one account. -/
theorem Cluster.HasPolicy.unique {p q : Gate.GatePolicy} (hp : c.HasPolicy d p) (hq : c.HasPolicy d q)
    (hmint : q.mint = p.mint) : q = p := by
  have haccount : c.account (d.policyPda p.mint) = some ⟨gateId, Gate.GatePolicy.account.bytes q⟩ := by
    rw [← hmint]
    exact hq
  exact policy_eq_of_bytes (congrArg RawAccount.data (Option.some.inj (haccount.symm.trans hp)))

/-- What a resync checks: the mints that the cluster has a policy of, under these policies. -/
theorem resyncOnce_eq (config : MintFilter) {labels : List HolderLabel} {st : Holders}
    (r : ((holders d).restrict (TimelyStep d)).Run labels st) (hgate : c.GateAccounts d.policyPda) (observedAt : Nat) :
    ∃ s' checks, resyncOnce d c config st.index observedAt = .ok (s', checks) ∧
      (∀ out ∈ checks, ∃ m p, ChecksMint c d config m out.2 p) ∧
        ∀ p, c.HasPolicy d p → c.Considers d config p → ∃ out ∈ checks, ChecksMint c d config p.mint out.2 p := by
  have hreached : (holders d).Reachable st := r.of_restrict.reachable
  have hs : st.index.Derived d := derived_of_timely r
  obtain ⟨s₁, seen, hload, hw₁, hkept, -, hall⟩ := loadAll_eq config hgate
    (c.getProgramAccounts gateId 0 Gate.GatePolicy.account.discriminator) (fun _ h => h)
    (wellFormed_of_reachable hreached) hs [] fun _ h => absurd h List.not_mem_nil
  obtain ⟨hw', hentry⟩ := dropUnseen_entryOf hw₁ seen
  have hkeeps (m : Pubkey) (e : MintEntry) (he : (s₁.dropUnseen seen).entryOf m = some e) :
      (s₁.dropUnseen seen).Keeps d c config m := by
    by_cases hm : m ∈ seen
    · obtain ⟨p, e', hmint, hp, hconsiders, he', hloaded⟩ := hkept m hm
      exact ⟨p, e', hmint, hp, hconsiders, ((hentry m).trans (if_pos hm)).trans he', hloaded⟩
    · rw [hentry m, if_neg hm] at he
      cases he
  obtain ⟨checks, hchecks, hfrom, hto⟩ := checkAll_eq hw' hkeeps observedAt
  refine ⟨s₁.dropUnseen seen, checks, ?_, hto, ?_⟩
  · unfold resyncOnce
    dsimp only
    rw [hload, bind_ok]
    dsimp only
    rw [hchecks, bind_ok, pure_eq]
  · intro p hp hconsiders
    have hseen : p.mint ∈ seen := hall _ (c.mem_getProgramAccounts.2 ⟨hp, rfl, List.take_left⟩) p rfl hconsiders
    obtain ⟨q, e, hmint, -, -, he, -⟩ := hkept p.mint hseen
    obtain ⟨out, hout, q, hq⟩ := hfrom p.mint e ((hentry _).trans (if_pos hseen) |>.trans he)
    obtain rfl := hp.unique hq.policy hq.ofMint
    exact ⟨out, hout, hq⟩

/-- The calls for the mint of a policy, from what each mint's check comes to. -/
theorem mem_calls_iff {checks : List (List Judgement × List FreezeCall)} {p : Gate.GatePolicy} {rt : Gate.Runtime}
    {h : Gate.Holder} {info : AccountInfo} (hto : ∀ out ∈ checks, ∃ m p, ChecksMint c d config m out.2 p)
    (hfrom : ∀ p, c.HasPolicy d p → c.Considers d config p → ∃ out ∈ checks, ChecksMint c d config p.mint out.2 p)
    (hp : c.HasPolicy d p) (hruns : c.Runs d p rt h info) (hreadable : c.ReasonReadable d p h.owner.key)
    (ta : Pubkey) :
    (∃ call ∈ checks.flatMap Prod.snd, call.mint = p.mint ∧ call.tokenAccount = ta ∧ call.owner = h.owner.key) ↔
      c.Considers d config p ∧ c.HoldsToken p.mint ta ⟨h.owner.key, .initialized⟩ ∧
        ∃ allow, Gate.decide rt (h.context p info) .freeze = .ok (.allow allow) := by
  constructor
  · rintro ⟨call, hcall, hmint, hta, howner⟩
    obtain ⟨out, hout, hcall⟩ := List.mem_flatMap.1 hcall
    obtain ⟨m, q, hm⟩ := hto out hout
    obtain rfl := hp.unique hm.policy (hm.ofMint.trans ((hm.named call hcall).symm.trans hmint))
    exact ⟨hm.considered, (hm.freezes hruns hreadable ta).1 ⟨call, hcall, hta, howner⟩⟩
  · rintro ⟨hconsiders, hholds⟩
    obtain ⟨out, hout, hm⟩ := hfrom p hp hconsiders
    obtain ⟨call, hcall, hta, howner⟩ := (hm.freezes hruns hreadable ta).2 hholds
    exact ⟨call, List.mem_flatMap.2 ⟨out, hout, hcall⟩, hm.named call hcall, hta, howner⟩

/-- **A resync freezes what the gate lets anyone freeze.** Of every mint whose policy is on the cluster, it asks for the
freeze of a token account if and only if the mint is wanted and Token ACL gates it by ThawGate, the account is a thawed
account of the mint, and the gate, run at the same time on the owner's accounts, allows the freeze. -/
theorem resync_freezes (config : MintFilter) {labels : List HolderLabel} {st : Holders}
    (r : ((holders d).restrict (TimelyStep d)).Run labels st) (hgate : c.GateAccounts d.policyPda) (observedAt : Nat) :
    ∃ s' checks, resyncOnce d c config st.index observedAt = .ok (s', checks) ∧
      (∀ call ∈ checks.flatMap Prod.snd, ∃ p, c.HasPolicy d p ∧ call.mint = p.mint) ∧
      ∀ {p rt h}, c.HasPolicy d p → c.Runs d p rt h (c.info (d.policyPda p.mint)) →
        c.ReasonReadable d p h.owner.key → ∀ ta : Pubkey,
          (∃ call ∈ checks.flatMap Prod.snd, call.mint = p.mint ∧ call.tokenAccount = ta ∧ call.owner = h.owner.key) ↔
            c.Considers d config p ∧ c.HoldsToken p.mint ta ⟨h.owner.key, .initialized⟩ ∧
              ∃ allow, Gate.decide rt (h.context p (c.info (d.policyPda p.mint))) .freeze = .ok (.allow allow) := by
  obtain ⟨s', checks, hresync, hto, hfrom⟩ := resyncOnce_eq config r hgate observedAt
  refine ⟨s', checks, hresync, ?_, ?_⟩
  · intro call hcall
    obtain ⟨out, hout, hcall⟩ := List.mem_flatMap.1 hcall
    obtain ⟨m, p, hm⟩ := hto out hout
    exact ⟨p, hm.policy, (hm.named call hcall).trans hm.ofMint.symm⟩
  · intro p rt h hp hruns hreadable ta
    exact mem_calls_iff hto hfrom hp hruns hreadable ta

end resync

/-- Mint 1 under the sample policy, gated by ThawGate, and the thawed account 7 of wallet 5, who has no credential. -/
def sampleCluster : Cluster where
  accounts := Map.insertAll ∅
    [(sampleDerivation.policyPda (sampleKey 1), ⟨gateId, Gate.GatePolicy.account.bytes Gate.samplePolicy⟩),
      (sampleDerivation.mintConfigPda (sampleKey 1),
        ⟨tokenAclId, [1, 255, 1, 1] ++ (sampleKey 1).1 ++ (sampleKey 2).1 ++ gateId.1⟩),
      (sampleKey 7, ⟨token2022Id, (sampleKey 1).1 ++ (sampleKey 5).1 ++ List.replicate 44 0 ++ [1] ++ List.replicate 56 0⟩)]
  now := 1000

theorem sampleCluster_cases {address : Pubkey} {account : RawAccount}
    (haccount : sampleCluster.account address = some account) :
    (address = sampleKey 7 ∧ account.owner = token2022Id) ∨ account.owner = tokenAclId ∨
      address = sampleDerivation.policyPda (sampleKey 1) ∧
        account = ⟨gateId, Gate.GatePolicy.account.bytes Gate.samplePolicy⟩ := by
  have hentries : sampleCluster.accounts.entries = [⟨sampleKey 7, ⟨token2022Id, (sampleKey 1).1 ++ (sampleKey 5).1 ++
      List.replicate 44 0 ++ [1] ++ List.replicate 56 0⟩⟩, ⟨sampleDerivation.mintConfigPda (sampleKey 1),
        ⟨tokenAclId, [1, 255, 1, 1] ++ (sampleKey 1).1 ++ (sampleKey 2).1 ++ gateId.1⟩⟩,
      ⟨sampleDerivation.policyPda (sampleKey 1), ⟨gateId, Gate.GatePolicy.account.bytes Gate.samplePolicy⟩⟩] := by
    decide +kernel
  have hmem := AList.mem_lookup_iff.1 haccount
  rw [hentries] at hmem
  simp only [List.mem_cons, Sigma.mk.injEq, List.not_mem_nil, or_false] at hmem
  rcases hmem with ⟨rfl, h⟩ | ⟨rfl, h⟩ | ⟨rfl, h⟩
  · rw [eq_of_heq h]
    exact .inl ⟨rfl, rfl⟩
  · rw [eq_of_heq h]
    exact .inr (.inl rfl)
  · exact .inr (.inr ⟨rfl, eq_of_heq h⟩)

theorem sampleCluster_gateAccounts : sampleCluster.GateAccounts sampleDerivation.policyPda := by
  intro address account haccount howner _
  rcases sampleCluster_cases haccount with ⟨-, h⟩ | h | ⟨rfl, rfl⟩
  · exact absurd (howner.symm.trans h) (by decide +kernel)
  · exact absurd (howner.symm.trans h) (by decide +kernel)
  · exact ⟨Gate.samplePolicy, rfl, rfl⟩

theorem resync_freezes_sample : ∃ s' checks,
    resyncOnce sampleDerivation sampleCluster ⟨none, []⟩ ⟨[], ∅, fun _ => ∅⟩ 0 = .ok (s', checks) ∧
      ∃ call ∈ checks.flatMap Prod.snd, call.mint = sampleKey 1 ∧ call.tokenAccount = sampleKey 7 ∧
        call.owner = sampleKey 5 := by
  have r : ((holders sampleDerivation).restrict (TimelyStep sampleDerivation)).Run [] ⟨⟨[], ∅, fun _ => ∅⟩, []⟩ :=
    .start rfl
  obtain ⟨s', checks, hresync, -, hfreezes⟩ :=
    resync_freezes ⟨none, []⟩ r sampleCluster_gateAccounts 0
  refine ⟨s', checks, hresync, ?_⟩
  have hpolicy : sampleCluster.HasPolicy sampleDerivation Gate.samplePolicy := by
    show sampleCluster.account _ = _
    decide +kernel
  have hinfo : sampleCluster.info (sampleDerivation.policyPda (sampleKey 1)) =
      ⟨sampleDerivation.policyPda (sampleKey 1), gateId, Gate.GatePolicy.account.bytes Gate.samplePolicy⟩ := by
    decide +kernel
  have hruns : sampleCluster.Runs sampleDerivation Gate.samplePolicy Gate.sampleRuntime
      (Gate.sampleHolder (sampleCluster.ownerAccounts sampleDerivation Gate.samplePolicy (sampleKey 5)))
      (sampleCluster.info (sampleDerivation.policyPda (sampleKey 1))) := by
    refine ⟨rfl, rfl, ?_, rfl⟩
    rw [hinfo]
    exact ⟨rfl, ⟨[], (List.append_nil _).symm⟩, rfl⟩
  have hreadable : sampleCluster.ReasonReadable sampleDerivation Gate.samplePolicy (sampleKey 5) := by
    rintro ⟨-, hskip⟩
    refine hskip.malformed.1 ?_
    decide +kernel
  have hconsiders : sampleCluster.Considers sampleDerivation ⟨none, []⟩ Gate.samplePolicy := by
    refine ⟨rfl, ⟨tokenAclId, [1, 255, 1, 1] ++ (sampleKey 1).1 ++ (sampleKey 2).1 ++ gateId.1⟩,
      ⟨sampleKey 1, sampleKey 2, gateId, true, true⟩, ?_, ?_, rfl, rfl, rfl⟩
    · decide +kernel
    · decide +kernel
  have hholds : sampleCluster.HoldsToken (sampleKey 1) (sampleKey 7) ⟨sampleKey 5, .initialized⟩ := by
    refine ⟨⟨token2022Id, (sampleKey 1).1 ++ (sampleKey 5).1 ++ List.replicate 44 0 ++ [1] ++ List.replicate 56 0⟩,
      ⟨sampleKey 1, sampleKey 5, 0, .initialized⟩, ?_, rfl, ?_, rfl, rfl⟩
    · decide +kernel
    · decide +kernel
  refine (hfreezes hpolicy hruns hreadable (sampleKey 7)).2 ⟨hconsiders, hholds, .noCredential, ?_⟩
  decide +kernel

end ThawGate.Keeper
