import ThawGate.Keeper.Policy
import ThawGate.Lib.Map
import Mathlib.Data.Finset.Basic
import Mathlib.Logic.Function.Basic

/-!
# The holder index

Per gated mint: its policy, its token accounts, and per owner the addresses that the gate reads for it
(`OwnerFacts`), derived on first use. `byAttestation` is the reverse map: an attestation's address back
to every mint and owner whose decision reads it.

A mint's entry is an object that calls hold on to while they wait, also after the index has dropped it.
So entries are kept in an arena (`entries`), and the `mints` map has their positions.
-/

namespace ThawGate.Keeper

open Borsh Function

inductive TokenState where
  | uninitialized
  | initialized
  | frozen
  deriving DecidableEq, Repr

structure TrackedAccount where
  owner : Pubkey
  state : TokenState
  deriving DecidableEq

structure OwnerFacts where
  owner : Pubkey
  attestationPda : Option Pubkey
  blacklistPda : Option Pubkey
  allowlistPda : Option Pubkey
  reads : OwnerReads
  deriving DecidableEq

structure MintEntry where
  mint : Pubkey
  policyAddress : Pubkey
  policy : GatePolicy
  accounts : Map Pubkey TrackedAccount
  owners : Map Pubkey OwnerFacts

structure HolderIndex where
  entries : List MintEntry
  mints : Map Pubkey Nat
  /-- An address that is no key of the map has the empty set. -/
  byAttestation : Pubkey → Finset (Pubkey × Pubkey)

/-! ### Addresses -/

/-- `getProgramDerivedAddress` and `isOffCurveAddress`. -/
structure Derivation where
  programDerivedAddress : Pubkey → List Bytes → Pubkey
  isOffCurve : Pubkey → Bool

namespace Derivation

variable (d : Derivation)

def attestationPda (credential schema owner : Pubkey) : Pubkey :=
  d.programDerivedAddress sasId ["attestation".toUTF8.data.toList, credential.1, schema.1, owner.1]

def blacklistPda (issuer mint wallet : Pubkey) : Pubkey :=
  d.programDerivedAddress issuer ["blacklist".toUTF8.data.toList, mint.1, wallet.1]

def allowlistPda (issuer mint wallet : Pubkey) : Pubkey :=
  d.programDerivedAddress issuer ["allowlist".toUTF8.data.toList, mint.1, wallet.1]

/-- The facts that `owner` builds under a policy, nothing read yet. -/
def facts (p : GatePolicy) (mint owner : Pubkey) : OwnerFacts where
  owner := owner
  attestationPda := if p.requireSas then some (d.attestationPda p.sasCredential p.sasSchema owner) else none
  blacklistPda := if p.checkBlacklist then some (d.blacklistPda p.issuerProgram mint owner) else none
  allowlistPda := if p.allowlistMode ≠ .off then some (d.allowlistPda p.issuerProgram mint owner) else none
  reads := ⟨none, none, none, d.isOffCurve owner⟩

end Derivation

/-- The addresses of an owner's facts. -/
def OwnerFacts.addresses (f : OwnerFacts) : Option Pubkey × Option Pubkey × Option Pubkey :=
  (f.attestationPda, f.blacklistPda, f.allowlistPda)

/-- How many addresses `owner` derives, awaiting each. -/
def GatePolicy.derivations (p : GatePolicy) : Nat :=
  (if p.requireSas then 1 else 0) + (if p.checkBlacklist then 1 else 0) + (if p.allowlistMode ≠ .off then 1 else 0)

/-! ### The operations -/

/-- `this.byAttestation.get(facts.attestationPda)?.delete(…)` -/
def forget (mint : Pubkey) (byAttestation : Pubkey → Finset (Pubkey × Pubkey)) (f : OwnerFacts) :
    Pubkey → Finset (Pubkey × Pubkey) :=
  match f.attestationPda with
  | none => byAttestation
  | some a => update byAttestation a ((byAttestation a).erase (mint, f.owner))

namespace HolderIndex

variable (s : HolderIndex)

def modify (id : Nat) (f : MintEntry → MintEntry) : HolderIndex := { s with entries := s.entries.modify id f }

def forgetOwners (id : Nat) : HolderIndex :=
  match s.entries[id]? with
  | none => s
  | some entry =>
    { s.modify id fun e => { e with owners := ∅ } with
      byAttestation := (Map.values entry.owners).foldl (forget entry.mint) s.byAttestation }

/-- Adds a mint, or replaces its policy. -/
def setMint (mint policyAddress : Pubkey) (policy : GatePolicy) : HolderIndex × Nat :=
  match s.mints.lookup mint with
  | some id => ((s.forgetOwners id).modify id fun e => { e with policy, policyAddress }, id)
  | none =>
    ({ s with
        entries := s.entries ++ [⟨mint, policyAddress, policy, ∅, ∅⟩]
        mints := s.mints.insert mint s.entries.length }, s.entries.length)

def removeMint (mint : Pubkey) : HolderIndex :=
  match s.mints.lookup mint with
  | none => s
  | some id => { s.forgetOwners id with mints := s.mints.erase mint }

/-- Records a token account. -/
def upsertAccount (id : Nat) (tokenAccount : Pubkey) (account : TrackedAccount) : HolderIndex :=
  s.modify id fun e => { e with accounts := e.accounts.insert tokenAccount account }

/-- `loadMint`'s `clear` and the upserts of what it listed, which nothing comes between. -/
def relist (id : Nat) (listed : List (Pubkey × TrackedAccount)) : HolderIndex :=
  s.modify id fun e => { e with accounts := Map.insertAll ∅ listed }

/-- The end of `owner`, after its derivations: the first to arrive stays. -/
def settleOwner (id : Nat) (owner : Pubkey) (facts : OwnerFacts) : HolderIndex :=
  match s.entries[id]? with
  | none => s
  | some entry =>
    match entry.owners.lookup owner with
    | some _ => s
    | none =>
      { s.modify id fun e => { e with owners := e.owners.insert owner facts } with
        byAttestation :=
          match facts.attestationPda with
          | none => s.byAttestation
          | some a => update s.byAttestation a (insert (entry.mint, owner) (s.byAttestation a)) }

/-- Every mint and owner whose gate decision reads this attestation address. -/
def dependents (attestation : Pubkey) : Finset (Pubkey × Pubkey) := s.byAttestation attestation

/-- `mints.get(mint)` -/
def entryOf (mint : Pubkey) : Option MintEntry := (s.mints.lookup mint).bind (s.entries[·]?)

/-- `mints.get(mint)?.owners.get(owner)` -/
def factsOf (mint owner : Pubkey) : Option OwnerFacts := (s.entryOf mint).bind (·.owners.lookup owner)

end HolderIndex

namespace MintEntry

variable (e : MintEntry)

def thawedAccounts (owner : Pubkey) : List Pubkey :=
  (e.accounts.entries.filter fun a => a.2.owner = owner ∧ a.2.state = .initialized).map Sigma.fst

/-- The owners that a sweep checks. -/
def ownersWithThawedAccounts : List Pubkey :=
  ((e.accounts.entries.filter fun a => a.2.state = .initialized).map fun a => a.2.owner).dedup

variable {e} {owner tokenAccount : Pubkey}

theorem mem_thawedAccounts :
    tokenAccount ∈ e.thawedAccounts owner ↔ e.accounts.lookup tokenAccount = some ⟨owner, .initialized⟩ := by
  simp only [thawedAccounts, List.mem_map, List.mem_filter, decide_eq_true_eq]
  constructor
  · intro ⟨a, ⟨ha, howner, hstate⟩, hta⟩
    obtain ⟨ta, account⟩ := a
    obtain rfl : ta = tokenAccount := hta
    obtain rfl : account = ⟨owner, .initialized⟩ := by rw [← howner, ← hstate]
    exact AList.mem_lookup_iff.2 ha
  · exact fun h => ⟨⟨tokenAccount, _⟩, ⟨AList.mem_lookup_iff.1 h, rfl, rfl⟩, rfl⟩

theorem mem_ownersWithThawedAccounts :
    owner ∈ e.ownersWithThawedAccounts ↔ ∃ tokenAccount, tokenAccount ∈ e.thawedAccounts owner := by
  simp only [ownersWithThawedAccounts, List.mem_dedup, List.mem_map, List.mem_filter, decide_eq_true_eq,
    thawedAccounts]
  constructor
  · intro ⟨a, ⟨ha, hstate⟩, howner⟩
    exact ⟨a.1, a, ⟨ha, howner, hstate⟩, rfl⟩
  · intro ⟨_, a, ⟨ha, howner, hstate⟩, _⟩
    exact ⟨a, ⟨ha, hstate⟩, howner⟩

end MintEntry

/-! ### Forgetting -/

theorem mem_forget {mint : Pubkey} {m : Pubkey → Finset (Pubkey × Pubkey)} {f : OwnerFacts} {a : Pubkey}
    {p : Pubkey × Pubkey} :
    p ∈ forget mint m f a ↔ p ∈ m a ∧ ¬(f.attestationPda = some a ∧ p = (mint, f.owner)) := by
  unfold forget
  cases hf : f.attestationPda with
  | none => simp
  | some b =>
    obtain rfl | hab := eq_or_ne a b
    · simp [and_comm]
    · simp [update_of_ne hab, hab.symm]

theorem mem_foldl_forget {mint : Pubkey} {fs : List OwnerFacts} {m : Pubkey → Finset (Pubkey × Pubkey)} {a : Pubkey}
    {p : Pubkey × Pubkey} :
    p ∈ fs.foldl (forget mint) m a ↔ p ∈ m a ∧ ∀ f ∈ fs, ¬(f.attestationPda = some a ∧ p = (mint, f.owner)) := by
  induction fs generalizing m with
  | nil => simp
  | cons f fs ih =>
    rw [List.foldl_cons, ih, mem_forget, List.forall_mem_cons, and_assoc]

/-! ### Well-formedness -/

/-- The map points at entries of its keys, and an entry's facts are of their keys. -/
structure HolderIndex.WellFormed (s : HolderIndex) : Prop where
  entry : ∀ {mint : Pubkey} {id : Nat}, s.mints.lookup mint = some id → ∃ e, s.entries[id]? = some e ∧ e.mint = mint
  owner : ∀ {id : Nat} {e : MintEntry} {owner : Pubkey} {f : OwnerFacts},
    s.entries[id]? = some e → e.owners.lookup owner = some f → f.owner = owner

namespace HolderIndex

variable {s : HolderIndex} {id : Nat} {f : MintEntry → MintEntry} {e : MintEntry} {mint m owner : Pubkey}

theorem entryOf_eq_some :
    s.entryOf mint = some e ↔ ∃ id, s.mints.lookup mint = some id ∧ s.entries[id]? = some e :=
  Option.bind_eq_some_iff

theorem factsOf_eq_some {g : OwnerFacts} :
    s.factsOf mint owner = some g ↔ ∃ e, s.entryOf mint = some e ∧ e.owners.lookup owner = some g :=
  Option.bind_eq_some_iff

theorem getElem?_modify_entries {j : Nat} :
    (s.modify id f).entries[j]? = (s.entries[j]?).map fun e => if id = j then f e else e := by
  rw [modify, List.getElem?_modify]
  cases s.entries[j]? <;> simp

theorem entryOf_modify (s : HolderIndex) (id : Nat) (f : MintEntry → MintEntry) (m : Pubkey) :
    (s.modify id f).entryOf m = if s.mints.lookup m = some id then (s.entryOf m).map f else s.entryOf m := by
  show (s.mints.lookup m).bind ((s.modify id f).entries[·]?) = _
  unfold entryOf
  cases hm : s.mints.lookup m with
  | none => simp
  | some j =>
    simp only [Option.bind_some, getElem?_modify_entries, Option.some.injEq]
    obtain rfl | hj := eq_or_ne id j
    · simp
    · simp [hj, hj.symm]

@[simp] theorem forgetOwners_mints : (s.forgetOwners id).mints = s.mints := by
  unfold forgetOwners
  split <;> rfl

theorem forgetOwners_entryOf : (s.forgetOwners id).entryOf m =
    if s.mints.lookup m = some id then (s.entryOf m).map fun e => { e with owners := ∅ } else s.entryOf m := by
  unfold forgetOwners
  split
  · rename_i hnone
    split_ifs with hm
    · rw [entryOf, hm, Option.bind_some, hnone]
      rfl
    · rfl
  · exact entryOf_modify s id _ m

namespace WellFormed

theorem empty : (⟨[], ∅, fun _ => ∅⟩ : HolderIndex).WellFormed := by
  refine ⟨?_, ?_⟩
  · intro mint id h
    rw [AList.lookup_empty] at h
    contradiction
  · intro id e owner f h
    contradiction

/-- An entry belongs to one mint. -/
theorem mint_eq (hw : s.WellFormed) (hid : s.mints.lookup m = some id) (he : s.entries[id]? = some e) : m = e.mint := by
  obtain ⟨e', he', hmint⟩ := hw.entry hid
  obtain rfl := Option.some.inj (he.symm.trans he')
  exact hmint.symm

/-- The reverse map plays no part. -/
theorem congr {s' : HolderIndex} (hw : s.WellFormed) (he : s'.entries = s.entries) (hm : s'.mints = s.mints) :
    s'.WellFormed := by
  refine ⟨?_, ?_⟩
  · rw [he, hm]
    exact hw.entry
  · rw [he]
    exact hw.owner

theorem modify (hw : s.WellFormed) (hmint : ∀ e, (f e).mint = e.mint)
    (howner : ∀ {e o g}, s.entries[id]? = some e → (f e).owners.lookup o = some g → g.owner = o) :
    (s.modify id f).WellFormed := by
  refine ⟨?_, ?_⟩
  · intro mint j hj
    obtain ⟨e, he, rfl⟩ := hw.entry hj
    rw [getElem?_modify_entries, he]
    refine ⟨_, rfl, ?_⟩
    split_ifs
    · exact hmint e
    · rfl
  · intro j e' owner g he' hg
    rw [getElem?_modify_entries] at he'
    obtain ⟨e, he, rfl⟩ := Option.map_eq_some_iff.1 he'
    split_ifs at hg with hj
    · subst hj
      exact howner he hg
    · exact hw.owner he hg

/-- What leaves the owners of the entry alone. -/
theorem modify_accounts (hw : s.WellFormed) (hmint : ∀ e, (f e).mint = e.mint) (howners : ∀ e, (f e).owners = e.owners) :
    (s.modify id f).WellFormed := by
  refine hw.modify hmint ?_
  intro e o g he hg
  rw [howners] at hg
  exact hw.owner he hg

theorem forgetOwners (hw : s.WellFormed) : (s.forgetOwners id).WellFormed := by
  unfold HolderIndex.forgetOwners
  split
  · exact hw
  · have hcleared : (s.modify id fun e => { e with owners := ∅ }).WellFormed := by
      refine hw.modify (fun _ => rfl) ?_
      intro e o g _ hg
      rw [AList.lookup_empty] at hg
      contradiction
    exact hcleared.congr rfl rfl

theorem setMint {policyAddress : Pubkey} {policy : GatePolicy} (hw : s.WellFormed) :
    (s.setMint mint policyAddress policy).1.WellFormed := by
  unfold HolderIndex.setMint
  split
  · exact hw.forgetOwners.modify_accounts (fun _ => rfl) fun _ => rfl
  · refine ⟨?_, ?_⟩
    · intro m j hj
      obtain ⟨rfl, rfl⟩ | ⟨-, hj⟩ := Map.lookup_insert_eq_some.1 hj
      · exact ⟨_, List.getElem?_concat_length, rfl⟩
      · obtain ⟨e, he, hmint⟩ := hw.entry hj
        obtain ⟨hlt, -⟩ := List.getElem?_eq_some_iff.1 he
        exact ⟨e, by rw [List.getElem?_append_left hlt, he], hmint⟩
    · intro j e owner g he hg
      obtain hlt | hge := lt_or_ge j s.entries.length
      · rw [List.getElem?_append_left hlt] at he
        exact hw.owner he hg
      · rw [List.getElem?_append_right hge, List.getElem?_singleton] at he
        obtain ⟨-, rfl⟩ := Option.ite_none_right_eq_some.1 he |>.imp_right Option.some.inj
        rw [AList.lookup_empty] at hg
        contradiction

theorem removeMint (hw : s.WellFormed) : (s.removeMint mint).WellFormed := by
  unfold HolderIndex.removeMint
  split
  · exact hw
  · rename_i id _
    have hforgot : (s.forgetOwners id).WellFormed := hw.forgetOwners
    refine ⟨?_, hforgot.owner⟩
    intro m j hj
    apply hforgot.entry
    rw [forgetOwners_mints]
    exact (Map.lookup_erase_eq_some.1 hj).2

theorem settleOwner {facts : OwnerFacts} (hw : s.WellFormed) (hfacts : facts.owner = owner) :
    (s.settleOwner id owner facts).WellFormed := by
  unfold HolderIndex.settleOwner
  split
  · exact hw
  · split
    · exact hw
    · have hinserted : (s.modify id fun e => { e with owners := e.owners.insert owner facts }).WellFormed := by
        refine hw.modify (fun _ => rfl) ?_
        intro e o g he hg
        obtain ⟨rfl, rfl⟩ | ⟨-, hg⟩ := Map.lookup_insert_eq_some.1 hg
        · exact hfacts
        · exact hw.owner he hg
      exact hinserted.congr rfl rfl

end WellFormed

/-! ### What the operations leave -/

variable {policyAddress : Pubkey} {policy : GatePolicy}

/-- No other mint has the entry of a mint. -/
theorem WellFormed.lookup_ne (hw : s.WellFormed) (hid : s.mints.lookup mint = some id) (h : m ≠ mint) :
    s.mints.lookup m ≠ some id := by
  intro hm
  obtain ⟨e, he, hmint⟩ := hw.entry hid
  exact h ((hw.mint_eq hm he).trans hmint)

theorem WellFormed.forgetOwners_entryOf_ne (hw : s.WellFormed) (hid : s.mints.lookup mint = some id) (h : m ≠ mint) :
    (s.forgetOwners id).entryOf m = s.entryOf m := by
  rw [forgetOwners_entryOf, if_neg (hw.lookup_ne hid h)]

theorem WellFormed.setMint_entryOf_ne (hw : s.WellFormed) (h : m ≠ mint) :
    (s.setMint mint policyAddress policy).1.entryOf m = s.entryOf m := by
  unfold HolderIndex.setMint
  cases hid : s.mints.lookup mint with
  | some id =>
    dsimp only
    rw [entryOf_modify, forgetOwners_mints, if_neg (hw.lookup_ne hid h), hw.forgetOwners_entryOf_ne hid h]
  | none =>
    show ((s.mints.insert mint _).lookup m).bind _ = (s.mints.lookup m).bind _
    rw [AList.lookup_insert_ne h]
    cases hm : s.mints.lookup m with
    | none => rfl
    | some j =>
      obtain ⟨e, he, -⟩ := hw.entry hm
      obtain ⟨hlt, -⟩ := List.getElem?_eq_some_iff.1 he
      rw [Option.bind_some, Option.bind_some, List.getElem?_append_left hlt]

theorem setMint_owners (h : (s.setMint mint policyAddress policy).1.entryOf mint = some e) : e.owners = ∅ := by
  unfold HolderIndex.setMint at h
  cases hid : s.mints.lookup mint with
  | some id =>
    simp only [hid] at h
    rw [entryOf_modify, forgetOwners_mints, if_pos hid, forgetOwners_entryOf, if_pos hid, Option.map_map] at h
    obtain ⟨_, -, rfl⟩ := Option.map_eq_some_iff.1 h
    rfl
  | none =>
    simp only [hid] at h
    obtain ⟨j, hj, he⟩ := entryOf_eq_some.1 h
    rw [AList.lookup_insert] at hj
    obtain rfl := Option.some.inj hj
    rw [List.getElem?_concat_length] at he
    obtain rfl := Option.some.inj he
    rfl

theorem WellFormed.removeMint_entryOf_ne (hw : s.WellFormed) (h : m ≠ mint) :
    (s.removeMint mint).entryOf m = s.entryOf m := by
  unfold HolderIndex.removeMint
  cases hid : s.mints.lookup mint with
  | none => rfl
  | some id =>
    refine Eq.trans ?_ (hw.forgetOwners_entryOf_ne hid h)
    show ((s.mints.erase mint).lookup m).bind _ = ((s.forgetOwners id).mints.lookup m).bind _
    rw [AList.lookup_erase_ne h, forgetOwners_mints]

theorem removeMint_entryOf : (s.removeMint mint).entryOf mint = none := by
  unfold HolderIndex.removeMint
  cases hid : s.mints.lookup mint with
  | none =>
    dsimp only
    rw [entryOf, hid, Option.bind_none]
  | some id =>
    show ((s.mints.erase mint).lookup mint).bind _ = none
    rw [AList.lookup_erase, Option.bind_none]

/-- `settleOwner` where it inserts. -/
structure Settles (s : HolderIndex) (id : Nat) (owner : Pubkey) (e : MintEntry) : Prop where
  entry : s.entries[id]? = some e
  first : e.owners.lookup owner = none

namespace Settles

variable {facts : OwnerFacts}

theorem entryOf (h : s.Settles id owner e) (m : Pubkey) : (s.settleOwner id owner facts).entryOf m =
    if s.mints.lookup m = some id then (s.entryOf m).map fun e => { e with owners := e.owners.insert owner facts }
    else s.entryOf m := by
  unfold HolderIndex.settleOwner
  rw [h.entry]
  dsimp only
  rw [h.first]
  exact entryOf_modify s id _ m

theorem mem_dependents (h : s.Settles id owner e) {a : Pubkey} {p : Pubkey × Pubkey} :
    p ∈ (s.settleOwner id owner facts).dependents a ↔
      p ∈ s.dependents a ∨ facts.attestationPda = some a ∧ p = (e.mint, owner) := by
  unfold HolderIndex.settleOwner HolderIndex.dependents
  rw [h.entry]
  dsimp only
  rw [h.first]
  dsimp only
  cases hf : facts.attestationPda with
  | none => simp
  | some b =>
    obtain rfl | hab := eq_or_ne a b
    · simp [or_comm]
    · simp [update_of_ne hab, hab.symm]

end Settles

theorem settleOwner_of_known {facts g : OwnerFacts} (he : s.entries[id]? = some e) (hg : e.owners.lookup owner = some g) :
    s.settleOwner id owner facts = s := by
  unfold settleOwner
  rw [he]
  dsimp only
  rw [hg]

end HolderIndex

end ThawGate.Keeper
