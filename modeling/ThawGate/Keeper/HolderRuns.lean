import ThawGate.Keeper.Holders
import ThawGate.Lib.Run

/-!
# The holder index over time

Policies come and go, token accounts are observed, and checks ask for the facts of owners. `owner` waits
for each address it derives, so the rest happens while it waits. What a check reads into the facts is left
out: the addresses are all that the index itself goes by.
-/

namespace ThawGate.Keeper

open Function

/-! ### The system -/

/-- What the index is told of token accounts, with the slot it describes. -/
inductive Observation where
  /-- `onTokenAccount` -/
  | notification (slot : Nat) (tokenAccount : Pubkey) (account : TrackedAccount)
  /-- The answer to `loadMint`'s `getProgramAccounts`. -/
  | listing (slot : Nat) (accounts : List (Pubkey × TrackedAccount))
  /-- What a check read of one account; `none` where there is no token account. -/
  | read (slot : Nat) (tokenAccount : Pubkey) (found : Option TrackedAccount)
  /-- A freeze that the freezer confirmed, or found done. -/
  | frozen (slot : Nat) (tokenAccount : Pubkey) (owner : Pubkey)
  deriving DecidableEq

/-- The index after an observation. None of them looks at the slot. -/
def HolderIndex.observe (s : HolderIndex) (id : Nat) : Observation → HolderIndex
  | .notification _ tokenAccount account => s.upsertAccount id tokenAccount account
  | .listing _ accounts => s.relist id accounts
  | .read _ tokenAccount found =>
    match found with
    | some account => s.upsertAccount id tokenAccount account
    | none => s
  | .frozen _ tokenAccount owner => s.upsertAccount id tokenAccount ⟨owner, .frozen⟩

/-- A call of `owner` that waits: what it was called with, the policy it read, and how many derivations it
still awaits. -/
structure OwnerCall where
  entry : Nat
  owner : Pubkey
  policy : GatePolicy
  awaits : Nat
  deriving DecidableEq

structure Holders where
  index : HolderIndex
  calls : List OwnerCall

variable (d : Derivation)

/-- The facts that a call comes back with. -/
def OwnerCall.facts (c : OwnerCall) (e : MintEntry) : OwnerFacts := d.facts c.policy e.mint c.owner

/-- `owner` up to its first await: known facts are returned, and without an address to derive it does not
wait. -/
def Holders.startOwner (s : Holders) (mint owner : Pubkey) : Holders :=
  match s.index.mints.lookup mint with
  | none => s
  | some id =>
    match s.index.entries[id]? with
    | none => s
    | some e =>
      if (e.owners.lookup owner).isSome then s
      else if e.policy.derivations = 0 then
        { s with index := s.index.settleOwner id owner (d.facts e.policy e.mint owner) }
      else { s with calls := s.calls ++ [⟨id, owner, e.policy, e.policy.derivations⟩] }

/-- One derivation of a call is done; the last one ends it. -/
def Holders.resumeOwner (s : Holders) (i : Nat) : Holders :=
  match s.calls[i]? with
  | none => s
  | some c =>
    if 1 < c.awaits then { s with calls := s.calls.set i { c with awaits := c.awaits - 1 } }
    else
      match s.index.entries[c.entry]? with
      | none => s
      | some e =>
        { index := s.index.settleOwner c.entry c.owner (c.facts d e)
          calls := s.calls.eraseIdx i }

/-- `loadMint` up to its listing: the policy is set only where it changed. -/
def HolderIndex.reload (s : HolderIndex) (policyAddress : Pubkey) (policy : GatePolicy) : HolderIndex :=
  match s.entryOf policy.mint with
  | none => (s.setMint policy.mint policyAddress policy).1
  | some e => if e.policy = policy then s else (s.setMint policy.mint policyAddress policy).1

inductive HolderLabel where
  | setMint (mint policyAddress : Pubkey) (policy : GatePolicy)
  | reload (policyAddress : Pubkey) (policy : GatePolicy)
  | removeMint (mint : Pubkey)
  /-- A check asks for the facts of an owner. -/
  | owner (mint owner : Pubkey)
  | resume (call : Nat)
  | observed (entry : Nat) (o : Observation)
  deriving DecidableEq

/-- A notification finds its entry through the map; the other observations come back to the entry that
their caller holds. -/
def HolderIndex.Receives (s : HolderIndex) (id : Nat) : Observation → Prop
  | .notification .. => ∃ mint, s.mints.lookup mint = some id
  | _ => id < s.entries.length

inductive HolderStep (d : Derivation) : Holders → HolderLabel → Holders → Prop
  | setMint (s : Holders) (mint policyAddress : Pubkey) (policy : GatePolicy) :
    HolderStep d s (.setMint mint policyAddress policy)
      { s with index := (s.index.setMint mint policyAddress policy).1 }
  | reload (s : Holders) (policyAddress : Pubkey) (policy : GatePolicy) :
    HolderStep d s (.reload policyAddress policy) { s with index := s.index.reload policyAddress policy }
  | removeMint (s : Holders) (mint : Pubkey) :
    HolderStep d s (.removeMint mint) { s with index := s.index.removeMint mint }
  | owner (s : Holders) (mint owner : Pubkey) : HolderStep d s (.owner mint owner) (s.startOwner d mint owner)
  | resume (s : Holders) (i : Nat) : HolderStep d s (.resume i) (s.resumeOwner d i)
  | observed (s : Holders) (entry : Nat) (o : Observation)
    (h : s.index.Receives entry o) :
    HolderStep d s (.observed entry o) { s with index := s.index.observe entry o }

def holders : Lts Holders HolderLabel where
  start s := s = ⟨⟨[], ∅, fun _ => ∅⟩, []⟩
  step := HolderStep d

/-! ### Well-formedness -/

section

variable {d : Derivation} {s : Holders}

theorem Holders.wellFormed_resumeOwner (hw : s.index.WellFormed) (i : Nat) : (s.resumeOwner d i).index.WellFormed := by
  unfold Holders.resumeOwner
  split
  · exact hw
  · split
    · exact hw
    · split
      · exact hw
      · exact hw.settleOwner rfl

theorem Holders.wellFormed_startOwner (hw : s.index.WellFormed) (mint owner : Pubkey) :
    (s.startOwner d mint owner).index.WellFormed := by
  unfold Holders.startOwner
  split
  · exact hw
  · split
    · exact hw
    · split_ifs
      · exact hw
      · exact hw.settleOwner rfl
      · exact hw

theorem HolderIndex.WellFormed.reload {s : HolderIndex} (hw : s.WellFormed) (policyAddress : Pubkey)
    (policy : GatePolicy) : (s.reload policyAddress policy).WellFormed := by
  unfold HolderIndex.reload
  split
  · exact hw.setMint
  · split_ifs
    · exact hw
    · exact hw.setMint

theorem HolderIndex.WellFormed.observe {s : HolderIndex} (hw : s.WellFormed) (id : Nat) (o : Observation) :
    (s.observe id o).WellFormed := by
  cases o with
  | read slot tokenAccount found =>
    cases found with
    | some account => exact hw.modify_accounts (fun _ => rfl) fun _ => rfl
    | none => exact hw
  | _ => exact hw.modify_accounts (fun _ => rfl) fun _ => rfl

theorem wellFormed_of_reachable (r : (holders d).Reachable s) : s.index.WellFormed := by
  refine r.invariant (I := fun s => s.index.WellFormed) ?_ ?_
  · intro s hs
    rw [hs]
    exact .empty
  · intro s label s' hw hs
    cases hs with
    | setMint => exact hw.setMint
    | reload => exact hw.reload _ _
    | removeMint => exact hw.removeMint
    | owner => exact Holders.wellFormed_startOwner hw _ _
    | resume i => exact Holders.wellFormed_resumeOwner hw i
    | observed => exact hw.observe _ _

end

end ThawGate.Keeper
