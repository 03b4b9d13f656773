import ThawGate.Keeper.HolderRuns

/-!
# What the index says of a token account

Notifications, listings, direct reads and freeze confirmations write the same map, and none of them
carries its slot along: the last one applied stands. So the index has the state of the newest observation
wherever those of an account are applied in the order of their slots, and not otherwise.
-/

namespace ThawGate.Keeper

open Function

variable {d : Derivation}

/-- The slot an observation describes. -/
def Observation.slot : Observation → Nat
  | .notification slot .. | .listing slot _ | .read slot .. | .frozen slot .. => slot

/-- What an observation says of a token account, if anything: that it is there, or (`some none`) that it is
not. A read that finds no account says nothing. -/
def Observation.of (tokenAccount : Pubkey) : Observation → Option (Option TrackedAccount)
  | .notification _ ta account => if ta = tokenAccount then some (some account) else none
  | .listing _ accounts => some ((Map.insertAll ∅ accounts).lookup tokenAccount)
  | .read _ ta found => if ta = tokenAccount then found.map some else none
  | .frozen _ ta owner => if ta = tokenAccount then some (some ⟨owner, .frozen⟩) else none

/-- An observation of one token account: its slot and what it says. -/
def HolderLabel.sees (entry : Nat) (tokenAccount : Pubkey) : HolderLabel → Option (Nat × Option TrackedAccount)
  | .observed id o => if id = entry then (o.of tokenAccount).map fun account => (o.slot, account) else none
  | _ => none

/-- The observations of a token account that an entry was told, newest delivery first. -/
def seen (entry : Nat) (tokenAccount : Pubkey) (h : List HolderLabel) : List (Nat × Option TrackedAccount) :=
  h.filterMap (HolderLabel.sees entry tokenAccount)

/-- What an entry holds of a token account; `none` is absent. -/
def HolderIndex.accountOf (s : HolderIndex) (id : Nat) (tokenAccount : Pubkey) : Option TrackedAccount :=
  (s.entries[id]?).bind (·.accounts.lookup tokenAccount)

namespace HolderIndex

variable {s : HolderIndex} {id j : Nat} {f : MintEntry → MintEntry} {tokenAccount mint : Pubkey}

theorem accountOf_modify (hf : ∀ e, (f e).accounts = e.accounts) :
    (s.modify id f).accountOf j tokenAccount = s.accountOf j tokenAccount := by
  rw [accountOf, getElem?_modify_entries, Option.bind_map, accountOf]
  refine congrArg (Option.bind _) (funext fun e => ?_)
  show AList.lookup tokenAccount (if id = j then f e else e).accounts = e.accounts.lookup tokenAccount
  split_ifs
  · rw [hf]
  · rfl

theorem accountOf_forgetOwners : (s.forgetOwners id).accountOf j tokenAccount = s.accountOf j tokenAccount := by
  unfold forgetOwners
  split
  · rfl
  · exact accountOf_modify (s := s) fun _ => rfl

theorem accountOf_setMint {policyAddress : Pubkey} {policy : GatePolicy} :
    (s.setMint mint policyAddress policy).1.accountOf j tokenAccount = s.accountOf j tokenAccount := by
  unfold setMint
  split
  · dsimp only
    rw [accountOf_modify, accountOf_forgetOwners]
    exact fun _ => rfl
  · -- the new entry has no accounts
    rw [accountOf, accountOf]
    obtain hlt | hge := lt_or_ge j s.entries.length
    · rw [List.getElem?_append_left hlt]
    · rw [List.getElem?_append_right hge, List.getElem?_eq_none hge, List.getElem?_singleton]
      split_ifs
      · exact AList.lookup_empty tokenAccount
      · rfl

theorem accountOf_removeMint : (s.removeMint mint).accountOf j tokenAccount = s.accountOf j tokenAccount := by
  unfold removeMint
  split
  · rfl
  · exact accountOf_forgetOwners

theorem accountOf_settleOwner {owner : Pubkey} {facts : OwnerFacts} :
    (s.settleOwner id owner facts).accountOf j tokenAccount = s.accountOf j tokenAccount := by
  unfold settleOwner
  split
  · rfl
  · split
    · rfl
    · exact accountOf_modify (s := s) fun _ => rfl

theorem accountOf_upsertAccount {ta : Pubkey} {account : TrackedAccount} (hid : id < s.entries.length) :
    (s.upsertAccount id ta account).accountOf j tokenAccount =
      if id = j ∧ ta = tokenAccount then some account else s.accountOf j tokenAccount := by
  rw [upsertAccount, accountOf, getElem?_modify_entries, Option.bind_map, accountOf]
  obtain rfl | hj := eq_or_ne id j
  · rw [List.getElem?_eq_getElem hid]
    obtain rfl | hta := eq_or_ne ta tokenAccount
    · simp
    · simp [hta, AList.lookup_insert_ne hta.symm]
  · simp [hj]

/-- What an observation leaves: what it says, or what was there where it says nothing. -/
theorem accountOf_observe {o : Observation} (hid : id < s.entries.length) :
    (s.observe id o).accountOf j tokenAccount =
      if id = j then (o.of tokenAccount).getD (s.accountOf j tokenAccount) else s.accountOf j tokenAccount := by
  cases o with
  | notification slot ta account =>
    rw [observe, accountOf_upsertAccount hid, Observation.of]
    split_ifs <;> simp_all
  | listing slot accounts =>
    rw [observe, relist, accountOf, getElem?_modify_entries, Option.bind_map, accountOf, Observation.of]
    obtain rfl | hj := eq_or_ne id j
    · rw [List.getElem?_eq_getElem hid]
      simp
    · simp [hj]
  | read slot ta found =>
    cases found with
    | none => simp [observe, Observation.of]
    | some account =>
      rw [observe, accountOf_upsertAccount hid, Observation.of]
      split_ifs <;> simp_all
  | frozen slot ta owner =>
    rw [observe, accountOf_upsertAccount hid, Observation.of]
    split_ifs <;> simp_all

end HolderIndex

/-! ### Runs -/

variable {s s' : Holders} {h : List HolderLabel} {label : HolderLabel} {entry : Nat} {tokenAccount : Pubkey}

theorem seen_cons : seen entry tokenAccount (label :: h) =
    (label.sees entry tokenAccount).toList ++ seen entry tokenAccount h := by
  rw [seen, List.filterMap_cons]
  cases label.sees entry tokenAccount <;> rfl

/-- An observation is received by an entry that exists. -/
theorem HolderIndex.Receives.lt {s : HolderIndex} (hw : s.WellFormed) {o : Observation} (h : s.Receives entry o) :
    entry < s.entries.length := by
  cases o with
  | notification slot ta account =>
    obtain ⟨mint, hid⟩ := h
    obtain ⟨e, he, -⟩ := hw.entry hid
    exact (List.getElem?_eq_some_iff.1 he).1
  | _ => exact h

theorem accountOf_reload {s : HolderIndex} {policyAddress : Pubkey} {policy : GatePolicy} :
    (s.reload policyAddress policy).accountOf entry tokenAccount = s.accountOf entry tokenAccount := by
  unfold HolderIndex.reload
  split
  · exact HolderIndex.accountOf_setMint
  · split_ifs
    · rfl
    · exact HolderIndex.accountOf_setMint

theorem accountOf_startOwner {mint owner : Pubkey} :
    (s.startOwner d mint owner).index.accountOf entry tokenAccount = s.index.accountOf entry tokenAccount := by
  unfold Holders.startOwner
  split
  · rfl
  · split
    · rfl
    · split_ifs
      · rfl
      · exact HolderIndex.accountOf_settleOwner
      · rfl

theorem accountOf_resumeOwner {i : Nat} :
    (s.resumeOwner d i).index.accountOf entry tokenAccount = s.index.accountOf entry tokenAccount := by
  unfold Holders.resumeOwner
  split
  · rfl
  · split
    · rfl
    · split
      · rfl
      · exact HolderIndex.accountOf_settleOwner

/-- **Step.** What the entry is told of the account replaces what it holds; nothing else touches it. -/
theorem accountOf_step (hw : s.index.WellFormed) (hs : (holders d).step s label s') :
    s'.index.accountOf entry tokenAccount =
      ((label.sees entry tokenAccount).map Prod.snd).getD (s.index.accountOf entry tokenAccount) := by
  cases hs with
  | setMint => exact HolderIndex.accountOf_setMint
  | reload => exact accountOf_reload
  | removeMint => exact HolderIndex.accountOf_removeMint
  | owner => exact accountOf_startOwner
  | resume => exact accountOf_resumeOwner
  | observed id o hreceives =>
    rw [HolderIndex.accountOf_observe (hreceives.lt hw), HolderLabel.sees]
    split_ifs
    · rw [Option.map_map]
      show _ = (Option.map (fun account => account) _).getD _
      rw [Option.map_id']
    · rfl

/-- **Run.** An entry holds of a token account what it was told last, and nothing if it was told nothing. -/
theorem accountOf_run (r : (holders d).Run h s) :
    s.index.accountOf entry tokenAccount = (seen entry tokenAccount h).head?.bind Prod.snd := by
  refine r.invariant
    (I := fun h s => s.index.accountOf entry tokenAccount = (seen entry tokenAccount h).head?.bind Prod.snd) ?_ ?_
  · intro s hs
    rw [show s = _ from hs]
    rfl
  · intro h s label s' r ih hs
    rw [accountOf_step (wellFormed_of_reachable ⟨h, r⟩) hs, seen_cons]
    cases label.sees entry tokenAccount with
    | none => exact ih
    | some o => rfl

/-- A sweep checks exactly the owners of the accounts that were last told to be thawed. -/
theorem mem_ownersWithThawedAccounts_run (r : (holders d).Run h s) {e : MintEntry} (he : s.index.entries[entry]? = some e)
    {owner : Pubkey} : owner ∈ e.ownersWithThawedAccounts ↔
      ∃ tokenAccount, (seen entry tokenAccount h).head?.bind Prod.snd = some ⟨owner, .initialized⟩ := by
  rw [MintEntry.mem_ownersWithThawedAccounts]
  refine exists_congr fun tokenAccount => ?_
  rw [MintEntry.mem_thawedAccounts, ← accountOf_run r, HolderIndex.accountOf, he, Option.bind_some]

/-- The observations of the account came in the order of their slots. -/
def InOrder (l : List (Nat × Option TrackedAccount)) : Prop := l.Pairwise fun newer older => older.1 ≤ newer.1

/-- **Observations.** The state of a token account is that of the last observation of it; where they come in
the order of their slots, that is the newest. -/
theorem accountOf_newest (r : (holders d).Run h s) :
    s.index.accountOf entry tokenAccount = (seen entry tokenAccount h).head?.bind Prod.snd ∧
      (seen entry tokenAccount h ≠ [] → InOrder (seen entry tokenAccount h) →
        ∃ newest ∈ seen entry tokenAccount h, (∀ o ∈ seen entry tokenAccount h, o.1 ≤ newest.1) ∧
          s.index.accountOf entry tokenAccount = newest.2) := by
  have hlast : s.index.accountOf entry tokenAccount = _ := accountOf_run r
  refine ⟨hlast, ?_⟩
  intro hne horder
  obtain ⟨newest, older, hseen⟩ := List.exists_cons_of_ne_nil hne
  rw [hseen] at hlast horder ⊢
  refine ⟨newest, List.mem_cons_self, ?_, hlast⟩
  intro o ho
  obtain rfl | ho := List.mem_cons.1 ho
  · exact Nat.le_refl _
  · exact List.rel_of_pairwise_cons horder ho

/-! ### A thaw that a listing undoes -/

/-- Mint 2 is loaded with account 6 of wallet 5 frozen at slot 9, and the account is thawed at slot 11. -/
def thawed : List HolderLabel :=
  [.observed 0 (.notification 11 (sampleKey 6) ⟨sampleKey 5, .initialized⟩),
    .observed 0 (.listing 9 [(sampleKey 6, ⟨sampleKey 5, .frozen⟩)]),
    .reload (sampleKey 3) ⟨sampleKey 2, sampleKey 1, sssTokenId, true, .off, false, .default, .default, 0⟩]

theorem thawed_run (d : Derivation) : ∃ s, (holders d).Run thawed s ∧ s.index.mints.lookup (sampleKey 2) = some 0 ∧
    0 < s.index.entries.length := by
  have r₀ : (holders d).Run [] ⟨⟨[], ∅, fun _ => ∅⟩, []⟩ := .start rfl
  have r₁ := r₀.step (HolderStep.reload _ (sampleKey 3)
    ⟨sampleKey 2, sampleKey 1, sssTokenId, true, .off, false, .default, .default, 0⟩)
  have r₂ := r₁.step (HolderStep.observed _ 0 (.listing 9 [(sampleKey 6, ⟨sampleKey 5, .frozen⟩)])
    (Nat.lt_succ_self 0))
  have r₃ := r₂.step (HolderStep.observed _ 0 (.notification 11 (sampleKey 6) ⟨sampleKey 5, .initialized⟩)
    ⟨sampleKey 2, by decide +kernel⟩)
  exact ⟨_, r₃, by decide +kernel, by decide +kernel⟩

theorem accountOf_newest_thawed : ∃ s, (holders ⟨fun _ _ => .default, fun _ => false⟩).Run thawed s ∧
    ∃ newest ∈ seen 0 (sampleKey 6) thawed, (∀ o ∈ seen 0 (sampleKey 6) thawed, o.1 ≤ newest.1) ∧
      s.index.accountOf 0 (sampleKey 6) = newest.2 := by
  obtain ⟨s, r, -⟩ := thawed_run ⟨fun _ _ => .default, fun _ => false⟩
  exact ⟨s, r, (accountOf_newest r).2 (by decide +kernel) (by unfold InOrder; decide +kernel)⟩

/-- A listing taken at slot 10 arrives after the notification of slot 11, and the account counts as frozen. -/
theorem listing_undoes_thaw : ∃ (d : Derivation) (h : List HolderLabel) (s : Holders) (newest : Nat × Option TrackedAccount),
    (holders d).Run h s ∧ newest ∈ seen 0 (sampleKey 6) h ∧
      (∀ o ∈ seen 0 (sampleKey 6) h, o = newest ∨ o.1 < newest.1) ∧
      newest.2 = some ⟨sampleKey 5, .initialized⟩ ∧
      s.index.accountOf 0 (sampleKey 6) = some ⟨sampleKey 5, .frozen⟩ := by
  obtain ⟨s, r, -, hlt⟩ := thawed_run ⟨fun _ _ => .default, fun _ => false⟩
  have r' := r.step (HolderStep.observed _ 0 (.listing 10 [(sampleKey 6, ⟨sampleKey 5, .frozen⟩)]) hlt)
  refine ⟨_, _, _, (11, some ⟨sampleKey 5, .initialized⟩), r', by decide +kernel, by decide +kernel, rfl, ?_⟩
  have hlisted : (Observation.listing 10 [(sampleKey 6, ⟨sampleKey 5, .frozen⟩)]).of (sampleKey 6) =
      some (some ⟨sampleKey 5, .frozen⟩) := by decide +kernel
  rw [HolderIndex.accountOf_observe hlt, if_pos rfl, hlisted, Option.getD_some]

/-- The account is closed, and a read at slot 12, later than all else, finds none. It still counts as thawed. -/
theorem closed_account_stays : ∃ (d : Derivation) (h : List HolderLabel) (s : Holders),
    (holders d).Run (.observed 0 (.read 12 (sampleKey 6) none) :: h) s ∧
      (∀ o ∈ seen 0 (sampleKey 6) h, o.1 < 12) ∧
      s.index.accountOf 0 (sampleKey 6) = some ⟨sampleKey 5, .initialized⟩ := by
  obtain ⟨s, r, -, hlt⟩ := thawed_run ⟨fun _ _ => .default, fun _ => false⟩
  have r' := r.step (HolderStep.observed _ 0 (.read 12 (sampleKey 6) none) hlt)
  refine ⟨_, _, _, r', by decide +kernel, ?_⟩
  rw [accountOf_run r']
  decide +kernel

end ThawGate.Keeper
