import ThawGate.Screener.Machine

/-!
# What the screener tracks

`track` gives every wallet of a read its holdings, under the object that it had or a new one (`track_cases`), and
nothing else changes what a wallet holds or which wallets there are (`Step.sameHoldings`). So a read has only mints
that it has seen as eligible, and a wallet has an account on each mint it holds (`grounded_of_run`).
-/

namespace ThawGate.Screener

open Function
open Keeper (EntryRead)

/-! ### Reading the keeper -/

theorem tokenAccount_isSome {accounts : List KeeperAccount} : (tokenAccount accounts).isSome ↔ accounts ≠ [] := by
  cases accounts with
  | nil => simp [tokenAccount]
  | cons a accounts =>
    simp only [tokenAccount, List.head?_cons, Option.isSome_map, Option.isSome_or]
    simp

theorem addAccounts_lookup {mint m wallet : Pubkey} {accounts l : List KeeperAccount} {byWallet : Map Pubkey Holdings}
    {perMint : Holdings} (hw : (addAccounts mint byWallet accounts).lookup wallet = some perMint)
    (hm : perMint.lookup m = some l) :
    (m = mint ∧ l ≠ []) ∨ ∃ perMint, byWallet.lookup wallet = some perMint ∧ perMint.lookup m = some l := by
  induction accounts generalizing byWallet with
  | nil => exact .inr ⟨perMint, hw, hm⟩
  | cons a accounts ih =>
    obtain h | ⟨pm, hpm, hl⟩ := ih hw
    · exact .inl h
    · obtain ⟨rfl, rfl⟩ | ⟨-, hpm⟩ := Map.lookup_insert_eq_some.1 hpm
      · obtain ⟨rfl, rfl⟩ | ⟨-, hl⟩ := Map.lookup_insert_eq_some.1 hl
        · exact .inl ⟨rfl, by simp⟩
        · cases hold : byWallet.lookup a.owner with
          | none =>
            rw [hold, Option.getD_none, AList.lookup_empty] at hl
            contradiction
          | some old =>
            rw [hold, Option.getD_some] at hl
            exact .inr ⟨old, rfl, hl⟩
      · exact .inr ⟨pm, hpm, hl⟩

/-! ### `track` -/

namespace State

variable {s : State} {wallet w : Pubkey} {perMint : Holdings} {id : Nat}

/-- How a tracked wallet came to its object: it is the one it had with new holdings, or a new one. -/
def Takes (s s' : State) (wallet : Pubkey) (id : Nat) (perMint : Holdings) : Prop :=
  s.wallets.lookup wallet = some id ∧ s'.object ⟨wallet, id⟩ = { s.object ⟨wallet, id⟩ with holdings := perMint } ∨
    s.wallets.lookup wallet = none ∧ s.created ≤ id ∧ id < s'.created ∧ s'.object ⟨wallet, id⟩ = .new perMint

theorem trackOne_created : s.created ≤ (s.trackOne wallet perMint).created := by
  unfold trackOne
  split
  · exact le_rfl
  · exact Nat.le_succ _

theorem trackOne_ne (s : State) (perMint : Holdings) (id : Nat) (h : w ≠ wallet) :
    (s.trackOne wallet perMint).wallets.lookup w = s.wallets.lookup w ∧
    (s.trackOne wallet perMint).object ⟨w, id⟩ = s.object ⟨w, id⟩ := by
  have href (j : Nat) : (⟨w, id⟩ : Ref) ≠ ⟨wallet, j⟩ := fun heq => h (Ref.mk.inj heq).1
  unfold trackOne
  split
  · rename_i ref href'
    obtain ⟨j, -, rfl⟩ := Option.map_eq_some_iff.1 href'
    exact ⟨rfl, update_of_ne (href j) _ _⟩
  · exact ⟨AList.lookup_insert_ne h, update_of_ne (href _) _ _⟩

theorem trackOne_self (s : State) (wallet : Pubkey) (perMint : Holdings)
    (h : (s.trackOne wallet perMint).wallets.lookup wallet = some id) :
    s.Takes (s.trackOne wallet perMint) wallet id perMint := by
  unfold Takes
  unfold trackOne at *
  split at h
  · rename_i ref href
    obtain ⟨j, hj, rfl⟩ := Option.map_eq_some_iff.1 href
    have hid : s.wallets.lookup wallet = some id := h
    obtain rfl := Option.some.inj (hj.symm.trans hid)
    exact .inl ⟨hj, update_self _ _ _⟩
  · rename_i hnone
    rw [AList.lookup_insert] at h
    obtain rfl := Option.some.inj h
    exact .inr ⟨Option.map_eq_none_iff.1 hnone, le_rfl, Nat.lt_succ_self _, update_self _ _ _⟩

theorem foldl_trackOne_created (l : List (Σ _ : Pubkey, Holdings)) (s : State) :
    s.created ≤ (l.foldl (fun s e => s.trackOne e.1 e.2) s).created := by
  induction l generalizing s with
  | nil => exact le_rfl
  | cons e l ih => exact trackOne_created.trans (ih _)

/-- A wallet that is not among them is left alone, one that is takes its holdings. -/
theorem foldl_trackOne (l : List (Σ _ : Pubkey, Holdings)) (hl : l.NodupKeys) (s : State) (id : Nat)
    (h : (l.foldl (fun s e => s.trackOne e.1 e.2) s).wallets.lookup w = some id) :
    match l.dlookup w with
    | none => s.wallets.lookup w = some id ∧ (l.foldl (fun s e => s.trackOne e.1 e.2) s).object ⟨w, id⟩ = s.object ⟨w, id⟩
    | some perMint => s.Takes (l.foldl (fun s e => s.trackOne e.1 e.2) s) w id perMint := by
  induction l generalizing s with
  | nil => exact ⟨h, rfl⟩
  | cons e l ih =>
    obtain ⟨wallet, perMint⟩ := e
    rw [List.nodupKeys_cons] at hl
    have hrest := ih hl.2 (s.trackOne wallet perMint) h
    obtain rfl | hw := eq_or_ne w wallet
    · rw [List.dlookup_eq_none.2 hl.1] at hrest
      rw [List.dlookup_cons_eq]
      obtain ⟨hid, hobject⟩ := hrest
      obtain ⟨hold, hnew⟩ | ⟨hnone, hge, hlt, hnew⟩ := trackOne_self s w perMint hid
      · exact .inl ⟨hold, hobject.trans hnew⟩
      · exact .inr ⟨hnone, hge, hlt.trans_le (foldl_trackOne_created _ _), hobject.trans hnew⟩
    · rw [List.dlookup_cons_ne _ _ hw]
      obtain ⟨hwallets, hobject⟩ := trackOne_ne s perMint id hw
      cases hd : l.dlookup w with
      | none =>
        simp only [hd] at hrest
        exact ⟨hwallets ▸ hrest.1, hrest.2.trans hobject⟩
      | some pm =>
        simp only [hd] at hrest
        obtain ⟨hold, hnew⟩ | ⟨hnone, hge, hlt, hnew⟩ := hrest
        · exact .inl ⟨hwallets ▸ hold, hnew.trans (hobject ▸ rfl)⟩
        · exact .inr ⟨hwallets ▸ hnone, trackOne_created.trans hge, hlt, hnew⟩

/-- The wallets after `track` are those of the read. -/
theorem track_cases {byWallet : Map Pubkey Holdings} (h : (s.track byWallet).wallets.lookup wallet = some id) :
    ∃ perMint, byWallet.lookup wallet = some perMint ∧ s.Takes (s.track byWallet) wallet id perMint := by
  have hkept := Map.lookup_retain.symm.trans h
  split_ifs at hkept with hin
  have hfold := foldl_trackOne _ byWallet.nodupKeys s id hkept
  obtain ⟨perMint, hperMint⟩ := Option.isSome_iff_exists.1 hin
  have hd : byWallet.entries.dlookup wallet = some perMint := hperMint
  rw [hd] at hfold
  exact ⟨perMint, hperMint, hfold⟩

theorem track_created {byWallet : Map Pubkey Holdings} : s.created ≤ (s.track byWallet).created :=
  foldl_trackOne_created _ s

theorem foldl_trackOne_eq (l : List (Σ _ : Pubkey, Holdings)) (s : State) :
    ∃ wallets object created,
      l.foldl (fun s e => s.trackOne e.1 e.2) s = { s with wallets, object, created } := by
  induction l generalizing s with
  | nil => exact ⟨_, _, _, rfl⟩
  | cons e l ih =>
    obtain ⟨wallets, object, created, h⟩ := ih (s.trackOne e.1 e.2)
    refine ⟨wallets, object, created, h.trans ?_⟩
    unfold trackOne
    split <;> rfl

/-- `track` leaves the rest of the state. -/
theorem track_eq (s : State) (byWallet : Map Pubkey Holdings) :
    ∃ wallets object created, s.track byWallet = { s with wallets, object, created } := by
  obtain ⟨wallets, object, created, h⟩ := foldl_trackOne_eq byWallet.entries s
  refine ⟨wallets.retain fun wallet => (byWallet.lookup wallet).isSome, object, created, ?_⟩
  unfold track
  rw [h]

theorem accountOf_isSome {pair : Pair} : (s.accountOf pair).isSome ↔
    ∃ id accounts, s.wallets.lookup pair.wallet = some id ∧
      (s.object ⟨pair.wallet, id⟩).holdings.lookup pair.mint = some accounts ∧ accounts ≠ [] := by
  rw [accountOf, tokenAccount_isSome, walletOf]
  cases hid : s.wallets.lookup pair.wallet with
  | none => simp
  | some id =>
    cases hl : (s.object ⟨pair.wallet, id⟩).holdings.lookup pair.mint with
    | none => simp [hl]
    | some accounts => simp [hl]

end State

/-! ### What a step leaves -/

/-- Wallets, and what they hold, are what they were. -/
structure SameHoldings (s s' : State) : Prop where
  wallets : s'.wallets = s.wallets
  created : s'.created = s.created
  holdings : ∀ ref, (s'.object ref).holdings = (s.object ref).holdings

namespace SameHoldings

variable {s s' : State}

theorem refl : SameHoldings s s := ⟨rfl, rfl, fun _ => rfl⟩

/-- A change of one object that leaves its holdings. -/
theorem modify (hwallets : s'.wallets = s.wallets) (hcreated : s'.created = s.created) (ref : Ref) (w : WalletState)
    (hobject : s'.object = update s.object ref w) (hw : w.holdings = (s.object ref).holdings) : SameHoldings s s' := by
  refine ⟨hwallets, hcreated, ?_⟩
  intro r
  rw [hobject]
  obtain rfl | h := eq_or_ne r ref
  · rw [update_self, hw]
  · rw [update_of_ne h]

end SameHoldings

/-- What the end of a send leaves. -/
structure Settles (s s' : State) : Prop extends SameHoldings s s' where
  now : s'.now = s.now
  version : s'.version = s.version
  registry : s'.registry = s.registry
  screenings : s'.screenings = s.screenings
  sends : s'.outbox.sends = s.outbox.sends
  pending : ∀ {pair : Pair} {p : Pending},
    s'.outbox.pending.lookup pair = some p → s.outbox.pending.lookup pair = some p
  phase : s'.phase = s.phase ∨ s'.phase = .idle
  eligible : ∀ {mint : Pubkey}, s'.Eligible mint → s.Eligible mint

theorem State.settles (s : State) (x : Send) (outcome : Option SendOutcome) : Settles s (s.settle x outcome) := by
  have hdelete {pair : Pair} {p : Pending} (h : (s.outbox.delete x.request.pair).pending.lookup pair = some p) :
      s.outbox.pending.lookup pair = some p := (Map.lookup_erase_eq_some.1 h).2
  unfold State.settle
  split
  · split_ifs
    · exact ⟨⟨rfl, rfl, fun _ => rfl⟩, rfl, rfl, rfl, rfl, rfl, id, .inr rfl, id⟩
    · exact ⟨.refl, rfl, rfl, rfl, rfl, rfl, id, .inl rfl, id⟩
  · exact ⟨⟨rfl, rfl, fun _ => rfl⟩, rfl, rfl, rfl, rfl, rfl, hdelete, .inl rfl, id⟩
  · exact ⟨⟨rfl, rfl, fun _ => rfl⟩, rfl, rfl, rfl, rfl, rfl, hdelete, .inl rfl, id⟩
  · refine ⟨⟨rfl, rfl, fun _ => rfl⟩, rfl, rfl, rfl, rfl, rfl, hdelete, .inl rfl, ?_⟩
    intro mint hok
    unfold State.Eligible at *
    obtain rfl | hne := eq_or_ne mint x.request.pair.mint
    · rw [AList.lookup_insert] at hok
      contradiction
    · rwa [AList.lookup_insert_ne hne] at hok
  all_goals
    split_ifs
    · dsimp only
      split
      · exact ⟨.modify rfl rfl _ _ rfl rfl, rfl, rfl, rfl, rfl, rfl, hdelete, .inl rfl, id⟩
      · exact ⟨⟨rfl, rfl, fun _ => rfl⟩, rfl, rfl, rfl, rfl, rfl, hdelete, .inl rfl, id⟩
    · exact ⟨.refl, rfl, rfl, rfl, rfl, rfl, id, .inl rfl, id⟩

variable {cfg : Config} {s s' : State} {label : Label}

/-- Only `track` changes wallets and holdings. -/
theorem Step.sameHoldings (hs : Step cfg s label s') (h : ∀ seen, label ≠ .tracked seen) : SameHoldings s s' := by
  cases hs with
  | tracked => exact absurd rfl (h _)
  | flushed p todo hphase hsends =>
    unfold State.flushOne
    dsimp only
    split
    · exact ⟨rfl, rfl, fun _ => rfl⟩
    · exact ⟨rfl, rfl, fun _ => rfl⟩
  | dueTaken hphase hsends =>
    refine ⟨rfl, rfl, ?_⟩
    intro ref
    show (if _ then _ else _ : WalletState).holdings = _
    split_ifs <;> rfl
  | asked t i ht hw =>
    unfold State.ask
    dsimp only
    split_ifs
    · exact .modify rfl rfl _ _ rfl rfl
    · exact ⟨rfl, rfl, fun _ => rfl⟩
  | verdict t open_ i score reason ht hw => exact .modify rfl rfl _ _ rfl rfl
  | providerFailed t open_ i ht hw => exact .modify rfl rfl _ _ rfl rfl
  | answered x i a hx ha =>
    have hkept := (s.arrived i).settles x a.outcome
    exact ⟨hkept.wallets, hkept.created, hkept.holdings⟩
  | _ => exact ⟨rfl, rfl, fun _ => rfl⟩

/-! ### What a wallet holds was read -/

/-- The mints of a read were seen as eligible, and those of a read and those that wallets hold have accounts. -/
structure Grounded (s : State) : Prop where
  read : ∀ {todo : List KeeperMint} {seen : List (Pubkey × Bool)} {byWallet : Map Pubkey Holdings} {wallet mint : Pubkey}
    {perMint : Holdings} {accounts : List KeeperAccount}, s.phase = .reading todo seen byWallet →
    byWallet.lookup wallet = some perMint → perMint.lookup mint = some accounts → accounts ≠ [] ∧ (mint, true) ∈ seen
  held : ∀ {wallet mint : Pubkey} {id : Nat} {accounts : List KeeperAccount}, s.wallets.lookup wallet = some id →
    (s.object ⟨wallet, id⟩).holdings.lookup mint = some accounts → accounts ≠ []

/-- A step that does not track, and does not read the keeper. -/
theorem Grounded.same (hg : Grounded s) (hk : SameHoldings s s')
    (hphase : ∀ todo seen byWallet, s'.phase = .reading todo seen byWallet → s.phase = .reading todo seen byWallet) :
    Grounded s' := by
  refine ⟨?_, ?_⟩
  · intro todo seen byWallet wallet mint perMint accounts hread
    exact hg.read (hphase _ _ _ hread)
  · intro wallet mint id accounts hid hmint
    rw [hk.wallets] at hid
    rw [hk.holdings] at hmint
    exact hg.held hid hmint

/-- A step that reads the keeper on. -/
theorem Grounded.reading (hg : Grounded s) (hk : SameHoldings s s') {todo : List KeeperMint}
    {seen : List (Pubkey × Bool)} {byWallet : Map Pubkey Holdings} (hphase : s'.phase = .reading todo seen byWallet)
    (hread : ∀ {wallet mint : Pubkey} {perMint : Holdings} {accounts : List KeeperAccount},
      byWallet.lookup wallet = some perMint → perMint.lookup mint = some accounts →
        accounts ≠ [] ∧ (mint, true) ∈ seen) : Grounded s' := by
  refine ⟨?_, ?_⟩
  · intro todo' seen' byWallet' wallet mint perMint accounts hphase'
    obtain ⟨-, rfl, rfl⟩ := Phase.reading.inj (hphase.symm.trans hphase')
    exact hread
  · intro wallet mint id accounts hid hmint
    rw [hk.wallets] at hid
    rw [hk.holdings] at hmint
    exact hg.held hid hmint

theorem Grounded.tracked (hg : Grounded s) {seen : List (Pubkey × Bool)} {byWallet : Map Pubkey Holdings}
    (hphase : s.phase = .reading [] seen byWallet) : Grounded (s.tracked seen byWallet) := by
  refine ⟨nofun, ?_⟩
  intro wallet mint id accounts hid hmint
  obtain ⟨perMint, hperMint, ht⟩ := State.track_cases hid
  have hholdings : ((s.tracked seen byWallet).object ⟨wallet, id⟩).holdings = perMint := by
    obtain ⟨-, heq⟩ | ⟨-, -, -, heq⟩ := ht
    · exact congrArg WalletState.holdings heq
    · exact congrArg WalletState.holdings heq
  rw [hholdings] at hmint
  exact (hg.read hphase hperMint hmint).1

/-- **Step.** -/
theorem Grounded.step (hg : Grounded s) (hs : Step cfg s label s') : Grounded s' := by
  have hsame := hs.sameHoldings
  cases hs with
  | tracked seen byWallet hphase => exact hg.tracked hphase
  | polled mints hphase =>
    refine hg.reading (hsame nofun) rfl ?_
    intro wallet mint perMint accounts hw
    rw [AList.lookup_empty] at hw
    contradiction
  | skippedMint m todo seen byWallet eligible role hphase hm =>
    refine hg.reading (hsame nofun) rfl ?_
    intro wallet mint perMint accounts hw hl
    exact (hg.read hphase hw hl).imp_right (List.mem_cons_of_mem _)
  | readMint m todo seen byWallet eligible role accounts hphase hm =>
    refine hg.reading (hsame nofun) rfl ?_
    intro wallet mint perMint l hw hl
    obtain ⟨rfl, hne⟩ | ⟨old, hold, hl⟩ := addAccounts_lookup hw hl
    · exact ⟨hne, List.mem_cons_self⟩
    · exact (hg.read hphase hold hl).imp_right (List.mem_cons_of_mem _)
  | flushed p todo hphase hsends =>
    refine hg.same (hsame nofun) ?_
    unfold State.flushOne
    dsimp only
    split <;> exact nofun
  | dueTaken hphase hsends =>
    refine hg.same (hsame nofun) ?_
    unfold State.takeDue
    dsimp only
    split_ifs <;> exact nofun
  | asked t i ht hw =>
    refine hg.same (hsame nofun) ?_
    unfold State.ask
    dsimp only
    split_ifs <;> exact fun _ _ _ => id
  | answered x i a hx ha =>
    refine hg.same (hsame nofun) ?_
    intro todo seen byWallet hphase
    obtain hkept | hidle := ((s.arrived i).settles x a.outcome).phase
    · exact hkept.symm.trans hphase
    · rw [hidle] at hphase
      contradiction
  | tick => exact hg.same (hsame nofun) fun _ _ _ => id
  | versionChanged => exact hg.same (hsame nofun) fun _ _ _ => id
  | added => exact hg.same (hsame nofun) fun _ _ _ => id
  | removed => exact hg.same (hsame nofun) fun _ _ _ => id
  | keeperDown => exact hg.same (hsame nofun) fun _ _ _ => id
  | verdict => exact hg.same (hsame nofun) fun _ _ _ => id
  | providerFailed => exact hg.same (hsame nofun) fun _ _ _ => id
  | mintUnreadable => exact hg.same (hsame nofun) nofun
  | entryRead => exact hg.same (hsame nofun) nofun
  | entriesFailed => exact hg.same (hsame nofun) nofun
  | screensStarted => exact hg.same (hsame nofun) nofun
  | finished => exact hg.same (hsame nofun) nofun

/-- **Run.** -/
theorem grounded_of_run {h : List Label} (r : (screener cfg).Run h s) : Grounded s := by
  refine r.invariant (I := fun _ => Grounded) ?_ ?_
  · intro s ⟨now, version, registry, hs⟩
    subst hs
    refine ⟨nofun, ?_⟩
    intro wallet mint id accounts hid
    have hnone : (∅ : Map Pubkey Nat).lookup wallet = some id := hid
    rw [AList.lookup_empty] at hnone
    contradiction
  · exact fun h s label s' _ hg hs => hg.step hs

/-! ### Who is screened -/

/-- The wallets that are being screened, or will be in this poll. -/
def State.Screens (s : State) (ref : Ref) : Prop :=
  (∃ t ∈ s.screenings, t.ref = ref) ∨
    ∃ toScreen todo entryOf version, s.phase = .entries toScreen todo entryOf version ∧ ref ∈ toScreen

theorem State.Screens.same {ref : Ref} (h : s'.Screens ref)
    (hscreenings : ∀ t ∈ s'.screenings, ∃ t₀ ∈ s.screenings, t₀.ref = t.ref)
    (hphase : ∀ toScreen todo entryOf version, s'.phase = .entries toScreen todo entryOf version →
      ∃ todo entryOf, s.phase = .entries toScreen todo entryOf version) : s.Screens ref := by
  obtain ⟨t, ht, rfl⟩ | ⟨toScreen, todo, entryOf, version, hentries, href⟩ := h
  · exact .inl (hscreenings t ht)
  · obtain ⟨todo', entryOf', hentries'⟩ := hphase _ _ _ _ hentries
    exact .inr ⟨toScreen, todo', entryOf', version, hentries', href⟩

theorem mem_refs {ref : Ref} : ref ∈ s.refs ↔ s.wallets.lookup ref.wallet = some ref.id := by
  obtain ⟨wallet, id⟩ := ref
  rw [State.refs, List.mem_map]
  constructor
  · intro ⟨e, he, href⟩
    obtain ⟨rfl, rfl⟩ := Ref.mk.inj href
    exact AList.mem_lookup_iff.2 he
  · exact fun h => ⟨⟨wallet, id⟩, AList.mem_lookup_iff.1 h, rfl⟩

/-- Whom a step starts to screen is a wallet that is tracked, and not exempt. -/
theorem Step.screens {ref : Ref} (hs : Step cfg s label s') (h : s'.Screens ref) :
    s.Screens ref ∨ s.wallets.lookup ref.wallet = some ref.id ∧ ref.wallet ∉ cfg.exempt := by
  have hkeep (t : Screening) (ht : t ∈ s.screenings) : ∃ t₀ ∈ s.screenings, t₀.ref = t.ref := ⟨t, ht, rfl⟩
  have herase (i : Nat) (t : Screening) (ht : t ∈ s.screenings.eraseIdx i) : ∃ t₀ ∈ s.screenings, t₀.ref = t.ref :=
    ⟨t, List.mem_of_mem_eraseIdx ht, rfl⟩
  cases hs with
  | tracked seen byWallet hphase =>
    obtain ⟨wallets, object, created, htrack⟩ := s.track_eq byWallet
    refine .inl (h.same ?_ nofun)
    unfold State.tracked
    rw [htrack]
    exact hkeep
  | flushed p todo hphase hsends =>
    refine .inl (h.same ?_ ?_)
    all_goals
      unfold State.flushOne
      dsimp only
      split
    · exact hkeep
    · exact hkeep
    · exact nofun
    · exact nofun
  | dueTaken hphase hsends =>
    obtain hscreened | ⟨toScreen, todo, entryOf, version, hentries, href⟩ := h
    · exact .inl (.inl hscreened)
    · unfold State.takeDue at hentries
      dsimp only at hentries
      split_ifs at hentries
      obtain ⟨rfl, -⟩ := Phase.entries.inj hentries
      obtain ⟨hdue, hexempt⟩ := List.mem_filter.1 href
      exact .inr ⟨mem_refs.1 (List.mem_filter.1 hdue).1, of_decide_eq_true hexempt⟩
  | entryRead toScreen todo entryOf version pair hphase hp =>
    refine .inl (h.same hkeep ?_)
    intro toScreen' todo' entryOf' version' hentries
    obtain ⟨rfl, -, -, rfl⟩ := Phase.entries.inj hentries
    exact ⟨_, _, hphase⟩
  | screensStarted toScreen entryOf version hphase =>
    obtain ⟨t, ht, rfl⟩ | ⟨_, _, _, _, hentries, -⟩ := h
    · obtain ht | ht := List.mem_append.1 ht
      · exact .inl (.inl ⟨t, ht, rfl⟩)
      · obtain ⟨ref, href, rfl⟩ := List.mem_map.1 ht
        exact .inl (.inr ⟨_, _, _, _, hphase, href⟩)
    · exact nomatch hentries
  | asked t i ht hw =>
    have hphase : (s.ask i t).phase = s.phase := by
      unfold State.ask
      dsimp only
      split_ifs <;> rfl
    refine .inl (h.same ?_ fun _ _ _ _ hentries => ⟨_, _, hphase ▸ hentries⟩)
    unfold State.ask
    dsimp only
    split_ifs
    · exact herase i
    · intro t' ht'
      obtain ht' | rfl := List.mem_or_eq_of_mem_set ht'
      · exact hkeep t' ht'
      · exact ⟨t, List.mem_of_getElem? ht, rfl⟩
  | verdict t open_ i => exact .inl (h.same (herase i) fun _ _ _ _ hentries => ⟨_, _, hentries⟩)
  | providerFailed t open_ i => exact .inl (h.same (herase i) fun _ _ _ _ hentries => ⟨_, _, hentries⟩)
  | answered x i a hx ha =>
    have hsettles := (s.arrived i).settles x a.outcome
    refine .inl (h.same ?_ ?_)
    · rw [hsettles.screenings]
      exact hkeep
    · intro toScreen todo entryOf version hentries
      obtain hkept | hidle := hsettles.phase
      · exact ⟨_, _, hkept.symm.trans hentries⟩
      · rw [hidle] at hentries
        contradiction
  | tick => exact .inl (h.same hkeep fun _ _ _ _ hentries => ⟨_, _, hentries⟩)
  | versionChanged => exact .inl (h.same hkeep fun _ _ _ _ hentries => ⟨_, _, hentries⟩)
  | added => exact .inl (h.same hkeep fun _ _ _ _ hentries => ⟨_, _, hentries⟩)
  | removed => exact .inl (h.same hkeep fun _ _ _ _ hentries => ⟨_, _, hentries⟩)
  | keeperDown => exact .inl (h.same hkeep fun _ _ _ _ hentries => ⟨_, _, hentries⟩)
  | polled => exact .inl (h.same hkeep nofun)
  | skippedMint => exact .inl (h.same hkeep nofun)
  | mintUnreadable => exact .inl (h.same hkeep nofun)
  | readMint => exact .inl (h.same hkeep nofun)
  | entriesFailed => exact .inl (h.same hkeep nofun)
  | finished => exact .inl (h.same hkeep nofun)

theorem State.initial_not_screens {now : Nat} {version : Option String} {registry : Pair → EntryRead} {ref : Ref} :
    ¬(State.initial now version registry).Screens ref := by
  intro h
  obtain ⟨t, ht, -⟩ | ⟨_, _, _, _, hentries, -⟩ := h
  · exact nomatch ht
  · exact nomatch hentries

/-- No exempt wallet is screened. -/
theorem not_exempt_of_screens {h : List Label} {ref : Ref} (r : (screener cfg).Run h s) (hscreens : s.Screens ref) :
    ref.wallet ∉ cfg.exempt := by
  refine r.invariant (I := fun _ s => ∀ ref, s.Screens ref → ref.wallet ∉ cfg.exempt) ?_ ?_ ref hscreens
  · intro s ⟨now, version, registry, hs⟩ ref hscreens
    rw [hs] at hscreens
    exact absurd hscreens State.initial_not_screens
  · intro h s label s' _ hkept hs ref hscreens
    obtain hbefore | hnew := hs.screens hscreens
    · exact hkept ref hbefore
    · exact hnew.2

/-- Objects are numbered: what is tracked or screened has an id below `created`. -/
def Numbered (s : State) : Prop :=
  ∀ ref, s.wallets.lookup ref.wallet = some ref.id ∨ s.Screens ref → ref.id < s.created

theorem Numbered.step (hn : Numbered s) (hs : Step cfg s label s') : Numbered s' := by
  have hscreens {ref : Ref} (h : s'.Screens ref) : ref.id < s.created := by
    obtain hbefore | hnew := hs.screens h
    · exact hn ref (.inr hbefore)
    · exact hn ref (.inl hnew.1)
  have hsame := hs.sameHoldings
  cases hs with
  | tracked seen byWallet hphase =>
    intro ref href
    have hcreated : s.created ≤ (s.tracked seen byWallet).created := State.track_created
    obtain hid | h := href
    · obtain ⟨perMint, -, ⟨hold, -⟩ | ⟨-, -, hlt, -⟩⟩ := State.track_cases hid
      · exact (hn ref (.inl hold)).trans_le hcreated
      · exact hlt
    · exact (hscreens h).trans_le hcreated
  | _ =>
    have hsame := hsame nofun
    intro ref href
    rw [hsame.created]
    refine href.elim ?_ hscreens
    rw [hsame.wallets]
    exact fun h => hn ref (.inl h)

theorem numbered_of_run {h : List Label} (r : (screener cfg).Run h s) : Numbered s := by
  refine r.invariant (I := fun _ => Numbered) ?_ ?_
  · intro s ⟨now, version, registry, hs⟩ ref href
    rw [hs] at href
    obtain hid | hscreens := href
    · have hnone : (∅ : Map Pubkey Nat).lookup ref.wallet = some ref.id := hid
      rw [AList.lookup_empty] at hnone
      contradiction
    · exact absurd hscreens State.initial_not_screens
  · exact fun h s label s' _ hn hs => hn.step hs

end ThawGate.Screener
