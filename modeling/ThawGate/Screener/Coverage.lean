import ThawGate.Screener.Justified

/-!
# Whom the screener covers

A wallet's object remembers when the wallet was last screened, but not on which mints it held then. So a wallet
that is remembered and comes to hold another mint is not due, and the screener leaves that mint alone until it screens
the wallet again (`opened_not_covered`). Without such wallets, every holder of an eligible mint is covered
(`covered_of_anticipated`).
-/

namespace ThawGate.Screener

open Function
open Keeper (EntryRead)

/-! ### Coverage -/

/-- Object `id` of the pair's wallet holds the mint, which is eligible. -/
structure State.Watches (s : State) (pair : Pair) (id : Nat) : Prop where
  tracked : s.wallets.lookup pair.wallet = some id
  held : ((s.object ⟨pair.wallet, id⟩).holdings.lookup pair.mint).isSome
  eligible : s.Eligible pair.mint

/-- A watched pair that the screener has to do something about. -/
structure State.Exposed (cfg : Config) (s : State) (pair : Pair) (id : Nat) : Prop extends s.Watches pair id where
  notExempt : pair.wallet ∉ cfg.exempt
  noEntry : s.registry pair = .none

/-- The verdicts of a run. -/
def verdicts (h : List Label) : List Verdict :=
  h.filterMap fun
    | .verdict _ v _ => some v
    | _ => none

/-- A verdict below the threshold on a wallet that held the mint, without an entry there. -/
structure Verdict.Clears (cfg : Config) (v : Verdict) (pair : Pair) : Prop where
  wallet : v.wallet = pair.wallet
  held : pair.mint ∈ v.open_
  score : ¬cfg.threshold ≤ v.score

/-- A send is pending, the wallet is due or waits out a back-off, or it was cleared under the version of now, less than
`rescreenMs` ago. -/
def Covered (cfg : Config) (h : List Label) (s : State) (pair : Pair) (id : Nat) : Prop :=
  s.outbox.IsPending pair ∨ isDue cfg (s.object ⟨pair.wallet, id⟩) s.version s.now ∨
    (s.object ⟨pair.wallet, id⟩).BacksOff s.now ∨
    ∃ v ∈ verdicts h, v.Clears cfg pair ∧ (s.version.isSome → v.version = s.version) ∧ s.now < v.at_ + cfg.rescreenMs

/-- A wallet that is tracked comes to hold an eligible mint without an entry there. -/
def Gains (cfg : Config) (ref : Ref) (s : State) (_ : Label) (s' : State) : Prop :=
  s.wallets.lookup ref.wallet = some ref.id ∧
    ∃ mint, s'.Exposed cfg ⟨mint, ref.wallet⟩ ref.id ∧ ¬s.Watches ⟨mint, ref.wallet⟩ ref.id

/-- The wallet's screening ends with a verdict. -/
def Concludes (ref : Ref) (s : State) (label : Label) (_ : State) : Prop :=
  ∃ i v reason t, label = .verdict i v reason ∧ s.screenings[i]? = some t ∧ t.ref = ref

/-- The wallet has gained a mint since its last verdict. -/
def GainedSince (cfg : Config) (h : List Label) (s : State) (ref : Ref) : Prop :=
  (screener cfg).Since (Gains cfg ref) (Concludes ref) h s

/-- A step that gives no wallet a mint behind the back of what the screener remembers of it: one that is already tracked
comes to hold an eligible mint only while its screening does not count and none is under way, and the provider's version
does not return to that of a screening which is remembered of a wallet that has gained a mint since. -/
structure Anticipated (cfg : Config) (h : List Label) (s : State) (label : Label) (s' : State) : Prop where
  gained : ∀ {pair : Pair} {id : Nat}, s.wallets.lookup pair.wallet = some id → s'.Exposed cfg pair id →
    ¬s.Watches pair id → (s.object ⟨pair.wallet, id⟩).Stale cfg s.version s.now ∧
      ∀ t ∈ s.screenings, t.ref ≠ ⟨pair.wallet, id⟩
  version : ∀ {version : String}, label = .versionChanged version →
    ∀ {wallet : Pubkey} {id : Nat}, s.wallets.lookup wallet = some id → GainedSince cfg h s ⟨wallet, id⟩ →
      (s.object ⟨wallet, id⟩).lastVersion ≠ some version

/-! ### The invariant -/

/-- The screening has found that the pair has no entry, or will. -/
def Screening.Finds (t : Screening) (pair : Pair) : Prop :=
  match t.stage with
  | .waiting => t.entryOf.lookup pair = some .none
  | .asked open_ => pair.mint ∈ open_

/-- The screening that the wallet's object remembers does not count, under any version or under that of now if the
wallet has `gained` a mint since, or it flagged the pair or cleared it. -/
def Remembered (cfg : Config) (h : List Label) (s : State) (gained : Prop) (pair : Pair) (id : Nat) : Prop :=
  (s.object ⟨pair.wallet, id⟩).Stale cfg none s.now ∨
    gained ∧ (s.object ⟨pair.wallet, id⟩).Stale cfg s.version s.now ∨
    s.outbox.IsPending pair ∨
    ∃ v ∈ verdicts h, v.Clears cfg pair ∧ (s.object ⟨pair.wallet, id⟩).lastScreenedAt = some v.at_ ∧
      (s.object ⟨pair.wallet, id⟩).lastVersion = v.version

/-- A screening that is remembered was one of the pair, and so is one that is under way. -/
structure Kept (cfg : Config) (h : List Label) (s : State) (gained : Prop) (pair : Pair) (id : Nat) : Prop where
  memory : Remembered cfg h s gained pair id
  screenings : ∀ t ∈ s.screenings, t.ref = ⟨pair.wallet, id⟩ → t.Finds pair
  entries : ∀ {toScreen : List Ref} {todo : List Pair} {entryOf : Map Pair EntryRead} {version : Option String},
    s.phase = .entries toScreen todo entryOf version → ⟨pair.wallet, id⟩ ∈ toScreen →
      pair ∈ todo ∨ entryOf.lookup pair = some .none

variable {cfg : Config} {s s' : State} {label : Label} {h : List Label} {gained gained' : Prop} {pair : Pair} {id : Nat}

/-- What does not count under any version does not count under this one. -/
theorem WalletState.Stale.under {w : WalletState} {now : Nat} (hw : w.Stale cfg none now) (version : Option String) :
    w.Stale cfg version now := by
  intro t ht
  exact .inr ((hw t ht).resolve_left fun h => Bool.false_ne_true h.1)

theorem Kept.covered (hk : Kept cfg h s gained pair id) : Covered cfg h s pair id := by
  have hdue (hstale : (s.object ⟨pair.wallet, id⟩).Stale cfg s.version s.now) : Covered cfg h s pair id := by
    by_cases hback : (s.object ⟨pair.wallet, id⟩).BacksOff s.now
    · exact .inr (.inr (.inl hback))
    · exact .inr (.inl (isDue_iff.2 ⟨hback, hstale⟩))
  obtain haged | ⟨-, hstale⟩ | hpending | ⟨v, hv, hclears, hat, hversion⟩ := hk.memory
  · exact hdue (haged.under _)
  · exact hdue hstale
  · exact .inl hpending
  · by_cases hcounts : (s.version.isSome → v.version = s.version) ∧ s.now < v.at_ + cfg.rescreenMs
    · exact .inr (.inr (.inr ⟨v, hv, hclears, hcounts⟩))
    · refine hdue ?_
      intro t ht
      obtain rfl := Option.some.inj (hat.symm.trans ht)
      rw [hversion]
      by_contra hfresh
      refine hcounts ⟨?_, ?_⟩
      · intro hsome
        by_contra hne
        exact hfresh (.inl ⟨hsome, hne⟩)
      · exact Nat.not_le.1 fun hle => hfresh (.inr hle)

/-- Time makes a screening older. -/
theorem WalletState.Stale.mono {w : WalletState} {version : Option String} {now now' : Nat}
    (hw : w.Stale cfg version now) (hnow : now ≤ now') : w.Stale cfg version now' := by
  intro t ht
  exact (hw t ht).imp_right hnow.trans'

theorem verdicts_mono {v : Verdict} (hv : v ∈ verdicts h) : v ∈ verdicts (label :: h) := by
  unfold verdicts at *
  rw [List.filterMap_cons]
  split
  · exact hv
  · exact List.mem_cons_of_mem _ hv

/-- Two objects that remember the same screening. -/
structure WalletState.SameMemory (w w' : WalletState) : Prop where
  lastScreenedAt : w'.lastScreenedAt = w.lastScreenedAt
  lastVersion : w'.lastVersion = w.lastVersion

theorem WalletState.SameMemory.stale {w w' : WalletState} {version : Option String} {now : Nat}
    (hm : w.SameMemory w') (hw : w.Stale cfg version now) : w'.Stale cfg version now := by
  intro t ht
  rw [hm.lastVersion]
  rw [hm.lastScreenedAt] at ht
  exact hw t ht

theorem Remembered.same (hr : Remembered cfg h s gained pair id)
    (hm : (s.object ⟨pair.wallet, id⟩).SameMemory (s'.object ⟨pair.wallet, id⟩)) (hnow : s.now ≤ s'.now)
    (hversion : s'.version = s.version) (hpending : s.outbox.IsPending pair → s'.outbox.IsPending pair) :
    Remembered cfg (label :: h) s' gained pair id := by
  unfold Remembered
  rw [hversion]
  obtain haged | ⟨hgained, hstale⟩ | hp | ⟨v, hv, hclears, hat, hv'⟩ := hr
  · exact .inl (hm.stale (haged.mono hnow))
  · exact .inr (.inl ⟨hgained, hm.stale (hstale.mono hnow)⟩)
  · exact .inr (.inr (.inl (hpending hp)))
  · exact .inr (.inr (.inr ⟨v, verdicts_mono hv, hclears, hm.lastScreenedAt.trans hat, hm.lastVersion.trans hv'⟩))

theorem Kept.mono (hk : Kept cfg h s gained pair id) (hgained : gained → gained') : Kept cfg h s gained' pair id :=
  ⟨hk.memory.imp_right (.imp_left (.imp_left hgained)), hk.screenings, hk.entries⟩

/-- A step that leaves what the wallet's object remembers and does not go on with its screening. -/
theorem Kept.same (hk : Kept cfg h s gained pair id)
    (hm : (s.object ⟨pair.wallet, id⟩).SameMemory (s'.object ⟨pair.wallet, id⟩)) (hnow : s.now ≤ s'.now)
    (hversion : s'.version = s.version) (hpending : s.outbox.IsPending pair → s'.outbox.IsPending pair)
    (hscreenings : ∀ t ∈ s'.screenings, t ∈ s.screenings)
    (hphase : ∀ {toScreen todo entryOf version}, s'.phase = .entries toScreen todo entryOf version →
      s.phase = .entries toScreen todo entryOf version) : Kept cfg (label :: h) s' gained pair id :=
  ⟨hk.memory.same hm hnow hversion hpending, fun t ht => hk.screenings t (hscreenings t ht),
    fun h => hk.entries (hphase h)⟩

/-- A step after which the wallet's screening does not count, under any version. -/
theorem Kept.stale (hk : Kept cfg h s gained pair id)
    (hstale : (s'.object ⟨pair.wallet, id⟩).Stale cfg none s'.now)
    (hscreenings : ∀ t ∈ s'.screenings, t ∈ s.screenings)
    (hphase : ∀ {toScreen todo entryOf version}, s'.phase = .entries toScreen todo entryOf version →
      s.phase = .entries toScreen todo entryOf version) : Kept cfg (label :: h) s' gained pair id :=
  ⟨.inl hstale, fun t ht => hk.screenings t (hscreenings t ht), fun h => hk.entries (hphase h)⟩

/-! ### What a step exposes -/

theorem State.Watches.before (hw : s'.Watches pair id) (hsame : SameHoldings s s')
    (heligible : s'.Eligible pair.mint → s.Eligible pair.mint) : s.Watches pair id := by
  refine ⟨?_, ?_, heligible hw.eligible⟩
  · rw [← hsame.wallets]
    exact hw.tracked
  · rw [← hsame.holdings]
    exact hw.held

theorem State.Watches.accountOf (hw : s.Watches pair id) (hg : Grounded s) : (s.accountOf pair).isSome := by
  obtain ⟨accounts, haccounts⟩ := Option.isSome_iff_exists.1 hw.held
  exact State.accountOf_isSome.2 ⟨id, accounts, hw.tracked, haccounts, hg.held hw.tracked haccounts⟩

/-- Entries are never closed. -/
theorem Step.noEntry (hs : Step cfg s label s') (hnone : s'.registry pair = .none) : s.registry pair = .none := by
  have hupdate (q : Pair) (entry : EntryRead) (hentry : entry ≠ .none) (h : update s.registry q entry pair = .none) :
      s.registry pair = .none := by
    obtain rfl | hne := eq_or_ne pair q
    · rw [update_self] at h
      exact absurd h hentry
    · rwa [update_of_ne hne] at h
  cases hs with
  | added q => exact hupdate q .active nofun hnone
  | removed q => exact hupdate q .inactive nofun hnone
  | tracked seen byWallet =>
    obtain ⟨wallets, object, created, htrack⟩ := s.track_eq byWallet
    unfold State.tracked at hnone
    rwa [htrack] at hnone
  | flushed p todo =>
    unfold State.flushOne at hnone
    dsimp only at hnone
    split at hnone <;> exact hnone
  | asked t i =>
    unfold State.ask at hnone
    dsimp only at hnone
    split_ifs at hnone <;> exact hnone
  | answered x i a => rwa [((s.arrived i).settles x a.outcome).registry] at hnone
  | _ => exact hnone

/-! ### The steps -/

theorem Kept.versionChanged (hk : Kept cfg h s gained pair id) {version : String}
    (hreturn : gained → (s.object ⟨pair.wallet, id⟩).lastVersion ≠ some version) :
    Kept cfg (.versionChanged version :: h) { s with version := some version } gained pair id := by
  refine ⟨?_, hk.screenings, hk.entries⟩
  obtain haged | ⟨hgained, -⟩ | hp | ⟨v, hv, hclears, hat, hversion⟩ := hk.memory
  · exact .inl haged
  · exact .inr (.inl ⟨hgained, fun t ht => .inl ⟨rfl, hreturn hgained⟩⟩)
  · exact .inr (.inr (.inl hp))
  · exact .inr (.inr (.inr ⟨v, verdicts_mono hv, hclears, hat, hversion⟩))

theorem Kept.flushed (hk : Kept cfg h s gained pair id) (hw : s.Watches pair id) (hg : Grounded s)
    (hdry : cfg.dryRun = false) (p : Pending) (todo : List Pending) :
    Kept cfg (.flushed :: h) (s.flushOne cfg p todo) gained pair id := by
  unfold State.flushOne
  dsimp only
  split
  · rename_i hnone
    refine hk.same ⟨rfl, rfl⟩ le_rfl rfl ?_ (fun _ ht => ht) nofun
    intro hp
    refine Outbox.isPending_delete.2 ⟨?_, hp⟩
    rintro rfl
    have htracked := Option.map_eq_none_iff.1 hnone
    rw [hw.tracked] at htracked
    contradiction
  · refine hk.same ⟨rfl, rfl⟩ le_rfl rfl ?_ (fun _ ht => ht) nofun
    exact fun hp => hp.blacklist (hw.accountOf hg) hdry

theorem Kept.dueTaken (hk : Kept cfg h s gained pair id) (hx : s.Exposed cfg pair id) :
    Kept cfg (.dueTaken :: h) (s.takeDue cfg) gained pair id := by
  have hobject : (s.takeDue cfg).object ⟨pair.wallet, id⟩ = s.object ⟨pair.wallet, id⟩ := by
    refine if_neg ?_
    exact fun h => hx.notExempt h.2
  refine ⟨hk.memory.same (hobject ▸ ⟨rfl, rfl⟩) le_rfl rfl fun hp => hp, hk.screenings, ?_⟩
  intro toScreen todo entryOf version hentries href
  unfold State.takeDue at hentries
  dsimp only at hentries
  split_ifs at hentries
  obtain ⟨rfl, rfl, -⟩ := Phase.entries.inj hentries
  refine .inl (List.mem_flatMap.2 ⟨_, href, List.mem_map.2 ⟨pair.mint, ?_, rfl⟩⟩)
  exact AList.mem_keys.1 (AList.lookup_isSome.1 hx.held)

theorem Kept.entryRead (hk : Kept cfg h s gained pair id) (hx : s.Exposed cfg pair id) {toScreen : List Ref} {todo : List Pair}
    {entryOf : Map Pair EntryRead} {version : Option String} (hphase : s.phase = .entries toScreen todo entryOf version)
    (q : Pair) : Kept cfg (.entryRead q (s.registry q) :: h)
      { s with phase := .entries toScreen (todo.erase q) (entryOf.insert q (s.registry q)) version } gained pair id := by
  refine ⟨hk.memory.same ⟨rfl, rfl⟩ le_rfl rfl fun hp => hp, hk.screenings, ?_⟩
  intro toScreen' todo' entryOf' version' hentries href
  obtain ⟨rfl, rfl, rfl, -⟩ := Phase.entries.inj hentries
  obtain rfl | hne := eq_or_ne pair q
  · exact .inr (by rw [AList.lookup_insert, hx.noEntry])
  · rw [AList.lookup_insert_ne hne, List.mem_erase_of_ne hne]
    exact hk.entries hphase href

theorem Kept.screensStarted (hk : Kept cfg h s gained pair id) {toScreen : List Ref} {entryOf : Map Pair EntryRead}
    {version : Option String} (hphase : s.phase = .entries toScreen [] entryOf version) :
    Kept cfg (.screensStarted :: h)
      { s with
        screenings := s.screenings ++ toScreen.map fun ref => ⟨ref, version, entryOf, .waiting, s.polls⟩
        phase := .screening } gained pair id := by
  refine ⟨hk.memory.same ⟨rfl, rfl⟩ le_rfl rfl fun hp => hp, ?_, nofun⟩
  intro t ht href
  obtain ht | ht := List.mem_append.1 ht
  · exact hk.screenings t ht href
  · obtain ⟨ref, hmem, rfl⟩ := List.mem_map.1 ht
    obtain rfl : ref = _ := href
    exact (hk.entries hphase hmem).resolve_left List.not_mem_nil

/-- The mint is among those that the wallet is screened for. -/
theorem State.Watches.mem_openMints (hw : s.Watches pair id) {t : Screening} (href : t.ref = ⟨pair.wallet, id⟩)
    (hentry : t.entryOf.lookup pair = some .none) : pair.mint ∈ s.openMints t := by
  refine List.mem_filter.2 ⟨?_, ?_⟩
  · rw [href]
    exact AList.mem_keys.1 (AList.lookup_isSome.1 hw.held)
  · rw [href]
    exact decide_eq_true hentry

theorem Kept.asked (hk : Kept cfg h s gained pair id) (hw : s.Watches pair id) {t : Screening} {i : Nat}
    (ht : s.screenings[i]? = some t) (hstage : t.stage = .waiting) : Kept cfg (.asked i :: h) (s.ask i t) gained pair id := by
  have hmem : t.ref = ⟨pair.wallet, id⟩ → pair.mint ∈ s.openMints t := by
    intro href
    have hfinds := hk.screenings t (List.mem_of_getElem? ht) href
    rw [Screening.Finds, hstage] at hfinds
    exact hw.mem_openMints href hfinds
  unfold State.ask
  dsimp only
  split_ifs with hempty
  · have href : (⟨pair.wallet, id⟩ : Ref) ≠ t.ref := by
      intro href
      have hm := hmem href.symm
      rw [List.isEmpty_iff.1 hempty] at hm
      contradiction
    refine hk.same ?_ le_rfl rfl (fun hp => hp) (fun _ ht' => List.mem_of_mem_eraseIdx ht') fun h => h
    dsimp only
    rw [State.modify_object_ne href]
    exact ⟨rfl, rfl⟩
  · refine ⟨hk.memory.same ⟨rfl, rfl⟩ le_rfl rfl fun hp => hp, ?_, hk.entries⟩
    intro t' ht' href
    obtain ht' | rfl := List.mem_or_eq_of_mem_set ht'
    · exact hk.screenings t' ht' href
    · exact hmem href

theorem Kept.verdict (hk : Kept cfg h s gained pair id) (hw : s.Watches pair id) (hg : Grounded s) (hdry : cfg.dryRun = false)
    {t : Screening} {open_ : List Pubkey} {i : Nat} {score : Rat} {reason : String} (ht : s.screenings[i]? = some t)
    (hstage : t.stage = .asked open_) (hgained : t.ref ≠ ⟨pair.wallet, id⟩ → gained → gained') :
    Kept cfg (.verdict i ⟨t.ref.wallet, score, s.now, t.version, open_⟩ reason :: h)
      (s.conclude cfg i t open_ score reason) gained' pair id := by
  have hpending (hp : s.outbox.IsPending pair ∨ cfg.threshold ≤ score ∧ pair ∈ open_.map (⟨·, t.ref.wallet⟩)) :
      (s.judge cfg t open_ score reason).IsPending pair := by
    unfold State.judge
    split_ifs with hscore
    · refine Outbox.IsPending.flagAll ?_ (hw.accountOf hg) hdry
      exact hp.symm.imp_left fun h => h.2
    · exact hp.resolve_right fun h => hscore h.1
  by_cases href : t.ref = ⟨pair.wallet, id⟩
  · have hfinds := hk.screenings t (List.mem_of_getElem? ht) href
    rw [Screening.Finds, hstage] at hfinds
    refine ⟨?_, fun t' ht' => hk.screenings t' (List.mem_of_mem_eraseIdx ht'), hk.entries⟩
    by_cases hscore : cfg.threshold ≤ score
    · have hflagged : pair ∈ open_.map (⟨·, t.ref.wallet⟩) := by
        rw [href]
        exact List.mem_map.2 ⟨pair.mint, hfinds, rfl⟩
      exact .inr (.inr (.inl (hpending (.inr ⟨hscore, hflagged⟩))))
    · refine .inr (.inr (.inr ⟨_, List.mem_cons_self, ⟨congrArg Ref.wallet href, hfinds, hscore⟩, ?_⟩))
      have hobject : (s.conclude cfg i t open_ score reason).object ⟨pair.wallet, id⟩ =
          { (s.object t.ref).screened s.now t.version with failures := 0, retryAt := none } := by
        rw [← href]
        exact update_self _ _ _
      rw [hobject]
      exact ⟨rfl, rfl⟩
  · have hk := hk.mono (hgained href)
    refine hk.same ?_ le_rfl rfl (fun hp => hpending (.inl hp)) (fun _ ht' => List.mem_of_mem_eraseIdx ht') fun h => h
    have hobject : (s.conclude cfg i t open_ score reason).object ⟨pair.wallet, id⟩ = s.object ⟨pair.wallet, id⟩ :=
      update_of_ne (Ne.symm href) _ _
    rw [hobject]
    exact ⟨rfl, rfl⟩

theorem Kept.providerFailed (hk : Kept cfg h s gained pair id) (t : Screening) (i : Nat) :
    Kept cfg (.providerFailed i :: h)
      { s.modify t.ref fun w => w.failed cfg s.now with screenings := s.screenings.eraseIdx i } gained pair id := by
  refine hk.same ?_ le_rfl rfl (fun hp => hp) (fun _ ht' => List.mem_of_mem_eraseIdx ht') fun h => h
  dsimp only
  by_cases href : t.ref = ⟨pair.wallet, id⟩
  · rw [← href, State.modify_object_self]
    exact ⟨rfl, rfl⟩
  · rw [State.modify_object_ne (Ne.symm href)]
    exact ⟨rfl, rfl⟩

/-- What the end of a send takes from the pending sends: its own pair, which has an entry, is on a mint that is not
eligible any more, or is of a wallet that is not tracked or whose screening is forgotten. -/
theorem State.settle_cases (s : State) (x : Send) (outcome : Option SendOutcome) :
    (s.settle x outcome).object = s.object ∧ (s.settle x outcome).outbox = s.outbox ∨
      (s.settle x outcome).outbox = s.outbox.delete x.request.pair ∧
        ((s.settle x outcome).object = s.object ∧
            (outcome = some .sent ∨ outcome = some .alreadyBlacklisted ∨
              ¬(s.settle x outcome).Eligible x.request.pair.mint ∨
              s.walletOf x.request.pair.wallet = none) ∨
          ∃ ref, s.walletOf x.request.pair.wallet = some ref ∧
            (s.settle x outcome).object = (s.modify ref fun w => { w with lastScreenedAt := none }).object) := by
  unfold State.settle
  split
  · split_ifs
    · exact .inl ⟨rfl, rfl⟩
    · exact .inl ⟨rfl, rfl⟩
  · exact .inr ⟨rfl, .inl ⟨rfl, .inl rfl⟩⟩
  · exact .inr ⟨rfl, .inl ⟨rfl, .inr (.inl rfl)⟩⟩
  · exact .inr ⟨rfl, .inl ⟨rfl, .inr (.inr (.inl (by rw [State.Eligible, AList.lookup_insert]; exact nofun)))⟩⟩
  all_goals
    split_ifs
    · dsimp only
      split
      · rename_i ref href
        exact .inr ⟨rfl, .inr ⟨ref, href, rfl⟩⟩
      · rename_i hnone
        exact .inr ⟨rfl, .inl ⟨rfl, .inr (.inr (.inr hnone))⟩⟩
    · exact .inl ⟨rfl, rfl⟩

theorem Kept.answered (hk : Kept cfg h s gained pair id) (hx : s.Exposed cfg pair id) {x : Send} {i : Nat} {a : Answer}
    (ha : Possible (s.registry x.request.pair) a.outcome)
    (hx' : ((s.arrived i).settle x a.outcome).Exposed cfg pair id) :
    Kept cfg (.answered i a :: h) ((s.arrived i).settle x a.outcome) gained pair id := by
  have hsettles := (s.arrived i).settles x a.outcome
  have hscreenings : ∀ t ∈ ((s.arrived i).settle x a.outcome).screenings, t ∈ s.screenings := by
    rw [hsettles.screenings]
    exact fun _ ht => ht
  have hphase {toScreen todo entryOf version}
      (hentries : ((s.arrived i).settle x a.outcome).phase = .entries toScreen todo entryOf version) :
      s.phase = .entries toScreen todo entryOf version := by
    obtain hkept | hidle := hsettles.phase
    · exact hkept.symm.trans hentries
    · rw [hidle] at hentries
      contradiction
  obtain ⟨hobject, houtbox⟩ | ⟨houtbox, ⟨hobject, hwhy⟩ | ⟨ref, href, hobject⟩⟩ :=
    (s.arrived i).settle_cases x a.outcome
  · refine hk.same ?_ hsettles.now.ge hsettles.version ?_ hscreenings hphase
    · rw [hobject]
      exact ⟨rfl, rfl⟩
    · rw [houtbox]
      exact fun hp => hp
  · refine hk.same ?_ hsettles.now.ge hsettles.version ?_ hscreenings hphase
    · rw [hobject]
      exact ⟨rfl, rfl⟩
    · rw [houtbox]
      refine fun hp => Outbox.isPending_delete.2 ⟨?_, hp⟩
      rintro rfl
      obtain hsent | hsent | hmint | hwallet := hwhy
      · rw [hsent] at ha
        exact ha hx.noEntry
      · rw [hsent] at ha
        exact ha hx.noEntry
      · exact hmint hx'.eligible
      · have htracked := (Option.map_eq_none_iff.1 hwallet).symm.trans hx.tracked
        contradiction
  · by_cases hw : ref = ⟨pair.wallet, id⟩
    · refine hk.stale ?_ hscreenings hphase
      rw [hobject, ← hw, State.modify_object_self]
      exact nofun
    · refine hk.same ?_ hsettles.now.ge hsettles.version ?_ hscreenings hphase
      · rw [hobject, State.modify_object_ne (Ne.symm hw)]
        exact ⟨rfl, rfl⟩
      · rw [houtbox]
        refine fun hp => Outbox.isPending_delete.2 ⟨?_, hp⟩
        rintro rfl
        obtain ⟨id', hid', rfl⟩ := Option.map_eq_some_iff.1 href
        obtain rfl := Option.some.inj (hx.tracked.symm.trans hid')
        exact hw rfl

theorem not_concludes {ref : Ref} (hl : ∀ i v reason, label ≠ .verdict i v reason := by nofun) :
    ¬Concludes ref s label s' := fun ⟨_, _, _, _, h, _⟩ => hl _ _ _ h

/-- A step that only tells the screener who holds what, seen from a wallet that it knows. -/
theorem Kept.told (hk : s.Watches pair id → Kept cfg h s gained pair id)
    (hgained : ¬s.Watches pair id → gained ∧ (s.object ⟨pair.wallet, id⟩).Stale cfg s.version s.now ∧
      ∀ t ∈ s.screenings, t.ref ≠ ⟨pair.wallet, id⟩)
    (hm : (s.object ⟨pair.wallet, id⟩).SameMemory (s'.object ⟨pair.wallet, id⟩)) (hnow : s'.now = s.now)
    (hversion : s'.version = s.version) (hpending : s'.outbox = s.outbox) (hscreenings : s'.screenings = s.screenings)
    (hphase : ∀ toScreen todo entryOf version, s'.phase ≠ .entries toScreen todo entryOf version) :
    Kept cfg (label :: h) s' gained pair id := by
  by_cases hw : s.Watches pair id
  · refine (hk hw).same hm hnow.ge hversion (hpending ▸ fun hp => hp) (hscreenings ▸ fun _ ht => ht) ?_
    exact fun hentries => absurd hentries (hphase _ _ _ _)
  · obtain ⟨hgains, hstale, hnone⟩ := hgained hw
    refine ⟨.inr (.inl ⟨hgains, ?_⟩), ?_, fun hentries => absurd hentries (hphase _ _ _ _)⟩
    · rw [hnow, hversion]
      exact hm.stale hstale
    · rw [hscreenings]
      exact fun t ht href => absurd href (hnone t ht)

/-- **Step.** -/
theorem kept_step
    (hk : ∀ {pair id}, s.Exposed cfg pair id → Kept cfg h s (GainedSince cfg h s ⟨pair.wallet, id⟩) pair id)
    (r : (screener cfg).Run h s) (hdry : cfg.dryRun = false) (ha : Anticipated cfg h s label s')
    (hs : Step cfg s label s') (hx : s'.Exposed cfg pair id) :
    Kept cfg (label :: h) s' (GainedSince cfg (label :: h) s' ⟨pair.wallet, id⟩) pair id := by
  have hg := grounded_of_run r
  have hn := numbered_of_run r
  have hnone := hs.noEntry hx.noEntry
  have hsince (hl : ¬Concludes ⟨pair.wallet, id⟩ s label s') (hgained : GainedSince cfg h s ⟨pair.wallet, id⟩) :
      GainedSince cfg (label :: h) s' ⟨pair.wallet, id⟩ := hgained.later hs hl
  have hkept (hl : ¬Concludes ⟨pair.wallet, id⟩ s label s') (hw : s.Watches pair id) :
      Kept cfg h s (GainedSince cfg (label :: h) s' ⟨pair.wallet, id⟩) pair id :=
    (hk ⟨hw, hx.notExempt, hnone⟩).mono (hsince hl)
  have hgained (hid : s.wallets.lookup pair.wallet = some id) (hw : ¬s.Watches pair id) :
      GainedSince cfg (label :: h) s' ⟨pair.wallet, id⟩ ∧ (s.object ⟨pair.wallet, id⟩).Stale cfg s.version s.now ∧
        ∀ t ∈ s.screenings, t.ref ≠ ⟨pair.wallet, id⟩ :=
    ⟨.here r hs ⟨hid, pair.mint, hx, hw⟩, ha.gained hid hx hw⟩
  have hsame := hs.sameHoldings
  -- A step that neither reads the keeper nor tracks exposes nothing.
  have hexposed (hsame : SameHoldings s s') (heligible : s'.Eligible pair.mint → s.Eligible pair.mint) :
      s.Exposed cfg pair id :=
    ⟨hx.toWatches.before hsame heligible, hx.notExempt, hnone⟩
  cases hs with
  | tracked seen byWallet hphase =>
    obtain ⟨wallets, object, created, htrack⟩ := s.track_eq byWallet
    obtain ⟨perMint, -, ⟨hold, hobject⟩ | ⟨hnew, hge, -, hobject⟩⟩ := State.track_cases hx.tracked
    · refine Kept.told (hkept not_concludes) (hgained hold) ?_ ?_ ?_ ?_ ?_ nofun
      · rw [State.tracked, hobject]
        exact ⟨rfl, rfl⟩
      all_goals rw [State.tracked, htrack]
    · refine ⟨.inl ?_, ?_, nofun⟩
      · rw [State.tracked, hobject]
        exact nofun
      · intro t ht href
        rw [State.tracked, htrack] at ht
        have hlt := hn t.ref (.inr (.inl ⟨t, ht, rfl⟩))
        rw [href] at hlt
        exact absurd hlt (Nat.not_lt.2 hge)
  | skippedMint m todo seen byWallet eligible role hphase hm =>
    have hid : s.wallets.lookup pair.wallet = some id := hx.tracked
    exact Kept.told (hkept not_concludes) (hgained hid) ⟨rfl, rfl⟩ rfl rfl rfl rfl nofun
  | mintUnreadable m todo seen byWallet eligible role hphase hm =>
    have hid : s.wallets.lookup pair.wallet = some id := hx.tracked
    exact Kept.told (hkept not_concludes) (hgained hid) ⟨rfl, rfl⟩ rfl rfl rfl rfl nofun
  | readMint m todo seen byWallet eligible role accounts hphase hm =>
    have hid : s.wallets.lookup pair.wallet = some id := hx.tracked
    exact Kept.told (hkept not_concludes) (hgained hid) ⟨rfl, rfl⟩ rfl rfl rfl rfl nofun
  | tick =>
    have hx₀ := hexposed (hsame nofun) fun he => he
    exact (hkept not_concludes hx₀.toWatches).same ⟨rfl, rfl⟩ (Nat.le_add_right _ _) rfl (fun hp => hp) (fun _ ht => ht)
      fun hentries => hentries
  | versionChanged version =>
    have hx₀ := hexposed (hsame nofun) fun he => he
    exact ((hk hx₀).versionChanged (ha.version rfl hx₀.tracked)).mono (hsince not_concludes)
  | flushed p todo =>
    have hx₀ := hexposed (hsame nofun) (by rw [State.Eligible, State.flushOne_eligible]; exact fun he => he)
    exact (hkept not_concludes hx₀.toWatches).flushed hx₀.toWatches hg hdry p todo
  | dueTaken =>
    have hx₀ := hexposed (hsame nofun) fun he => he
    exact (hkept not_concludes hx₀.toWatches).dueTaken hx₀
  | entryRead toScreen todo entryOf version q hphase =>
    have hx₀ := hexposed (hsame nofun) fun he => he
    exact (hkept not_concludes hx₀.toWatches).entryRead hx₀ hphase q
  | screensStarted toScreen entryOf version hphase =>
    have hx₀ := hexposed (hsame nofun) fun he => he
    exact (hkept not_concludes hx₀.toWatches).screensStarted hphase
  | asked t i ht hstage =>
    have hx₀ := hexposed (hsame nofun) (by rw [State.Eligible, State.ask_eligible]; exact fun he => he)
    exact (hkept not_concludes hx₀.toWatches).asked hx₀.toWatches ht hstage
  | verdict t open_ i score reason ht hstage =>
    have hx₀ := hexposed (hsame nofun) fun he => he
    refine (hk hx₀).verdict hx₀.toWatches hg hdry ht hstage fun href => hsince ?_
    rintro ⟨j, v, reason', t', heq, ht', href'⟩
    obtain ⟨rfl, -, -⟩ := Label.verdict.inj heq
    obtain rfl := Option.some.inj (ht.symm.trans ht')
    exact href href'
  | providerFailed t open_ i =>
    have hx₀ := hexposed (hsame nofun) fun he => he
    exact (hkept not_concludes hx₀.toWatches).providerFailed t i
  | answered x i a hsend hpossible =>
    have hx₀ := hexposed (hsame nofun) ((s.arrived i).settles x a.outcome).eligible
    exact (hkept not_concludes hx₀.toWatches).answered hx₀ hpossible hx
  | added =>
    have hx₀ := hexposed (hsame nofun) fun he => he
    exact (hkept not_concludes hx₀.toWatches).same ⟨rfl, rfl⟩ le_rfl rfl (fun hp => hp) (fun _ ht => ht)
      fun hentries => hentries
  | removed =>
    have hx₀ := hexposed (hsame nofun) fun he => he
    exact (hkept not_concludes hx₀.toWatches).same ⟨rfl, rfl⟩ le_rfl rfl (fun hp => hp) (fun _ ht => ht)
      fun hentries => hentries
  | keeperDown =>
    have hx₀ := hexposed (hsame nofun) fun he => he
    exact (hkept not_concludes hx₀.toWatches).same ⟨rfl, rfl⟩ le_rfl rfl (fun hp => hp) (fun _ ht => ht)
      fun hentries => hentries
  | polled =>
    have hx₀ := hexposed (hsame nofun) fun he => he
    exact (hkept not_concludes hx₀.toWatches).same ⟨rfl, rfl⟩ le_rfl rfl (fun hp => hp) (fun _ ht => ht) nofun
  | entriesFailed =>
    have hx₀ := hexposed (hsame nofun) fun he => he
    exact (hkept not_concludes hx₀.toWatches).same ⟨rfl, rfl⟩ le_rfl rfl (fun hp => hp) (fun _ ht => ht) nofun
  | finished =>
    have hx₀ := hexposed (hsame nofun) fun he => he
    exact (hkept not_concludes hx₀.toWatches).same ⟨rfl, rfl⟩ le_rfl rfl (fun hp => hp) (fun _ ht => ht) nofun

/-! ### Runs -/

theorem kept_of_anticipated (hdry : cfg.dryRun = false) (r : (screener cfg).RunWith (Anticipated cfg) h s)
    (hx : s.Exposed cfg pair id) : Kept cfg h s (GainedSince cfg h s ⟨pair.wallet, id⟩) pair id := by
  refine r.invariant (I := fun h s => ∀ pair id, s.Exposed cfg pair id →
    Kept cfg h s (GainedSince cfg h s ⟨pair.wallet, id⟩) pair id) ?_ ?_ pair id hx
  · intro s ⟨now, version, registry, hs⟩ pair id hx
    subst hs
    have htracked : (∅ : Map Pubkey Nat).lookup pair.wallet = some id := hx.tracked
    rw [AList.lookup_empty] at htracked
    contradiction
  · intro h s label s' r hk hs ha pair id hx
    exact kept_step (hk _ _) r hdry ha hs hx

/-- **Run.** While no wallet gains a mint behind the back of what the screener remembers, every holder of an eligible mint
without an entry there is covered, at the end of a poll and during it. -/
theorem covered_of_anticipated (hdry : cfg.dryRun = false) (r : (screener cfg).RunWith (Anticipated cfg) h s)
    (hx : s.Exposed cfg pair id) : Covered cfg h s pair id :=
  (kept_of_anticipated hdry r hx).covered

/-! ### A holder that the screener leaves alone -/

/-- Before the first wallet, nothing is gained. -/
theorem Anticipated.of_untracked (hwallets : s.wallets = ∅) (hl : ∀ version, label ≠ .versionChanged version) :
    Anticipated cfg h s label s' := by
  refine ⟨?_, fun h => absurd h (hl _)⟩
  intro pair id hid
  rw [hwallets, AList.lookup_empty] at hid
  contradiction

theorem covered_of_anticipated_sample : ∃ (h : List Label) (s : State), Covered sampleConfig h s samplePair 0 := by
  have r₀ : (screener sampleConfig).RunWith (Anticipated sampleConfig) [] sampleStart := .start ⟨_, _, _, rfl⟩
  have r₁ := r₀.step (Step.polled _ [sampleMint] rfl) (.of_untracked rfl nofun)
  have r₂ := r₁.step (Step.readMint _ _ _ _ _ _ (some true) sampleHolders rfl rfl) (.of_untracked rfl nofun)
  have r₃ := r₂.step (Step.tracked _ _ _ rfl) (.of_untracked rfl nofun)
  exact ⟨_, _, covered_of_anticipated rfl r₃ ⟨⟨rfl, rfl, rfl⟩, by decide, rfl⟩⟩

def otherMint : KeeperMint := ⟨sampleKey 3, sssTokenId, true⟩

/-- Account 7 of wallet 5, on the other mint. -/
def otherHolders : List KeeperAccount := [⟨sampleKey 7, sampleKey 5, .frozen⟩]

/-- Wallet 5 is cleared while it holds the first mint, and opens an account on the other one five seconds later. The next
poll finds that account, and nothing due. -/
theorem opened_not_covered : ∃ (h : List Label) (s : State) (pair : Pair) (id : Nat), sampleConfig.dryRun = false ∧
    (screener sampleConfig).Run (.finished :: h) s ∧ s.Exposed sampleConfig pair id ∧
      ¬Covered sampleConfig (.finished :: h) s pair id := by
  have r₀ : (screener sampleConfig).Run [] sampleStart := .start ⟨_, _, _, rfl⟩
  have r₁ := r₀.step (Step.polled _ [sampleMint, otherMint] rfl)
    |>.step (Step.readMint _ _ _ _ _ _ (some true) sampleHolders rfl rfl)
    |>.step (Step.readMint _ _ _ _ _ _ (some true) [] rfl rfl)
    |>.step (Step.tracked _ _ _ rfl)
    |>.step (Step.dueTaken _ rfl (by decide +kernel))
    |>.step (Step.entryRead _ _ _ _ _ samplePair rfl (by decide +kernel))
    |>.step (Step.screensStarted _ _ _ _ rfl)
    |>.step (Step.asked _ _ 0 rfl rfl)
    |>.step (Step.verdict _ _ _ 0 1 "static:demo" rfl rfl)
    |>.step (Step.finished _ rfl (by decide +kernel) (by decide +kernel))
    |>.step (Step.tick _ 5000)
  have r₂ := r₁.step (Step.polled _ [sampleMint, otherMint] rfl)
    |>.step (Step.readMint _ _ _ _ _ _ none sampleHolders rfl rfl)
    |>.step (Step.readMint _ _ _ _ _ _ none otherHolders rfl rfl)
    |>.step (Step.tracked _ _ _ rfl)
    |>.step (Step.dueTaken _ rfl (by decide +kernel))
    |>.step (Step.finished _ rfl (by decide +kernel) (by decide +kernel))
  refine ⟨_, _, ⟨sampleKey 3, sampleKey 5⟩, 0, rfl, r₂, ⟨⟨rfl, rfl, rfl⟩, by decide, rfl⟩, ?_⟩
  intro hc
  obtain hpending | hdue | ⟨t, ht, -⟩ | ⟨v, hv, hclears, -⟩ := hc
  · exact nomatch hpending
  · revert hdue
    decide +kernel
  · exact nomatch ht
  · have hheld := hclears.held
    clear hclears
    revert v
    decide +kernel

end ThawGate.Screener
