import ThawGate.Screener.Eligible

/-!
# What the screener sends

A send is justified by what is known when it starts: the wallet's last verdict, the entry that the screener has
read, and its table of eligible mints. A send that fails is tried again at the next polls, and these tries look at
none of them; a first one does not look at the table either. So sends are justified in the runs in which nothing
opposes what is still to be sent (`justified_of_unopposed`), a screener can add an entry again that it has read as
removed (`retry_not_justified`), and it can send on a mint that it has just found itself without the role for
(`noRole_not_justified`).
-/

namespace ThawGate.Screener

open Function
open Keeper (EntryRead)

/-! ### What is known -/

/-- The score of the last verdict on a wallet. -/
def lastVerdict (wallet : Pubkey) : List Label → Option Rat
  | [] => none
  | .verdict _ v _ :: h => if v.wallet = wallet then some v.score else lastVerdict wallet h
  | _ :: h => lastVerdict wallet h

/-- Since the entry was last removed, the screener has read it or had a verdict on its wallet. -/
def noticed (pair : Pair) : List Label → Bool
  | [] => false
  | .removed q :: h => if q = pair then false else noticed pair h
  | .entryRead q _ :: h => if q = pair then true else noticed pair h
  | .verdict _ v _ :: h => if v.wallet = pair.wallet then true else noticed pair h
  | _ :: h => noticed pair h

/-- What is known of a pair supports that its wallet is added: the wallet is not exempt, its last verdict is at or above
the threshold, and no operator has removed the entry before the screener last read it or had a verdict. -/
structure Stands (cfg : Config) (h : List Label) (registry : Pair → EntryRead) (pair : Pair) : Prop where
  notExempt : pair.wallet ∉ cfg.exempt
  verdict : ∃ score, lastVerdict pair.wallet h = some score ∧ cfg.threshold ≤ score
  entry : ¬(registry pair = .inactive ∧ noticed pair h)

/-- A send for the pair is justified: the screener has the mint as eligible, and this is no dry run. -/
structure Justified (cfg : Config) (h : List Label) (s : State) (pair : Pair) : Prop
    extends Stands cfg h s.registry pair where
  eligible : s.Eligible pair.mint
  live : cfg.dryRun = false

/-- The calls of `addToBlacklist` that a step makes. -/
def State.Starts (s s' : State) (x : Send) : Prop := x ∈ s'.outbox.sends ∧ x ∉ s.outbox.sends

/-- A pair that is still to be sent. -/
def State.Outstanding (s : State) (pair : Pair) : Prop :=
  s.outbox.IsPending pair ∨ ∃ todo p, s.phase = .flushing todo ∧ p ∈ todo ∧ p.pair = pair

/-- A step that finds nothing against what is still to be sent: no read of a removed entry, no verdict below the
threshold, none at or above it where an entry was removed, and a mint at stake stays eligible. -/
structure Unopposed (cfg : Config) (s : State) (label : Label) (s' : State) : Prop where
  learned : match label with
    | .entryRead pair entry => s.Outstanding pair → entry ≠ .inactive
    | .verdict _ v _ => ∀ pair, pair.wallet = v.wallet →
      if cfg.threshold ≤ v.score then s.Outstanding pair ∨ pair.mint ∈ v.open_ → s.registry pair ≠ .inactive
      else ¬s.Outstanding pair
    | _ => True
  unrevoked : Unrevoked cfg s label

/-! ### The invariant -/

/-- What is still to be sent stands. -/
structure Vouched (cfg : Config) (h : List Label) (s : State) : Prop where
  keyed : s.outbox.Keyed
  stands : ∀ {pair : Pair}, s.Outstanding pair → Stands cfg h s.registry pair

variable {cfg : Config} {s s' : State} {label : Label} {h : List Label} {pair : Pair}

/-- A label that tells nothing of verdicts and entries. -/
def Label.Silent : Label → Prop
  | .removed _ | .entryRead _ _ | .verdict _ _ _ => False
  | _ => True

theorem Stands.silent (hst : Stands cfg h s.registry pair) (hl : label.Silent) (hreg : s'.registry pair = s.registry pair) :
    Stands cfg (label :: h) s'.registry pair := by
  have hverdict : lastVerdict pair.wallet (label :: h) = lastVerdict pair.wallet h := by
    cases label <;> first | rfl | exact hl.elim
  have hnoticed : noticed pair (label :: h) = noticed pair h := by
    cases label <;> first | rfl | exact hl.elim
  refine ⟨hst.notExempt, ?_, ?_⟩
  · rw [hverdict]
    exact hst.verdict
  · rw [hreg, hnoticed]
    exact hst.entry

theorem State.isPending_of_le
    (hpending : ∀ {pair p}, s'.outbox.pending.lookup pair = some p → s.outbox.pending.lookup pair = some p)
    (hp : s'.outbox.IsPending pair) : s.Outstanding pair := by
  obtain ⟨p, hp⟩ := Option.isSome_iff_exists.1 hp
  exact .inl (Option.isSome_iff_exists.2 ⟨p, hpending hp⟩)

/-- A step that adds nothing to what is to be sent and learns nothing. -/
theorem Vouched.silent (hv : Vouched cfg h s) (hl : label.Silent) (hreg : s'.registry = s.registry)
    (hpending : ∀ {pair p}, s'.outbox.pending.lookup pair = some p → s.outbox.pending.lookup pair = some p)
    (hflush : ∀ todo p, s'.phase = .flushing todo → p ∈ todo → s.Outstanding p.pair) : Vouched cfg (label :: h) s' := by
  refine ⟨fun h => hv.keyed (hpending h), ?_⟩
  intro pair ho
  refine (hv.stands ?_).silent hl (congrFun hreg pair)
  obtain hp | ⟨todo, p, hphase, hp, rfl⟩ := ho
  · exact State.isPending_of_le hpending hp
  · exact hflush todo p hphase hp

/-- One that does not flush. -/
theorem Vouched.quiet (hv : Vouched cfg h s) (hl : label.Silent) (hreg : s'.registry = s.registry)
    (hpending : ∀ {pair p}, s'.outbox.pending.lookup pair = some p → s.outbox.pending.lookup pair = some p)
    (hphase : ∀ todo, s'.phase = .flushing todo → s.phase = .flushing todo) : Vouched cfg (label :: h) s' := by
  refine hv.silent hl hreg hpending ?_
  intro todo p hflushing hp
  exact .inr ⟨todo, p, hphase todo hflushing, hp, rfl⟩

/-! ### The steps -/

theorem Vouched.tracked (hv : Vouched cfg h s) (seen : List (Pubkey × Bool)) (byWallet : Map Pubkey Holdings) :
    Vouched cfg (.tracked seen :: h) (s.tracked seen byWallet) := by
  obtain ⟨wallets, object, created, htrack⟩ := s.track_eq byWallet
  unfold State.tracked
  rw [htrack]
  refine hv.silent trivial rfl id ?_
  intro todo p hphase hp
  obtain rfl := Phase.flushing.inj hphase
  obtain ⟨pair, hpair⟩ := Map.mem_values_iff.1 (List.mem_reverse.1 hp)
  rw [hv.keyed hpair]
  exact .inl (Option.isSome_iff_exists.2 ⟨p, hpair⟩)

theorem Vouched.flushed (hv : Vouched cfg h s) {p : Pending} {todo : List Pending}
    (hphase : s.phase = .flushing (p :: todo)) : Vouched cfg (.flushed :: h) (s.flushOne cfg p todo) := by
  have hflush (todo' : List Pending) (q : Pending) (h : Phase.flushing todo = .flushing todo') (hq : q ∈ todo') :
      s.Outstanding q.pair := by
    obtain rfl := Phase.flushing.inj h
    exact .inr ⟨_, q, hphase, List.mem_cons_of_mem _ hq, rfl⟩
  unfold State.flushOne
  dsimp only
  split
  · refine hv.silent trivial rfl ?_ hflush
    exact fun h => (Map.lookup_erase_eq_some.1 h).2
  · exact hv.silent trivial rfl Outbox.lookup_blacklist hflush

theorem Vouched.dueTaken (hv : Vouched cfg h s) : Vouched cfg (.dueTaken :: h) (s.takeDue cfg) := by
  refine hv.quiet trivial rfl id ?_
  intro todo hphase
  unfold State.takeDue at hphase
  dsimp only at hphase
  split_ifs at hphase

theorem Vouched.asked (hv : Vouched cfg h s) (t : Screening) (i : Nat) : Vouched cfg (.asked i :: h) (s.ask i t) := by
  unfold State.ask
  dsimp only
  split_ifs
  · exact hv.quiet trivial rfl id fun _ => id
  · exact hv.quiet trivial rfl id fun _ => id

theorem Vouched.answered (hv : Vouched cfg h s) (x : Send) (i : Nat) (a : Answer) :
    Vouched cfg (.answered i a :: h) ((s.arrived i).settle x a.outcome) := by
  have hsettles := (s.arrived i).settles x a.outcome
  refine hv.quiet trivial hsettles.registry hsettles.pending ?_
  intro todo hphase
  obtain hkept | hidle := hsettles.phase
  · exact hkept.symm.trans hphase
  · rw [hidle] at hphase
    contradiction

/-! ### What the screener learns -/

theorem Vouched.added (hv : Vouched cfg h s) (q : Pair) :
    Vouched cfg (.added q :: h) { s with registry := update s.registry q .active } := by
  refine ⟨hv.keyed, ?_⟩
  intro pair ho
  have hst : Stands cfg h s.registry pair := hv.stands ho
  obtain rfl | hne := eq_or_ne pair q
  · refine ⟨hst.notExempt, hst.verdict, ?_⟩
    intro ⟨hinactive, _⟩
    dsimp only at hinactive
    rw [update_self] at hinactive
    contradiction
  · exact hst.silent trivial (update_of_ne hne _ _)

theorem Vouched.removed (hv : Vouched cfg h s) (q : Pair) :
    Vouched cfg (.removed q :: h) { s with registry := update s.registry q .inactive } := by
  refine ⟨hv.keyed, ?_⟩
  intro pair ho
  have hst : Stands cfg h s.registry pair := hv.stands ho
  refine ⟨hst.notExempt, hst.verdict, ?_⟩
  intro ⟨hinactive, hnoticed⟩
  dsimp only at hinactive
  obtain rfl | hne := eq_or_ne pair q
  · simp [noticed] at hnoticed
  · rw [noticed, if_neg hne.symm] at hnoticed
    rw [update_of_ne hne] at hinactive
    exact hst.entry ⟨hinactive, hnoticed⟩

theorem Vouched.entryRead (hv : Vouched cfg h s) {toScreen : List Ref} {todo : List Pair}
    {entryOf : Map Pair EntryRead} {version : Option String} {q : Pair}
    (hu : s.Outstanding q → s.registry q ≠ .inactive) :
    Vouched cfg (.entryRead q (s.registry q) :: h) { s with phase := .entries toScreen todo entryOf version } := by
  refine ⟨hv.keyed, ?_⟩
  intro pair ho
  have ho : s.Outstanding pair := by
    obtain hp | ⟨_, _, hflushing, -⟩ := ho
    · exact .inl hp
    · exact nomatch hflushing
  have hst := hv.stands ho
  refine ⟨hst.notExempt, hst.verdict, ?_⟩
  intro ⟨hinactive, hnoticed⟩
  obtain rfl | hne := eq_or_ne q pair
  · exact hu ho hinactive
  · rw [noticed, if_neg hne] at hnoticed
    exact hst.entry ⟨hinactive, hnoticed⟩

/-- After a verdict, what was outstanding stands, and so does what the verdict flags. -/
theorem Vouched.stands_of_verdict (hv : Vouched cfg h s) {i : Nat} {v : Verdict} {reason : String}
    (hu : Unopposed cfg s (.verdict i v reason) s') (hexempt : v.wallet ∉ cfg.exempt)
    (ho : s.Outstanding pair ∨ cfg.threshold ≤ v.score ∧ pair.wallet = v.wallet ∧ pair.mint ∈ v.open_) :
    Stands cfg (.verdict i v reason :: h) s.registry pair := by
  obtain hw | hw := eq_or_ne v.wallet pair.wallet
  · have hpair := hu.learned pair hw.symm
    by_cases hscore : cfg.threshold ≤ v.score
    · rw [if_pos hscore] at hpair
      have hentry := hpair (ho.imp_right fun h => h.2.2)
      refine ⟨hw ▸ hexempt, ⟨v.score, if_pos hw, hscore⟩, ?_⟩
      exact fun h => hentry h.1
    · rw [if_neg hscore] at hpair
      obtain ho | h := ho
      · exact absurd ho hpair
      · exact absurd h.1 hscore
  · have hst := hv.stands (ho.resolve_right fun h => hw h.2.1.symm)
    refine ⟨hst.notExempt, ?_, ?_⟩
    · rw [lastVerdict, if_neg hw]
      exact hst.verdict
    · rw [noticed, if_neg hw]
      exact hst.entry

theorem Vouched.verdict (hv : Vouched cfg h s) {t : Screening} {open_ : List Pubkey} {i : Nat} {score : Rat}
    {reason : String} (hexempt : t.ref.wallet ∉ cfg.exempt)
    (hu : Unopposed cfg s (.verdict i ⟨t.ref.wallet, score, s.now, t.version, open_⟩ reason) s') :
    Vouched cfg (.verdict i ⟨t.ref.wallet, score, s.now, t.version, open_⟩ reason :: h)
      (s.conclude cfg i t open_ score reason) := by
  have hout : (s.conclude cfg i t open_ score reason).outbox.Keyed ∧
      ∀ {pair}, (s.conclude cfg i t open_ score reason).outbox.IsPending pair →
        s.Outstanding pair ∨ cfg.threshold ≤ score ∧ pair.wallet = t.ref.wallet ∧ pair.mint ∈ open_ := by
    unfold State.conclude State.judge
    dsimp only
    split_ifs with hscore
    · refine ⟨Outbox.Keyed.flagAll hv.keyed _, ?_⟩
      intro pair hp
      obtain hflagged | hp := Outbox.isPending_flagAll hp
      · obtain ⟨mint, hmint, rfl⟩ := List.mem_map.1 hflagged
        exact .inr ⟨hscore, rfl, hmint⟩
      · exact .inl (.inl hp)
    · exact ⟨hv.keyed, fun hp => .inl (.inl hp)⟩
  refine ⟨hout.1, ?_⟩
  intro pair ho
  refine hv.stands_of_verdict hu hexempt ?_
  obtain hp | hflushing := ho
  · exact hout.2 hp
  · exact .inl (.inr hflushing)

/-- **Step.** -/
theorem Vouched.step (hv : Vouched cfg h s) (hu : Unopposed cfg s label s') (hs : Step cfg s label s')
    (hscreens : ∀ ref, s.Screens ref → ref.wallet ∉ cfg.exempt) : Vouched cfg (label :: h) s' := by
  cases hs with
  | added q => exact hv.added q
  | removed q => exact hv.removed q
  | tracked seen byWallet => exact hv.tracked seen byWallet
  | flushed p todo hphase => exact hv.flushed hphase
  | dueTaken => exact hv.dueTaken
  | entryRead => exact hv.entryRead hu.learned
  | asked t i => exact hv.asked t i
  | verdict t open_ i score reason ht =>
    exact hv.verdict (hscreens t.ref (.inl ⟨t, List.mem_of_getElem? ht, rfl⟩)) hu
  | answered x i a => exact hv.answered x i a
  | providerFailed => exact hv.quiet trivial rfl id fun _ => id
  | tick => exact hv.quiet trivial rfl id fun _ => id
  | versionChanged => exact hv.quiet trivial rfl id fun _ => id
  | keeperDown => exact hv.quiet trivial rfl id fun _ => id
  | polled => exact hv.quiet trivial rfl id nofun
  | skippedMint => exact hv.quiet trivial rfl id nofun
  | mintUnreadable => exact hv.quiet trivial rfl id nofun
  | readMint => exact hv.quiet trivial rfl id nofun
  | entriesFailed => exact hv.quiet trivial rfl id nofun
  | screensStarted => exact hv.quiet trivial rfl id nofun
  | finished => exact hv.quiet trivial rfl id nofun

theorem vouched_of_unopposed (r : ((screener cfg).restrict (Unopposed cfg)).Run h s) : Vouched cfg h s := by
  refine r.invariant (I := Vouched cfg) ?_ ?_
  · intro s ⟨now, version, registry, hs⟩
    subst hs
    have hnone (pair : Pair) : (∅ : Map Pair Pending).lookup pair = none := AList.lookup_empty _
    refine ⟨?_, ?_⟩
    · intro pair p hp
      rw [State.initial, hnone] at hp
      contradiction
    · intro pair ho
      obtain hp | ⟨_, _, hflushing, -⟩ := ho
      · rw [State.initial, Outbox.IsPending, hnone] at hp
        contradiction
      · cases hflushing
  · intro h s label s' r hv hs
    exact hv.step hs.1 hs.2 fun ref => not_exempt_of_screens r.of_restrict

theorem backed_of_unopposed (r : ((screener cfg).restrict (Unopposed cfg)).Run h s) : Backed s := by
  refine r.invariant (I := fun _ => Backed) ?_ ?_
  · intro s ⟨now, version, registry, hs⟩
    exact hs ▸ .initial
  · exact fun h s label s' r hb hs => hb.step (grounded_of_run r.of_restrict) hs.1.unrevoked hs.2

/-! ### Sends -/

/-- **Run.** While nothing opposes what is still to be sent, every send is justified. -/
theorem justified_of_unopposed {x : Send} (r : ((screener cfg).restrict (Unopposed cfg)).Run h s)
    (hs : ((screener cfg).restrict (Unopposed cfg)).step s label s') (hx : s.Starts s' x) :
    Justified cfg (label :: h) s' x.request.pair := by
  have hv := vouched_of_unopposed r
  have hb := backed_of_unopposed r
  obtain ⟨hu, hs⟩ := hs
  obtain ⟨hsent, hnew⟩ := hx
  cases hs with
  | flushed p todo hphase hsends =>
    have hst : Stands cfg (.flushed :: h) (s.flushOne cfg p todo).registry p.pair := by
      refine (hv.stands (.inr ⟨_, _, hphase, List.mem_cons_self, rfl⟩)).silent trivial ?_
      unfold State.flushOne
      dsimp only
      split <;> rfl
    have helig (haccount : (s.accountOf p.pair).isSome) : (s.flushOne cfg p todo).Eligible p.pair.mint := by
      unfold State.Eligible
      rw [State.flushOne_eligible]
      exact hb.of_flushing hphase haccount
    unfold State.flushOne at hsent
    dsimp only at hsent
    split at hsent
    · exact absurd hsent hnew
    · obtain ⟨hrequest, haccount, hdry⟩ := (Outbox.mem_sends_blacklist hsent).resolve_left hnew
      rw [hrequest]
      exact ⟨hst, helig haccount, hdry⟩
  | verdict t open_ i score reason ht hw =>
    have hexempt := not_exempt_of_screens r.of_restrict (.inl ⟨t, List.mem_of_getElem? ht, rfl⟩)
    unfold State.conclude State.judge at hsent
    dsimp only at hsent
    split_ifs at hsent with hscore
    · obtain ⟨hpair, haccount, hdry⟩ := (Outbox.mem_sends_flagAll hv.keyed hsent).resolve_left hnew
      obtain ⟨mint, hmint, hpair⟩ := List.mem_map.1 hpair
      have hwallet : t.ref.wallet = x.request.pair.wallet := congrArg Pair.wallet hpair
      have hopen : x.request.pair.mint ∈ open_ := hpair ▸ hmint
      exact ⟨hv.stands_of_verdict hu hexempt (.inr ⟨hscore, hwallet.symm, hopen⟩),
        hb.of_asked ht hw hwallet hopen haccount, hdry⟩
    · exact absurd hsent hnew
  | tracked seen byWallet hphase =>
    obtain ⟨wallets, object, created, htrack⟩ := s.track_eq byWallet
    unfold State.tracked at hsent
    rw [htrack] at hsent
    exact absurd hsent hnew
  | answered x i a hx ha =>
    rw [((s.arrived i).settles x a.outcome).sends] at hsent
    exact absurd (List.mem_of_mem_eraseIdx hsent) hnew
  | asked t i ht hw =>
    unfold State.ask at hsent
    dsimp only at hsent
    split_ifs at hsent
    · exact absurd hsent hnew
    · exact absurd hsent hnew
  | _ => exact absurd hsent hnew

/-! ### Sends that something opposes -/

def sampleConfig : Config := ⟨8, 86400000, none, none, [], false⟩

def sampleMint : KeeperMint := ⟨sampleKey 2, sssTokenId, true⟩

def samplePair : Pair := ⟨sampleKey 2, sampleKey 5⟩

/-- Account 6 of wallet 5. -/
def sampleHolders : List KeeperAccount := [⟨sampleKey 6, sampleKey 5, .initialized⟩]

def sampleStart : State := .initial 0 (some "1") fun _ => .none

/-- In a first poll, the provider is asked about wallet 5. -/
def sampleAsked : { s : State // ((screener sampleConfig).restrict (Unopposed sampleConfig)).Run
    [.asked 0, .screensStarted, .entryRead samplePair .none, .dueTaken, .tracked [(sampleKey 2, true)],
      .readMint (some true) sampleHolders, .polled [sampleMint]] s } :=
  have r₀ : ((screener sampleConfig).restrict (Unopposed sampleConfig)).Run [] sampleStart := .start ⟨_, _, _, rfl⟩
  ⟨_, r₀.step_restrict (Step.polled _ [sampleMint] rfl) ⟨trivial, trivial⟩
    |>.step_restrict (Step.readMint _ _ _ _ _ _ (some true) sampleHolders rfl rfl) ⟨trivial, trivial⟩
    |>.step_restrict (Step.tracked _ _ _ rfl) ⟨trivial, trivial⟩
    |>.step_restrict (Step.dueTaken _ rfl (by decide +kernel)) ⟨trivial, .dueTaken (by decide +kernel)⟩
    |>.step_restrict (Step.entryRead _ _ _ _ _ samplePair rfl (by decide +kernel)) ⟨fun _ => nofun, trivial⟩
    |>.step_restrict (Step.screensStarted _ _ _ _ rfl) ⟨trivial, trivial⟩
    |>.step_restrict (Step.asked _ _ 0 rfl rfl) ⟨trivial, trivial⟩⟩

theorem justified_of_unopposed_sample : ∃ (h : List Label) (s : State), Justified sampleConfig h s samplePair := by
  refine ⟨_, _, justified_of_unopposed (x := ⟨⟨0, samplePair, "static:demo", 10, 0⟩, sampleKey 6, 1⟩) sampleAsked.2
    ⟨⟨?_, ?_⟩, Step.verdict _ _ _ 0 10 "static:demo" rfl rfl⟩ ⟨by decide +kernel, by decide +kernel⟩⟩
  · intro pair _
    rw [if_pos (by decide +kernel)]
    exact fun _ => nofun
  · trivial

/-- The provider flags wallet 5, and the send lands but comes back as failed. An operator removes the entry. The next
poll tries again, which comes back as failed, and reads the entry as removed; the poll after it sends a third time. -/
theorem retry_not_justified : ∃ (h : List Label) (s s' : State) (label : Label) (x : Send),
    (screener sampleConfig).Run h s ∧ Step sampleConfig s label s' ∧ s.Starts s' x ∧
      ¬Justified sampleConfig (label :: h) s' x.request.pair := by
  have r₁ := sampleAsked.2.of_restrict.step (Step.verdict _ _ _ 0 10 "static:demo" rfl rfl)
    |>.step (Step.added _ samplePair (by decide +kernel))
    |>.step (Step.removed _ samplePair (by decide +kernel))
    |>.step (Step.answered _ _ 0 .exhausted rfl trivial)
    |>.step (Step.finished _ rfl (by decide +kernel) (by decide +kernel))
  have r₂ := r₁.step (Step.versionChanged _ "2" rfl)
    |>.step (Step.polled _ [sampleMint] rfl)
    |>.step (Step.readMint _ _ _ _ _ _ none sampleHolders rfl rfl)
    |>.step (Step.tracked _ _ _ rfl)
    |>.step (Step.flushed _ _ _ rfl (by decide +kernel))
    |>.step (Step.answered _ _ 0 .exhausted rfl trivial)
    |>.step (Step.dueTaken _ rfl (by decide +kernel))
    |>.step (Step.entryRead _ _ _ _ _ samplePair rfl (by decide +kernel))
    |>.step (Step.screensStarted _ _ _ _ rfl)
    |>.step (Step.asked _ _ 0 rfl rfl)
    |>.step (Step.finished _ rfl (by decide +kernel) (by decide +kernel))
  have r₃ := r₂.step (Step.polled _ [sampleMint] rfl)
    |>.step (Step.readMint _ _ _ _ _ _ none sampleHolders rfl rfl)
    |>.step (Step.tracked _ _ _ rfl)
  refine ⟨_, _, _, _, ⟨⟨0, samplePair, "static:demo", 10, 0⟩, sampleKey 6, 3⟩, r₃,
    Step.flushed _ _ _ rfl (by decide +kernel), ⟨by decide +kernel, by decide +kernel⟩, ?_⟩
  intro hj
  exact hj.entry ⟨by decide +kernel, by decide +kernel⟩

theorem answered_of_outcome {x : Send} {i : Nat} {a : Answer} {outcome : Option SendOutcome} (ho : a.outcome = outcome)
    (hx : s.outbox.sends[i]? = some x) (ha : Possible (s.registry x.request.pair) outcome) :
    Step cfg s (.answered i a) ((s.arrived i).settle x outcome) := by
  subst ho
  exact .answered s x i a hx ha

/-- The provider flags wallet 8, and the send comes back as without the role. It flags wallet 5, which was asked about
at the same time, and the screener sends on a mint that it has as not eligible. -/
theorem noRole_not_justified : ∃ (h : List Label) (s s' : State) (label : Label) (x : Send),
    (screener sampleConfig).Run h s ∧ Step sampleConfig s label s' ∧ s.Starts s' x ∧
      ¬Justified sampleConfig (label :: h) s' x.request.pair := by
  have hrole : (Answer.refused "BlacklisterNotFound").outcome = some .noRole := by decide +kernel
  have r₀ : (screener sampleConfig).Run [] sampleStart := .start ⟨_, _, _, rfl⟩
  have r₁ := r₀.step (Step.polled _ [sampleMint] rfl)
    |>.step (Step.readMint _ _ _ _ _ _ (some true) (⟨sampleKey 9, sampleKey 8, .initialized⟩ :: sampleHolders) rfl rfl)
    |>.step (Step.tracked _ _ _ rfl)
    |>.step (Step.dueTaken _ rfl (by decide +kernel))
    |>.step (Step.entryRead _ _ _ _ _ samplePair rfl (by decide +kernel))
    |>.step (Step.entryRead _ _ _ _ _ ⟨sampleKey 2, sampleKey 8⟩ rfl (by decide +kernel))
    |>.step (Step.screensStarted _ _ _ _ rfl)
    |>.step (Step.asked _ _ 0 rfl rfl)
    |>.step (Step.asked _ _ 1 rfl rfl)
    |>.step (Step.verdict _ _ _ 0 10 "static:demo" rfl rfl)
    |>.step (answered_of_outcome (i := 0) hrole rfl trivial)
  refine ⟨_, _, _, _, ⟨⟨1, samplePair, "static:demo", 10, 0⟩, sampleKey 6, 1⟩, r₁,
    Step.verdict _ _ _ 0 10 "static:demo" rfl rfl, ⟨by decide +kernel, by decide +kernel⟩, ?_⟩
  intro hj
  have heligible := hj.eligible
  revert heligible
  decide +kernel

end ThawGate.Screener
