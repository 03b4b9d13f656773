import ThawGate.Screener.Tracking

/-!
# Eligible mints

The screener asks for a mint's eligibility when a poll reads the keeper, and sends later: a send looks for an account of
the wallet on the mint and no more. So a mint that is not eligible any more is still sent to, by the sends and the
screenings that are outstanding then. `Unrevoked` are the steps that leave none of these behind, and in their runs
what may still be sent is eligible (`Backed.step`).
-/

namespace ThawGate.Screener

open Function
open Keeper (EntryRead)

namespace State

variable (s : State)

/-- The wallet is tracked, and holds the mint. -/
def Held (pair : Pair) : Prop :=
  ∃ id, s.wallets.lookup pair.wallet = some id ∧ ((s.object ⟨pair.wallet, id⟩).holdings.lookup pair.mint).isSome

/-- A verdict of the screening may flag its wallet on the mint. -/
def Concerns (t : Screening) (mint : Pubkey) : Prop :=
  match t.stage with
  | .waiting => mint ∈ (s.object t.ref).holdings.keys
  | .asked open_ => mint ∈ open_

/-- The poll is to send for the pair again, or its wallet is being screened for the mint, or will be in this poll. -/
def Upcoming (pair : Pair) : Prop :=
  (∃ todo p, s.phase = .flushing todo ∧ p ∈ todo ∧ p.pair = pair) ∨
    (∃ toScreen todo entryOf version ref, s.phase = .entries toScreen todo entryOf version ∧ ref ∈ toScreen ∧
      ref.wallet = pair.wallet ∧ pair.mint ∈ (s.object ref).holdings.keys) ∨
    ∃ t ∈ s.screenings, t.ref.wallet = pair.wallet ∧ s.Concerns t pair.mint

/-- Sends for the mint may start before the keeper is read again: it is read as eligible already, or a wallet that holds
it is upcoming. -/
def AtStake (mint : Pubkey) : Prop :=
  (∃ todo seen byWallet, s.phase = .reading todo seen byWallet ∧ (mint, true) ∈ seen) ∨
    ∃ wallet, s.Held ⟨mint, wallet⟩ ∧ s.Upcoming ⟨mint, wallet⟩

end State

/-- A step that takes no eligibility from what may still be sent: no read skips a mint that is at stake, no send for one
comes back as without the role, and no wallet is taken up for screening that holds a mint which is not eligible any
more. -/
def Unrevoked (cfg : Config) (s : State) : Label → Prop
  | .skippedMint _ => ∀ {m todo seen byWallet}, s.phase = .reading (m :: todo) seen byWallet → ¬s.AtStake m.mint
  | .answered i a => ∀ x, s.outbox.sends[i]? = some x → a.outcome = some .noRole → ¬s.AtStake x.request.pair.mint
  | .dueTaken =>
    ∀ ref ∈ s.due cfg, ref.wallet ∉ cfg.exempt → ∀ mint ∈ (s.object ref).holdings.keys, s.Eligible mint
  | _ => True

theorem Unrevoked.dueTaken {cfg : Config} {s : State}
    (h : ∀ ref ∈ s.due cfg, ref.wallet ∉ cfg.exempt → ∀ mint ∈ (s.object ref).holdings.keys, s.Eligible mint) :
    Unrevoked cfg s .dueTaken := h

/-! ### The table -/

section table

variable {cfg : Config} {now : Nat} {eligible eligible' : Map Pubkey Eligibility} {m : KeeperMint} {role : Option Bool}
  {ok : Bool} {mint : Pubkey}

/-- `isEligible` answers what it leaves in the table, and leaves the other mints. -/
theorem isEligible_cases (h : isEligible cfg now eligible m role = (ok, eligible')) :
    (eligible'.lookup m.mint).any (·.ok) = ok ∧
      ∀ mint, mint ≠ m.mint → eligible'.lookup mint = eligible.lookup mint := by
  have hjudge {why : Why} (hj : (decide (why = .eligible),
        eligible.insert m.mint ⟨decide (why = .eligible), why, now⟩) = (ok, eligible')) :
      (eligible'.lookup m.mint).any (·.ok) = ok ∧
        ∀ mint, mint ≠ m.mint → eligible'.lookup mint = eligible.lookup mint := by
    obtain ⟨rfl, rfl⟩ := Prod.mk.inj hj
    refine ⟨?_, fun mint hne => AList.lookup_insert_ne hne⟩
    rw [AList.lookup_insert]
    rfl
  unfold isEligible at h
  dsimp only at h
  split at h
  · exact hjudge h
  · split at h
    · rename_i k hk
      obtain ⟨rfl, rfl⟩ := Prod.mk.inj h
      rw [(Option.filter_eq_some_iff.1 hk).1]
      exact ⟨rfl, fun _ _ => rfl⟩
    · exact hjudge h

end table

variable {cfg : Config} {s s' : State} {label : Label} {h : List Label} {pair : Pair} {mint : Pubkey}

/-! ### What is at stake -/

theorem State.Held.before (hh : s'.Held pair) (hsame : SameHoldings s s') : s.Held pair := by
  obtain ⟨id, hid, hholds⟩ := hh
  rw [hsame.wallets] at hid
  rw [hsame.holdings] at hholds
  exact ⟨id, hid, hholds⟩

theorem State.held_of_account (haccount : (s.accountOf pair).isSome) : s.Held pair := by
  obtain ⟨id, accounts, hid, haccounts, -⟩ := State.accountOf_isSome.1 haccount
  exact ⟨id, hid, Option.isSome_iff_exists.2 ⟨accounts, haccounts⟩⟩

/-- A screening concerns no other mints than before. -/
theorem State.Concerns.before {t : Screening} (hc : s'.Concerns t mint) (hsame : SameHoldings s s') :
    s.Concerns t mint := by
  unfold State.Concerns at *
  cases hstage : t.stage with
  | waiting =>
    rw [hstage] at hc
    dsimp only at hc ⊢
    rwa [hsame.holdings] at hc
  | asked open_ =>
    rw [hstage] at hc
    exact hc

/-- A poll that rests has nothing upcoming of its own. -/
theorem State.Upcoming.quiet (hu : s'.Upcoming pair) (hsame : SameHoldings s s')
    (hscreenings : ∀ t ∈ s'.screenings, s.Concerns t pair.mint →
      ∃ t₀ ∈ s.screenings, t₀.ref = t.ref ∧ s.Concerns t₀ pair.mint)
    (hphase : s'.phase = s.phase ∨ s'.phase = .idle ∨ s'.phase = .screening) : s.Upcoming pair := by
  obtain ⟨todo, p, hflushing, hp⟩ | ⟨toScreen, todo, entryOf, version, ref, hentries, href, hwallet, hmint⟩ |
    ⟨t, ht, hwallet, hc⟩ := hu
  · obtain heq | hidle | hscreening := hphase
    · exact .inl ⟨todo, p, heq.symm.trans hflushing, hp⟩
    · exact nomatch hidle.symm.trans hflushing
    · exact nomatch hscreening.symm.trans hflushing
  · rw [hsame.holdings] at hmint
    obtain heq | hidle | hscreening := hphase
    · exact .inr (.inl ⟨toScreen, todo, entryOf, version, ref, heq.symm.trans hentries, href, hwallet, hmint⟩)
    · exact nomatch hidle.symm.trans hentries
    · exact nomatch hscreening.symm.trans hentries
  · obtain ⟨t₀, ht₀, href, hc₀⟩ := hscreenings t ht (hc.before hsame)
    exact .inr (.inr ⟨t₀, ht₀, href ▸ hwallet, hc₀⟩)

theorem State.asked_concerns {t : Screening} (hw : t.stage = .waiting) {i : Nat} {open_ : List Pubkey}
    (ht : s.screenings[i]? = some t) (hopen : ∀ mint ∈ open_, mint ∈ (s.object t.ref).holdings.keys) :
    ∀ t' ∈ s.screenings.set i { t with stage := .asked open_ }, s.Concerns t' mint →
      ∃ t₀ ∈ s.screenings, t₀.ref = t'.ref ∧ s.Concerns t₀ mint := by
  intro t' ht' hc
  obtain ht' | rfl := List.mem_or_eq_of_mem_set ht'
  · exact ⟨t', ht', rfl, hc⟩
  · refine ⟨t, List.mem_of_getElem? ht, rfl, ?_⟩
    rw [State.Concerns, hw]
    exact hopen mint hc

/-! ### The invariant -/

/-- What may still be sent is eligible. -/
def Backed (s : State) : Prop := ∀ mint, s.AtStake mint → s.Eligible mint

theorem Backed.of_upcoming (hb : Backed s) (hsame : SameHoldings s s')
    (heligible : ∀ mint, s.AtStake mint → s.Eligible mint → s'.Eligible mint)
    (hreading : ∀ {todo seen byWallet mint}, s'.phase = .reading todo seen byWallet → (mint, true) ∈ seen →
      s.AtStake mint ∨ s'.Eligible mint)
    (hupcoming : ∀ {pair}, s'.Upcoming pair → s.Upcoming pair) : Backed s' := by
  have hkept (mint : Pubkey) (hstake : s.AtStake mint) : s'.Eligible mint := heligible mint hstake (hb mint hstake)
  intro mint hstake
  obtain ⟨todo, seen, byWallet, hphase, hseen⟩ | ⟨wallet, hh, hu⟩ := hstake
  · exact (hreading hphase hseen).elim (hkept mint) id
  · exact hkept mint (.inr ⟨wallet, hh.before hsame, hupcoming hu⟩)

/-- A step that does not go on with the poll. -/
theorem Backed.quiet (hb : Backed s) (hsame : SameHoldings s s')
    (heligible : ∀ mint, s.AtStake mint → s.Eligible mint → s'.Eligible mint)
    (hscreenings : ∀ mint, ∀ t ∈ s'.screenings, s.Concerns t mint →
      ∃ t₀ ∈ s.screenings, t₀.ref = t.ref ∧ s.Concerns t₀ mint)
    (hphase : s'.phase = s.phase ∨ s'.phase = .idle ∨ s'.phase = .screening) : Backed s' := by
  refine hb.of_upcoming hsame heligible ?_ fun hu => hu.quiet hsame (hscreenings _) hphase
  intro todo seen byWallet mint hreading hseen
  obtain heq | hidle | hscreening := hphase
  · exact .inl (.inl ⟨todo, seen, byWallet, heq.symm.trans hreading, hseen⟩)
  · exact nomatch hidle.symm.trans hreading
  · exact nomatch hscreening.symm.trans hreading

/-- One that only changes the clock, the version, the registry or the outbox, or ends the poll. -/
theorem Backed.still (hb : Backed s) (hsame : SameHoldings s s') (heligible : s'.eligible = s.eligible)
    (hscreenings : ∀ t ∈ s'.screenings, t ∈ s.screenings)
    (hphase : s'.phase = s.phase ∨ s'.phase = .idle ∨ s'.phase = .screening) : Backed s' := by
  refine hb.quiet hsame ?_ (fun _ t ht hc => ⟨t, hscreenings t ht, rfl, hc⟩) hphase
  unfold State.Eligible
  rw [heligible]
  exact fun _ _ he => he

/-! ### The steps -/

/-- A step of the read of one mint, which leaves the other mints' eligibility. -/
theorem Backed.reading (hb : Backed s) (hsame : SameHoldings s s') {m : KeeperMint} {todo todo' : List KeeperMint}
    {seen : List (Pubkey × Bool)} {byWallet byWallet' : Map Pubkey Holdings} {role : Option Bool} {ok : Bool}
    (hphase : s.phase = .reading (m :: todo) seen byWallet)
    (hphase' : s'.phase = .reading todo' ((m.mint, ok) :: seen) byWallet' ∨ s'.phase = .idle)
    (hm : isEligible cfg s.now s.eligible m role = (ok, s'.eligible)) (hscreenings : s'.screenings = s.screenings)
    (hskipped : ok = false → ¬s.AtStake m.mint) : Backed s' := by
  obtain ⟨hok, hother⟩ := isEligible_cases hm
  have helig (mint : Pubkey) (hne : mint ≠ m.mint) (he : s.Eligible mint) : s'.Eligible mint := by
    unfold State.Eligible
    rwa [hother mint hne]
  have hself (hread : ok = true) : s'.Eligible m.mint := hok.trans hread
  refine hb.of_upcoming hsame ?_ ?_ ?_
  · intro mint hstake he
    by_cases hmint : mint = m.mint
    · subst hmint
      cases ok with
      | true => exact hself rfl
      | false => exact absurd hstake (hskipped rfl)
    · exact helig mint hmint he
  · intro todo₁ seen₁ byWallet₁ mint hreading hseen
    obtain hphase' | hidle := hphase'
    · obtain ⟨-, rfl, -⟩ := Phase.reading.inj (hphase'.symm.trans hreading)
      obtain heq | hseen := List.mem_cons.1 hseen
      · obtain ⟨rfl, rfl⟩ := Prod.mk.inj heq
        exact .inr (hself rfl)
      · exact .inl (.inl ⟨_, _, _, hphase, hseen⟩)
    · exact nomatch hidle.symm.trans hreading
  · intro pair hu
    obtain ⟨_, _, hflushing, -⟩ | ⟨_, _, _, _, _, hentries, -⟩ | ⟨t, ht, hwallet, hc⟩ := hu
    · obtain hphase' | hidle := hphase'
      · exact nomatch hphase'.symm.trans hflushing
      · exact nomatch hidle.symm.trans hflushing
    · obtain hphase' | hidle := hphase'
      · exact nomatch hphase'.symm.trans hentries
      · exact nomatch hidle.symm.trans hentries
    · exact .inr (.inr ⟨t, hscreenings ▸ ht, hwallet, hc.before hsame⟩)

/-- After `track`, a wallet holds what the read has seen as eligible. -/
theorem Backed.tracked (hb : Backed s) (hg : Grounded s) {seen : List (Pubkey × Bool)}
    {byWallet : Map Pubkey Holdings} (hphase : s.phase = .reading [] seen byWallet) :
    Backed (s.tracked seen byWallet) := by
  intro mint hstake
  obtain ⟨_, _, _, hreading, -⟩ | ⟨wallet, ⟨id, hid, hholds⟩, -⟩ := hstake
  · exact nomatch hreading
  · obtain ⟨perMint, hperMint, ht⟩ := State.track_cases hid
    have hholdings : ((s.tracked seen byWallet).object ⟨wallet, id⟩).holdings = perMint := by
      obtain ⟨-, heq⟩ | ⟨-, -, -, heq⟩ := ht
      · exact congrArg WalletState.holdings heq
      · exact congrArg WalletState.holdings heq
    dsimp only at hholds
    rw [hholdings] at hholds
    obtain ⟨accounts, haccounts⟩ := Option.isSome_iff_exists.1 hholds
    have hseen := (hg.read hphase hperMint haccounts).2
    have heligible : s.Eligible mint := hb mint (.inl ⟨_, _, _, hphase, hseen⟩)
    have hkept : (s.tracked seen byWallet).eligible.lookup mint = s.eligible.lookup mint :=
      Map.lookup_retain.trans (if_pos (decide_eq_true (List.mem_map_of_mem hseen)))
    unfold State.Eligible
    rwa [hkept]

theorem State.flushOne_eligible {p : Pending} {todo : List Pending} : (s.flushOne cfg p todo).eligible = s.eligible := by
  unfold State.flushOne
  dsimp only
  split <;> rfl

theorem State.ask_eligible {t : Screening} {i : Nat} : (s.ask i t).eligible = s.eligible := by
  unfold State.ask
  dsimp only
  split_ifs <;> rfl

theorem Backed.flushed (hb : Backed s) {p : Pending} {todo : List Pending} (hphase : s.phase = .flushing (p :: todo))
    (hsame : SameHoldings s (s.flushOne cfg p todo)) : Backed (s.flushOne cfg p todo) := by
  have hphase' : (s.flushOne cfg p todo).phase = .flushing todo := by
    unfold State.flushOne
    dsimp only
    split <;> rfl
  have hscreenings : (s.flushOne cfg p todo).screenings = s.screenings := by
    unfold State.flushOne
    dsimp only
    split <;> rfl
  refine hb.of_upcoming hsame ?_ (fun hreading => nomatch hphase'.symm.trans hreading) ?_
  · unfold State.Eligible
    rw [State.flushOne_eligible]
    exact fun _ _ he => he
  · intro pair hu
    obtain ⟨todo', q, hflushing, hq, hpair⟩ | ⟨_, _, _, _, _, hentries, -⟩ | ⟨t, ht, hwallet, hc⟩ := hu
    · obtain rfl := Phase.flushing.inj (hphase'.symm.trans hflushing)
      exact .inl ⟨_, q, hphase, List.mem_cons_of_mem _ hq, hpair⟩
    · exact nomatch hphase'.symm.trans hentries
    · exact .inr (.inr ⟨t, hscreenings ▸ ht, hwallet, hc.before hsame⟩)

/-- Whom a poll takes up holds eligible mints only. -/
theorem Backed.dueTaken (hb : Backed s) (hu : Unrevoked cfg s .dueTaken) (hsame : SameHoldings s (s.takeDue cfg)) :
    Backed (s.takeDue cfg) := by
  intro mint hstake
  show s.Eligible mint
  obtain ⟨_, _, _, hreading, -⟩ | ⟨wallet, hh, hup⟩ := hstake
  · unfold State.takeDue at hreading
    dsimp only at hreading
    split_ifs at hreading
  · obtain ⟨_, _, hflushing, -⟩ | ⟨toScreen, _, _, _, ref, hentries, href, -, hmint⟩ | ⟨t, ht, hwallet, hc⟩ := hup
    · unfold State.takeDue at hflushing
      dsimp only at hflushing
      split_ifs at hflushing
    · rw [hsame.holdings] at hmint
      unfold State.takeDue at hentries
      dsimp only at hentries
      split_ifs at hentries
      obtain ⟨rfl, -⟩ := Phase.entries.inj hentries
      obtain ⟨hdue, hexempt⟩ := List.mem_filter.1 href
      exact hu ref hdue (of_decide_eq_true hexempt) mint hmint
    · exact hb mint (.inr ⟨wallet, hh.before hsame, .inr (.inr ⟨t, ht, hwallet, hc.before hsame⟩)⟩)

theorem Backed.entryRead (hb : Backed s) {toScreen : List Ref} {todo todo' : List Pair}
    {entryOf entryOf' : Map Pair EntryRead} {version : Option String}
    (hphase : s.phase = .entries toScreen todo entryOf version) :
    Backed { s with phase := .entries toScreen todo' entryOf' version } := by
  refine hb.of_upcoming ⟨rfl, rfl, fun _ => rfl⟩ (fun _ _ he => he) nofun ?_
  intro pair hu
  obtain ⟨_, _, hflushing, -⟩ | ⟨toScreen', _, _, _, ref, hentries, href⟩ | hscreening := hu
  · exact nomatch hflushing
  · obtain ⟨rfl, -⟩ := Phase.entries.inj hentries
    exact .inr (.inl ⟨_, _, _, _, ref, hphase, href⟩)
  · exact .inr (.inr hscreening)

theorem Backed.screensStarted (hb : Backed s) {toScreen : List Ref} {todo : List Pair} {entryOf : Map Pair EntryRead}
    {version : Option String} (hphase : s.phase = .entries toScreen todo entryOf version) :
    Backed
      { s with
        screenings := s.screenings ++ toScreen.map fun ref => ⟨ref, version, entryOf, .waiting, s.polls⟩
        phase := .screening } := by
  refine hb.of_upcoming ⟨rfl, rfl, fun _ => rfl⟩ (fun _ _ he => he) nofun ?_
  intro pair hu
  obtain ⟨_, _, hflushing, -⟩ | ⟨_, _, _, _, _, hentries, -⟩ | ⟨t, ht, hwallet, hc⟩ := hu
  · exact nomatch hflushing
  · exact nomatch hentries
  · obtain ht | ht := List.mem_append.1 ht
    · exact .inr (.inr ⟨t, ht, hwallet, hc⟩)
    · obtain ⟨ref, href, rfl⟩ := List.mem_map.1 ht
      exact .inr (.inl ⟨_, _, _, _, ref, hphase, href, hwallet, hc⟩)

theorem Backed.asked (hb : Backed s) {t : Screening} {i : Nat} (ht : s.screenings[i]? = some t) (hw : t.stage = .waiting)
    (hsame : SameHoldings s (s.ask i t)) : Backed (s.ask i t) := by
  have hphase : (s.ask i t).phase = s.phase := by
    unfold State.ask
    dsimp only
    split_ifs <;> rfl
  refine hb.quiet hsame ?_ ?_ (.inl hphase)
  · unfold State.Eligible
    rw [State.ask_eligible]
    exact fun _ _ he => he
  · intro mint
    unfold State.ask
    dsimp only
    split_ifs
    · exact fun t' ht' hc => ⟨t', List.mem_of_mem_eraseIdx ht', rfl, hc⟩
    · exact State.asked_concerns hw ht fun m hm => (List.mem_filter.1 hm).1

/-- Only a send without the role changes the table. -/
theorem State.settle_eligible (s : State) (x : Send) (outcome : Option SendOutcome) (mint : Pubkey)
    (hrole : outcome = some .noRole → mint ≠ x.request.pair.mint) :
    (s.settle x outcome).eligible.lookup mint = s.eligible.lookup mint := by
  unfold State.settle
  split
  · split_ifs <;> rfl
  · rfl
  · rfl
  · exact AList.lookup_insert_ne (hrole rfl)
  all_goals
    split_ifs
    · dsimp only
      split <;> rfl
    · rfl

theorem Backed.answered (hb : Backed s) {x : Send} {i : Nat} {a : Answer} (hx : s.outbox.sends[i]? = some x)
    (hu : Unrevoked cfg s (.answered i a)) : Backed ((s.arrived i).settle x a.outcome) := by
  have hsettles := (s.arrived i).settles x a.outcome
  refine hb.quiet ⟨hsettles.wallets, hsettles.created, hsettles.holdings⟩ ?_ ?_
    (hsettles.phase.imp_right .inl)
  · intro mint hstake he
    unfold State.Eligible
    rw [State.settle_eligible]
    · exact he
    · rintro hrole rfl
      exact hu x hx hrole hstake
  · rw [hsettles.screenings]
    exact fun _ t ht hc => ⟨t, ht, rfl, hc⟩

/-- **Step.** -/
theorem Backed.step (hb : Backed s) (hg : Grounded s) (hu : Unrevoked cfg s label) (hs : Step cfg s label s') :
    Backed s' := by
  have hsame := hs.sameHoldings
  cases hs with
  | tracked seen byWallet hphase => exact hb.tracked hg hphase
  | polled =>
    refine hb.of_upcoming (hsame nofun) (fun _ _ he => he) ?_ fun hup => ?_
    · intro todo seen byWallet mint hreading hseen
      obtain ⟨-, rfl, -⟩ := Phase.reading.inj hreading
      exact absurd hseen List.not_mem_nil
    · obtain ⟨_, _, hflushing, -⟩ | ⟨_, _, _, _, _, hentries, -⟩ | hscreening := hup
      · exact nomatch hflushing
      · exact nomatch hentries
      · exact .inr (.inr hscreening)
  | skippedMint m todo seen byWallet eligible role hphase hm =>
    exact hb.reading (hsame nofun) hphase (.inl rfl) hm rfl fun _ => hu hphase
  | mintUnreadable m todo seen byWallet eligible role hphase hm =>
    exact hb.reading (hsame nofun) hphase (.inr rfl : _ = Phase.reading todo _ byWallet ∨ _) hm rfl nofun
  | readMint m todo seen byWallet eligible role accounts hphase hm =>
    exact hb.reading (hsame nofun) hphase (.inl rfl) hm rfl nofun
  | flushed p todo hphase => exact hb.flushed hphase (hsame nofun)
  | dueTaken => exact hb.dueTaken hu (hsame nofun)
  | entryRead toScreen todo entryOf version pair hphase => exact hb.entryRead hphase
  | screensStarted toScreen entryOf version hphase => exact hb.screensStarted hphase
  | asked t i ht hw => exact hb.asked ht hw (hsame nofun)
  | answered x i a hx => exact hb.answered hx hu
  | verdict => exact hb.still (hsame nofun) rfl (fun _ => List.mem_of_mem_eraseIdx) (.inl rfl)
  | providerFailed => exact hb.still (hsame nofun) rfl (fun _ => List.mem_of_mem_eraseIdx) (.inl rfl)
  | entriesFailed => exact hb.still (hsame nofun) rfl (fun _ => id) (.inr (.inr rfl))
  | finished => exact hb.still (hsame nofun) rfl (fun _ => id) (.inr (.inl rfl))
  | _ => exact hb.still (hsame nofun) rfl (fun _ => id) (.inl rfl)

theorem Backed.initial {now : Nat} {version : Option String} {registry : Pair → EntryRead} :
    Backed (.initial now version registry) := by
  intro mint hstake
  obtain ⟨_, _, _, hreading, -⟩ | ⟨wallet, ⟨id, hid, -⟩, -⟩ := hstake
  · exact nomatch hreading
  · have hnone : (∅ : Map Pubkey Nat).lookup wallet = some id := hid
    rw [AList.lookup_empty] at hnone
    contradiction

/-! ### Sends -/

/-- What is sent again is eligible. -/
theorem Backed.of_flushing (hb : Backed s) {p : Pending} {todo : List Pending}
    (hphase : s.phase = .flushing (p :: todo)) (haccount : (s.accountOf p.pair).isSome) : s.Eligible p.pair.mint :=
  hb _ (.inr ⟨p.pair.wallet, State.held_of_account haccount, .inl ⟨_, p, hphase, List.mem_cons_self, rfl⟩⟩)

/-- What a verdict flags is eligible. -/
theorem Backed.of_asked (hb : Backed s) {t : Screening} {i : Nat} {open_ : List Pubkey}
    (ht : s.screenings[i]? = some t) (hw : t.stage = .asked open_) (hwallet : t.ref.wallet = pair.wallet)
    (hmint : pair.mint ∈ open_) (haccount : (s.accountOf pair).isSome) : s.Eligible pair.mint := by
  refine hb _ (.inr ⟨pair.wallet, State.held_of_account haccount, .inr (.inr ⟨t, List.mem_of_getElem? ht, hwallet, ?_⟩)⟩)
  rw [State.Concerns, hw]
  exact hmint

end ThawGate.Screener
