import ThawGate.Token.Authority
import ThawGate.Token.Effects

/-!
# The supply counters

`total_minted` and `total_burned` are tallies of what the program emitted: `State.Counted` says that the
first is the sum of the mints and the second the sum of the burns and of the seizures, which count as
burns although the tokens only move to a treasury.
-/

namespace ThawGate.Token

open Exec Function

variable {W : Type} {P : Programs W} {now : Int64} {s s' : State W} {h : List Label}

/-! ### What was emitted -/

namespace Event

/-- The mint whose tokens an event is about. -/
def moves : Event → Option Pubkey
  | .tokensMinted mint .. | .tokensBurned mint .. | .tokensSeized mint .. => some mint
  | _ => none

def minted : Event → Nat
  | .tokensMinted _ _ amount .. => amount.toNat
  | _ => 0

def burned : Event → Nat
  | .tokensBurned _ amount .. => amount.toNat
  | _ => 0

def seized : Event → Nat
  | .tokensSeized _ _ _ amount .. => amount.toNat
  | _ => 0

end Event

/-- The events about a mint's tokens. -/
def movesOf (mint : Pubkey) (events : List Event) : List Event := events.filter (·.moves = some mint)

def mintedIn (mint : Pubkey) (events : List Event) : Nat := ((movesOf mint events).map Event.minted).sum

def burnedIn (mint : Pubkey) (events : List Event) : Nat := ((movesOf mint events).map Event.burned).sum

def seizedIn (mint : Pubkey) (events : List Event) : Nat := ((movesOf mint events).map Event.seized).sum

section emitted

variable {mint : Pubkey} {e : Event} {es : List Event}

theorem movesOf_cons_of_moves (he : e.moves = some mint) : movesOf mint (e :: es) = e :: movesOf mint es :=
  List.filter_cons_of_pos (decide_eq_true he)

theorem movesOf_cons_of_ne (he : e.moves ≠ some mint) : movesOf mint (e :: es) = movesOf mint es :=
  List.filter_cons_of_neg (by simpa using he)

end emitted

theorem handlerSetPaused_events {paused : Bool} {refused : SssError} {event : Pubkey → Pubkey → Int64 → Event}
    {x : PauseOrUnpause} (hx : handlerSetPaused paused refused event P now s x = ok s') :
    ∃ c : StablecoinConfig, s'.events = event c.mint x.operator now :: s.events := by
  obtain ⟨c, _, _, sw, -, -, -, -, -, -, hsw, rfl⟩ := handlerSetPaused_ok hx
  refine ⟨c, ?_⟩
  show _ :: sw.events = _ :: s.events
  unfold setMintPaused at hsw
  split_ifs at hsw
  · obtain ⟨w, -, rfl⟩ := cpi_eq_ok.1 hsw
    rfl
  · obtain rfl := Exec.ok.inj hsw
    rfl

/-- What an instruction emits is about the tokens it moves, or about none. -/
theorem exec_emits {ix : Instruction} (hx : exec P now s ix = ok s') :
    ∃ e : Option Event, s'.events = e.toList ++ s.events ∧ ∀ v ∈ e, v.moves = none ∨ v.moves = ix.moves := by
  have some_of {e : Event} (he : e.moves = none ∨ e.moves = ix.moves) (hs : s'.events = e :: s.events) :
      ∃ e : Option Event, s'.events = e.toList ++ s.events ∧ ∀ v ∈ e, v.moves = none ∨ v.moves = ix.moves := by
    refine ⟨some e, hs, ?_⟩
    intro v hv
    obtain rfl := Option.some.inj hv
    exact he
  cases ix with
  | initializeStablecoin x args =>
    obtain ⟨-, -, -, _, _, -, -, rfl⟩ := initializeHandler_ok hx
    exact some_of (.inl rfl) rfl
  | mintTokens x amount =>
    obtain ⟨_, _, _, hm⟩ := mintHandler_ok hx
    refine some_of (.inr ?_) hm.emitted
    rw [← (mintAccount_eq_ok.1 hm.mint).2]
    rfl
  | burnTokens x amount =>
    obtain ⟨_, _, _, _, -, hmint, -, -, -, -, rfl⟩ := burnHandler_ok hx
    refine some_of (.inr ?_) rfl
    rw [← hmint]
    rfl
  | freezeAccount x | thawAccount x =>
    obtain ⟨_, _, _, _, _, _, -, -, -, -, -, -, -, rfl⟩ := handlerFreezeOrThaw_ok hx
    exact some_of (.inl rfl) rfl
  | pause x =>
    obtain ⟨c, hevents⟩ := handlerSetPaused_events hx
    exact some_of (e := .tokensPaused c.mint x.operator now) (.inl rfl) hevents
  | unpause x =>
    obtain ⟨c, hevents⟩ := handlerSetPaused_events hx
    exact some_of (e := .tokensUnpaused c.mint x.operator now) (.inl rfl) hevents
  | updateMinter x minter limit period =>
    obtain ⟨_, _, -, -, -, -, rfl⟩ := handlerUpdateMinter_ok hx
    exact ⟨none, rfl, nofun⟩
  | updateRoles x holder role active =>
    obtain ⟨_, _, -, -, -, -, rfl⟩ := handlerUpdateRoles_ok hx
    exact ⟨none, rfl, nofun⟩
  | transferAuthority x newAuthority =>
    obtain ⟨_, _, -, -, -, -, rfl⟩ := handlerTransferAuthority_ok hx
    exact some_of (.inl rfl) rfl
  | addToBlacklist x reason =>
    obtain ⟨_, _, _, _, -, -, -, -, -, rfl⟩ := handlerAddToBlacklist_ok hx
    exact some_of (.inl rfl) rfl
  | removeFromBlacklist x =>
    obtain ⟨_, _, _, -, -, -, -, -, rfl⟩ := handlerRemoveFromBlacklist_ok hx
    exact some_of (.inl rfl) rfl
  | seize x =>
    obtain ⟨_, _, _, _, _, _, hs⟩ := seizeHandler_ok hx
    refine some_of (.inr ?_) hs.emitted
    rw [← (mintAccount_eq_ok.1 hs.mint).2]
    rfl
  | enableTokenAcl x policy =>
    obtain ⟨_, _, _, -, -, -, -, -, rfl⟩ := enableTokenAclHandler_ok hx
    exact some_of (.inl rfl) rfl
  | setReserveAttestor x attestor maxStaleness =>
    obtain ⟨_, _, _, _, -, -, -, -, -, rfl⟩ := setReserveAttestorHandler_ok hx
    exact some_of (.inl rfl) rfl
  | attestReserves x reserves asOf reportUri =>
    obtain ⟨_, -, -, -, -, -, rfl⟩ := attestReservesHandler_ok hx
    exact some_of (.inl rfl) rfl
  | addToAllowlistV3 x =>
    obtain ⟨_, _, -, -, -, rfl⟩ := addToAllowlistHandler_ok hx
    refine some_of ?_ rfl
    exact .inl rfl
  | removeFromAllowlistV3 x =>
    obtain ⟨_, _, -, -, -, -, rfl⟩ := removeFromAllowlistHandler_ok hx
    exact some_of (.inl rfl) rfl
  | configureConfidentialAccount x | applyPendingBalance x =>
    obtain ⟨_, -, -, rfl⟩ := confidentialHandler_ok hx
    exact some_of (.inl rfl) rfl

/-! ### The configs across an instruction -/

/-- A config is never removed and never changes its mint. -/
theorem exec_config_stays {ix : Instruction} {a : Pda} {c : StablecoinConfig} (hx : exec P now s ix = ok s')
    (hc : s.ledger.configs a = some c) : ∃ c', s'.ledger.configs a = some c' ∧ c'.mint = c.mint := by
  by_cases hix : .role ∈ ix.writes
  · cases ix <;> simp only [Instruction.writes, List.mem_cons, List.not_mem_nil, reduceCtorEq, or_false] at hix
    case initializeStablecoin x args =>
      obtain ⟨⟨-, hv⟩, -, -, _, _, -, -, rfl⟩ := initializeHandler_ok hx
      have hne : a ≠ x.config := by
        intro ha
        rw [ha, Ledger.configs_of_vacant hv] at hc
        contradiction
      exact ⟨c, Ledger.update_eq_some.2 (.inr ⟨hne, hc⟩), rfl⟩
    case updateMinter x minter limit period =>
      obtain ⟨_, _, -, -, -, -, rfl⟩ := handlerUpdateMinter_ok hx
      exact ⟨c, hc, rfl⟩
    case updateRoles x holder role active =>
      obtain ⟨_, _, -, -, -, -, rfl⟩ := handlerUpdateRoles_ok hx
      exact ⟨c, hc, rfl⟩
    case transferAuthority x newAuthority =>
      obtain ⟨d, _, hd, -, -, -, rfl⟩ := handlerTransferAuthority_ok hx
      by_cases ha : a = x.config
      · subst ha
        obtain rfl := Option.some.inj ((configAccount_eq_ok.1 hd).1.symm.trans hc)
        exact ⟨_, Ledger.update_eq_some.2 (.inl ⟨rfl, rfl⟩), rfl⟩
      · exact ⟨c, Ledger.update_eq_some.2 (.inr ⟨ha, hc⟩), rfl⟩
  · have hmap := (exec_sameAuthority hix hx).configs a
    rw [hc, Option.map_some] at hmap
    obtain ⟨c', hc', hfixed⟩ := Option.map_eq_some_iff.1 hmap
    have hmint : c'.fixed.mint = c.fixed.mint := by rw [hfixed]
    exact ⟨c', hc', hmint⟩

/-- A config after an instruction that moves no tokens was there with the same counters, or is new, at
zero, for a mint that had none. -/
theorem exec_config_counters (hl : s.ledger.Authorities P) {ix : Instruction} (hix : ix.moves = none) {a : Pda}
    {c' : StablecoinConfig} (hx : exec P now s ix = ok s') (hc' : s'.ledger.configs a = some c') :
    (∃ c, s.ledger.configs a = some c ∧ c.mint = c'.mint ∧ c.totalMinted = c'.totalMinted ∧
      c.totalBurned = c'.totalBurned) ∨
    (∃ x args, ix = .initializeStablecoin x args ∧ c' = initializeConfig P x args) ∧
      ∀ b d, s.ledger.configs b = some d → d.mint ≠ c'.mint := by
  by_cases hconfig : .config ∈ ix.writes
  · cases ix <;> simp only [Instruction.writes, Instruction.moves, List.mem_cons, List.not_mem_nil, reduceCtorEq,
      or_false] at hix hconfig
    case initializeStablecoin x args =>
      obtain ⟨⟨hat, hv⟩, -, -, _, _, -, -, rfl⟩ := initializeHandler_ok hx
      obtain ⟨-, rfl⟩ | ⟨-, hc'⟩ := Ledger.update_eq_some.1 hc'
      · refine .inr ⟨⟨x, args, rfl, rfl⟩, ?_⟩
        intro b d hd hmint
        have hb := hl.config_at hd
        rw [hmint, show (initializeConfig P x args).mint = x.mint from rfl, ← hat] at hb
        rw [hb, Ledger.configs_of_vacant hv] at hd
        contradiction
      · exact .inl ⟨c', hc', rfl, rfl, rfl⟩
    case pause x =>
      obtain ⟨c, _, _, _, hc, -, -, -, -, -, -, rfl⟩ := handlerSetPaused_ok hx
      obtain ⟨rfl, rfl⟩ | ⟨-, hc'⟩ := Ledger.update_eq_some.1 hc'
      · exact .inl ⟨c, (configAccount_eq_ok.1 hc).1, rfl, rfl, rfl⟩
      · exact .inl ⟨c', hc', rfl, rfl, rfl⟩
    case unpause x =>
      obtain ⟨c, _, _, _, hc, -, -, -, -, -, -, rfl⟩ := handlerSetPaused_ok hx
      obtain ⟨rfl, rfl⟩ | ⟨-, hc'⟩ := Ledger.update_eq_some.1 hc'
      · exact .inl ⟨c, (configAccount_eq_ok.1 hc).1, rfl, rfl, rfl⟩
      · exact .inl ⟨c', hc', rfl, rfl, rfl⟩
    case transferAuthority x newAuthority =>
      obtain ⟨c, _, hc, -, -, -, rfl⟩ := handlerTransferAuthority_ok hx
      obtain ⟨rfl, rfl⟩ | ⟨-, hc'⟩ := Ledger.update_eq_some.1 hc'
      · exact .inl ⟨c, (configAccount_eq_ok.1 hc).1, rfl, rfl, rfl⟩
      · exact .inl ⟨c', hc', rfl, rfl, rfl⟩
  · rw [(exec_frame hx).configs hconfig] at hc'
    exact .inl ⟨c', hc', rfl, rfl, rfl⟩

/-! ### What the counters add up -/

/-- The counters are the sums of what was emitted, and nothing was emitted for a mint without a config. -/
structure State.Counted (s : State W) : Prop where
  minted : ∀ {a c}, s.ledger.configs a = some c → c.totalMinted.toNat = mintedIn c.mint s.events
  burned : ∀ {a c}, s.ledger.configs a = some c →
    c.totalBurned.toNat = burnedIn c.mint s.events + seizedIn c.mint s.events
  configured : ∀ {e mint}, e ∈ s.events → e.moves = some mint → ∃ a c, s.ledger.configs a = some c ∧ c.mint = mint

namespace State.Counted

/-- Tokens of one mint moved: its config's counters grow by what was emitted. -/
theorem moved (hs : s.Counted) (hl : s.ledger.Authorities P) {a : Pda} {c c' : StablecoinConfig} {e : Event}
    (hc : s.ledger.configs a = some c) (hconfigs : s'.ledger.configs = update s.ledger.configs a (some c'))
    (hmint : c'.mint = c.mint) (hevents : s'.events = e :: s.events) (he : e.moves = some c.mint)
    (hminted : c'.totalMinted.toNat = e.minted + c.totalMinted.toNat)
    (hburned : c'.totalBurned.toNat = e.burned + e.seized + c.totalBurned.toNat) : s'.Counted := by
  have hother {b : Pda} {d : StablecoinConfig} (hd : s.ledger.configs b = some d) (hne : b ≠ a) :
      e.moves ≠ some d.mint := by
    rw [he, ne_eq, Option.some.injEq]
    intro h
    exact hne (hl.config_unique hd hc h.symm).1
  refine ⟨?_, ?_, ?_⟩
  · intro b d hd
    rw [hconfigs] at hd
    rw [hevents]
    obtain ⟨-, rfl⟩ | ⟨hne, hd⟩ := Ledger.update_eq_some.1 hd
    · rw [mintedIn, hmint, movesOf_cons_of_moves he, List.map_cons, List.sum_cons, hminted, hs.minted hc, mintedIn]
    · rw [mintedIn, movesOf_cons_of_ne (hother hd hne)]
      exact hs.minted hd
  · intro b d hd
    rw [hconfigs] at hd
    rw [hevents]
    obtain ⟨-, rfl⟩ | ⟨hne, hd⟩ := Ledger.update_eq_some.1 hd
    · rw [burnedIn, seizedIn, hmint, movesOf_cons_of_moves he, List.map_cons, List.map_cons, List.sum_cons,
        List.sum_cons, hburned, hs.burned hc, burnedIn, seizedIn]
      omega
    · rw [burnedIn, seizedIn, movesOf_cons_of_ne (hother hd hne)]
      exact hs.burned hd
  · have hkeep {mint : Pubkey} (h : ∃ b d, s.ledger.configs b = some d ∧ d.mint = mint) :
        ∃ b d, s'.ledger.configs b = some d ∧ d.mint = mint := by
      obtain ⟨b, d, hd, hdm⟩ := h
      rw [hconfigs]
      by_cases hb : b = a
      · subst hb
        obtain rfl := Option.some.inj (hc.symm.trans hd)
        exact ⟨b, c', Ledger.update_eq_some.2 (.inl ⟨rfl, rfl⟩), hmint.trans hdm⟩
      · exact ⟨b, d, Ledger.update_eq_some.2 (.inr ⟨hb, hd⟩), hdm⟩
    intro v mint hv hvm
    rw [hevents] at hv
    obtain rfl | hv := List.mem_cons.1 hv
    · obtain rfl := Option.some.inj (he.symm.trans hvm)
      exact hkeep ⟨a, c, hc, rfl⟩
    · exact hkeep (hs.configured hv hvm)

theorem movesOf_eq_nil (hs : s.Counted) {mint : Pubkey} (hnone : ∀ b d, s.ledger.configs b = some d → d.mint ≠ mint) :
    movesOf mint s.events = [] := by
  refine List.filter_eq_nil_iff.2 ?_
  intro e he hmoves
  obtain ⟨a, c, hc, hmint⟩ := hs.configured he (of_decide_eq_true hmoves)
  exact hnone a c hc hmint

/-- **Step.** -/
theorem exec (hs : s.Counted) (hl : s.ledger.Authorities P) {ix : Instruction} (hx : exec P now s ix = ok s') :
    s'.Counted := by
  by_cases hix : ix.moves = none
  · obtain ⟨e, hevents, he⟩ := exec_emits hx
    -- what was emitted is about no mint
    have hmoves (mint : Pubkey) : movesOf mint s'.events = movesOf mint s.events := by
      rw [hevents]
      cases e with
      | none => rfl
      | some v =>
        refine movesOf_cons_of_ne ?_
        obtain hv | hv := he v rfl
        · rw [hv]
          exact nofun
        · rw [hv, hix]
          exact nofun
    refine ⟨?_, ?_, ?_⟩
    · intro a c' hc'
      rw [mintedIn, hmoves]
      obtain ⟨c, hc, hmint, hm, -⟩ | ⟨⟨x, args, -, rfl⟩, hnone⟩ := exec_config_counters hl hix hx hc'
      · rw [← hmint, ← hm]
        exact hs.minted hc
      · rw [hs.movesOf_eq_nil hnone]
        rfl
    · intro a c' hc'
      rw [burnedIn, seizedIn, hmoves]
      obtain ⟨c, hc, hmint, -, hb⟩ | ⟨⟨x, args, -, rfl⟩, hnone⟩ := exec_config_counters hl hix hx hc'
      · rw [← hmint, ← hb]
        exact hs.burned hc
      · rw [hs.movesOf_eq_nil hnone]
        rfl
    · intro v mint hv hvm
      have hv' : v ∈ s.events := by
        have hmem : v ∈ movesOf mint s'.events := List.mem_filter.2 ⟨hv, decide_eq_true hvm⟩
        rw [hmoves] at hmem
        exact (List.mem_filter.1 hmem).1
      obtain ⟨a, c, hc, hmint⟩ := hs.configured hv' hvm
      obtain ⟨c', hc', hmint'⟩ := exec_config_stays hx hc
      exact ⟨a, c', hc', hmint'.trans hmint⟩
  · cases ix <;> simp only [Instruction.moves, not_true_eq_false] at hix
    case mintTokens x amount =>
      obtain ⟨c, q, m, hm⟩ := mintHandler_ok hx
      obtain ⟨used, total, -, htotal, hledger⟩ := hm.wrote
      refine hs.moved hl (configAccount_eq_ok.1 hm.config).1 (by rw [hledger]; rfl) (by rfl) hm.emitted (by rfl) ?_ ?_
      · show total.toNat = amount.toNat + c.totalMinted.toNat
        rw [checkedAdd_eq_some.1 htotal, Nat.add_comm]
      · exact (Nat.zero_add _).symm
    case burnTokens x amount =>
      obtain ⟨c, p, w, total, hc, -, -, -, -, htotal, rfl⟩ := burnHandler_ok hx
      refine hs.moved hl (configAccount_eq_ok.1 hc).1 rfl (by rfl) rfl (by rfl) ?_ ?_
      · exact (Nat.zero_add _).symm
      · show total.toNat = amount.toNat + 0 + c.totalBurned.toNat
        rw [checkedAdd_eq_some.1 htotal]
        omega
    case seize x =>
      obtain ⟨c, m, t, p, w₁, w₂, hz⟩ := seizeHandler_ok hx
      obtain ⟨total, htotal, hledger⟩ := hz.wrote
      refine hs.moved hl (configAccount_eq_ok.1 hz.config).1 (by rw [hledger]; rfl) (by rfl) hz.emitted (by rfl) ?_ ?_
      · exact (Nat.zero_add _).symm
      · show total.toNat = 0 + t.amount.toNat + c.totalBurned.toNat
        rw [checkedAdd_eq_some.1 htotal]
        omega

/-- **Run.** -/
theorem of_run (r : (machine P).Run h s) : s.Counted := by
  refine r.invariant (I := fun _ s => s.Counted) ?_ ?_
  · intro s hs
    refine ⟨?_, ?_, ?_⟩
    · intro a c hc
      rw [hs.1] at hc
      contradiction
    · intro a c hc
      rw [hs.1] at hc
      contradiction
    · intro e mint he
      rw [hs.2] at he
      contradiction
  · intro h s e s' r hc hs
    cases hs with
    | succeeded hx => exact hc.exec (.of_reachable ⟨h, r⟩) hx
    | failed => exact hc
    | outside => exact ⟨hc.minted, hc.burned, hc.configured⟩

end State.Counted

end ThawGate.Token
