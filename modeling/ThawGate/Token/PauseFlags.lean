import ThawGate.Token.Authority
import ThawGate.Token.Effects
import ThawGate.Token.Entries

/-!
# The three pause flags

A pause is kept in the config, in the mint's `PauseState` and, where Token ACL is used, in the mint's
Pausable extension. `PauseFlags` is the invariant that they agree.

`pause` and `unpause` set all that there are and `initialize` starts with all of them off. Every other
instruction leaves the first two alone, and all but `seize` the third. `seize` resumes a paused mint,
transfers, and pauses it again; it reads the flag after its thaw, and neither the thaw nor the transfer
changes it, so what it restores is what it found.
-/

namespace ThawGate.Token

open Exec Function

variable {W : Type} {P : Programs W} {now : Int64} {s s' : State W}

structure State.PauseFlags (P : Programs W) (s : State W) : Prop where
  state : ∀ {a c}, s.ledger.configs a = some c →
    ∃ p, s.ledger.pauses (P.canonical (.pause c.mint)) = some p ∧ p.paused = c.paused
  extension : ∀ {a c}, s.ledger.configs a = some c → c.usesTokenAcl → P.flag s.world c.mint = some c.paused

/-- Outsiders leave the extension's flag of a Token ACL mint alone: its pause authority is the config
PDA, for which only sss-token signs. -/
def FlagsKept (P : Programs W) (s : State W) : Label → State W → Prop
  | .outside, s' => ∀ a c, s.ledger.configs a = some c → c.usesTokenAcl →
      P.flag s'.world c.mint = P.flag s.world c.mint
  | _, _ => True

/-! ### What each instruction does to the flags -/

/-- A config after an instruction that writes no `PauseState` was there before, with the same flag. -/
theorem exec_config_paused {ix : Instruction} (hix : .pause ∉ ix.writes) {a : Pda} {c' : StablecoinConfig}
    (h : exec P now s ix = ok s') (hc' : s'.ledger.configs a = some c') :
    ∃ c, s.ledger.configs a = some c ∧ c.mint = c'.mint ∧ c.paused = c'.paused ∧
      c.usesTokenAcl = c'.usesTokenAcl := by
  -- one config is replaced by one with the same three
  have hset {x : Pda} {c d : StablecoinConfig} (hc : s.ledger.configs x = some c)
      (hmint : c.mint = d.mint) (hpaused : c.paused = d.paused) (hacl : c.usesTokenAcl = d.usesTokenAcl)
      (hd : update s.ledger.configs x (some d) a = some c') :
      ∃ c, s.ledger.configs a = some c ∧ c.mint = c'.mint ∧ c.paused = c'.paused ∧
        c.usesTokenAcl = c'.usesTokenAcl := by
    obtain ⟨rfl, rfl⟩ | ⟨-, hd⟩ := Ledger.update_eq_some.1 hd
    · exact ⟨c, hc, hmint, hpaused, hacl⟩
    · exact ⟨c', hd, rfl, rfl, rfl⟩
  by_cases hconfig : .config ∈ ix.writes
  · cases ix <;> simp only [Instruction.writes, List.mem_cons, List.not_mem_nil, reduceCtorEq, or_false, or_true,
      not_true_eq_false] at hix hconfig
    case mintTokens x amount =>
      obtain ⟨_, _, _, hm⟩ := mintHandler_ok h
      obtain ⟨_, _, -, -, hl⟩ := hm.wrote
      rw [hl] at hc'
      exact hset (configAccount_eq_ok.1 hm.config).1 (by rfl) (by rfl) (by rfl) hc'
    case burnTokens x amount =>
      obtain ⟨_, _, _, _, hc, -, -, -, -, -, rfl⟩ := burnHandler_ok h
      exact hset (configAccount_eq_ok.1 hc).1 (by rfl) (by rfl) (by rfl) hc'
    case seize x =>
      obtain ⟨_, _, _, _, _, _, hs⟩ := seizeHandler_ok h
      obtain ⟨_, -, hl⟩ := hs.wrote
      rw [hl] at hc'
      exact hset (configAccount_eq_ok.1 hs.config).1 (by rfl) (by rfl) (by rfl) hc'
    case transferAuthority x newAuthority =>
      obtain ⟨_, _, hc, -, -, -, rfl⟩ := handlerTransferAuthority_ok h
      exact hset (configAccount_eq_ok.1 hc).1 (by rfl) (by rfl) (by rfl) hc'
  · rw [(exec_frame h).configs hconfig] at hc'
    exact ⟨c', hc', rfl, rfl, rfl⟩

theorem FreezeRoute.run_flag (laws : P.PausesExactly) {r : FreezeRoute} {op : FreezeOp} {mint : Pubkey}
    {paused : Bool} (h : r.run P s op = ok s') (hflag : P.flag s.world mint = some paused) :
    P.flag s'.world mint = some paused := by
  obtain ⟨c, w, hc, hw, rfl⟩ := run_ok h
  refine laws.still hw ?_ hflag
  rw [(call_quiet hc).2]
  exact nofun

/-- **Lift and restore.** A seizure leaves the mint's flag as it found it. -/
theorem Seized.flag (laws : P.PausesExactly) {x : Seize} {c : StablecoinConfig} {m : Mint} {t : TokenAccount}
    {p paused : Bool} {w₁ w₂ : W} (hs : Seized P now s s' x c m t p w₁ w₂)
    (hflag : P.flag s.world x.mint = some paused) : P.flag s'.world x.mint = some paused := by
  have hthawed : P.flag w₁ x.mint = some paused := FreezeRoute.run_flag laws hs.thawed hflag
  have hread : p = paused := by
    obtain ⟨m₁, hm₁, hp⟩ := bind_eq_ok.1 hs.paused
    obtain rfl := Exec.ok.inj hp
    rw [Programs.flag, orErr_eq_ok.1 hm₁] at hthawed
    exact Option.some.inj hthawed
  subst hread
  have htransferred : P.flag w₂ x.mint = some p := by
    have hcalls := hs.transferred
    unfold Seize.calls at hcalls
    cases p with
    | true =>
      -- whatever the transfer saw, the last call pauses the mint
      obtain ⟨wa, -, hcalls⟩ := Option.bind_eq_some_iff.1 hcalls
      obtain ⟨wb, -, hcalls⟩ := Option.bind_eq_some_iff.1 hcalls
      obtain ⟨wc, hpause, hcalls⟩ := Option.bind_eq_some_iff.1 hcalls
      obtain rfl := Option.some.inj hcalls
      exact laws.setPaused hpause
    | false =>
      obtain ⟨wa, htransfer, hcalls⟩ := Option.bind_eq_some_iff.1 hcalls
      obtain rfl := Option.some.inj hcalls
      exact laws.still htransfer nofun hthawed
  have hflag' : P.flag ({ s with world := w₂ } : State W).world x.mint = some p := htransferred
  have hfrozen := FreezeRoute.run_flag laws hs.frozenAgain hflag'
  exact hfrozen

/-- Only `initialize`, `pause` and `unpause` leave a mint with another flag. -/
theorem exec_flag_kept (laws : P.PausesExactly) {ix : Instruction} (hix : .pause ∉ ix.writes) {mint : Pubkey}
    {paused : Bool} (hflag : P.flag s.world mint = some paused) (h : exec P now s ix = ok s') :
    P.flag s'.world mint = some paused := by
  by_cases hswitches : ix.switches = some mint
  · cases ix <;> simp only [Instruction.switches, Instruction.writes, List.mem_cons, List.not_mem_nil, reduceCtorEq,
      or_true, or_false, not_true_eq_false, Option.some.injEq] at hix hswitches
    case seize x =>
      subst hswitches
      obtain ⟨_, _, _, _, _, _, hs⟩ := seizeHandler_ok h
      exact hs.flag laws hflag
  · exact exec_flag laws hswitches hflag h

/-- A new mint's flag is off: its initialization comes before the metadata's, and nothing after it
switches anything. -/
theorem createMint_flag (laws : P.PausesExactly) {x : Initialize} {args : InitializeArgs} {calls : List Call}
    {w w' : W} (hcalls : createMint P x args = ok calls) (h : calls.foldlM P.invoke w = some w') :
    P.flag w' x.mint = some false := by
  simp only [createMint, bind_eq_ok, pure_eq, Exec.ok.injEq] at hcalls
  obtain ⟨hook, -, rfl⟩ := hcalls
  rw [List.foldlM_append] at h
  obtain ⟨w₂, hfirst, hmetadata⟩ := Option.bind_eq_some_iff.1 h
  rw [List.foldlM_append] at hfirst
  obtain ⟨w₁, -, hlast⟩ := Option.bind_eq_some_iff.1 hfirst
  obtain ⟨w₂', hmint, hrest⟩ := Option.bind_eq_some_iff.1 hlast
  obtain rfl := Option.some.inj hrest
  refine laws.foldlM_still ?_ (laws.initializeMint2 hmint) hmetadata
  intro c hc
  split_ifs at hc
  · obtain rfl := List.mem_singleton.1 hc
    rintro ⟨⟩
  · contradiction

/-! ### The invariant -/

namespace State.PauseFlags

/-- Both handlers write the same flag to the config, the `PauseState` and, if it is used, the extension. -/
theorem setPaused (laws : P.PausesExactly) (hl : s.ledger.Authorities P) (ha : s.ledger.Addressed P)
    (hf : s.PauseFlags P) {paused : Bool} {refused : SssError} {event : Pubkey → Pubkey → Int64 → Event}
    {x : PauseOrUnpause} {ix : Instruction} (hix : ix.switches = some x.mint) (hexec : exec P now s ix = ok s')
    (hx : handlerSetPaused paused refused event P now s x = ok s') : s'.PauseFlags P := by
  obtain ⟨c, p, r, sw, hc, hmint, hp, -, -, -, hsw, rfl⟩ := handlerSetPaused_ok hx
  obtain ⟨hc, hat⟩ := hl.configAccount hc
  obtain ⟨hp, hpat⟩ := pauseAccount_eq_ok.1 hp
  have hpause : x.pauseState = P.canonical (.pause c.mint) := by
    have hseeds := ha.pauses hp
    rw [hpat] at hseeds ⊢
    rw [hseeds, P.canonical_inj]
    exact (congrArg Pda.seeds hseeds).symm
  -- another config is another mint's
  have hother {a : Pda} {d : StablecoinConfig} (hd : s.ledger.configs a = some d) (hne : a ≠ x.config) :
      d.mint ≠ c.mint :=
    fun h => hne (hl.config_unique hd hc h).1
  refine ⟨?_, ?_⟩
  · intro a d hd
    obtain ⟨-, rfl⟩ | ⟨hne, hd⟩ := Ledger.update_eq_some.1 hd
    · refine ⟨{ p with paused, pausedAt := now, pausedBy := x.operator }, ?_, rfl⟩
      exact Ledger.update_eq_some.2 (.inl ⟨hpause.symm, rfl⟩)
    · obtain ⟨q, hq, hpaused⟩ := hf.state hd
      refine ⟨q, Ledger.update_eq_some.2 (.inr ⟨?_, hq⟩), hpaused⟩
      rw [hpause, ne_eq, P.canonical_inj, Seeds.pause.injEq]
      exact hother hd hne
  · intro a d hd hacl
    obtain ⟨-, rfl⟩ | ⟨hne, hd⟩ := Ledger.update_eq_some.1 hd
    · have hacl' : c.usesTokenAcl := hacl
      rw [setMintPaused, if_pos hacl'] at hsw
      obtain ⟨w, hw, rfl⟩ := cpi_eq_ok.1 hsw
      show P.flag w c.mint = some paused
      rw [hmint]
      exact laws.setPaused hw
    · refine exec_flag laws ?_ (hf.extension hd hacl) hexec
      rw [hix, ne_eq, Option.some.injEq, ← hmint]
      exact (hother hd hne).symm

theorem initializeMint (laws : P.PausesExactly) (hl : s.ledger.Authorities P) (hf : s.PauseFlags P)
    {x : Initialize} {args : InitializeArgs} (hx : exec P now s (.initializeStablecoin x args) = ok s') :
    s'.PauseFlags P := by
  obtain ⟨⟨hconfig, hv⟩, ⟨hpause, -⟩, -, calls, w, hcalls, hw, rfl⟩ := initializeHandler_ok hx
  -- no config was there for the mint
  have hother {a : Pda} {d : StablecoinConfig} (hd : s.ledger.configs a = some d) : d.mint ≠ x.mint := by
    intro h
    have hat := hl.config_at hd
    rw [h, ← hconfig] at hat
    rw [hat, Ledger.configs_of_vacant hv] at hd
    contradiction
  refine ⟨?_, ?_⟩
  · intro a d hd
    obtain ⟨-, rfl⟩ | ⟨-, hd⟩ := Ledger.update_eq_some.1 hd
    · exact ⟨initializePauseState P x, Ledger.update_eq_some.2 (.inl ⟨hpause.symm, rfl⟩), rfl⟩
    · obtain ⟨q, hq, hpaused⟩ := hf.state hd
      refine ⟨q, Ledger.update_eq_some.2 (.inr ⟨?_, hq⟩), hpaused⟩
      rw [hpause, ne_eq, P.canonical_inj, Seeds.pause.injEq]
      exact hother hd
  · intro a d hd hacl
    obtain ⟨-, rfl⟩ | ⟨-, hd⟩ := Ledger.update_eq_some.1 hd
    · exact createMint_flag laws hcalls hw
    · exact exec_flag laws (by simp [Instruction.switches]) (hf.extension hd hacl) hx

/-- **Step.** -/
theorem exec (laws : P.PausesExactly) (hl : s.ledger.Authorities P) (ha : s.ledger.Addressed P)
    (hf : s.PauseFlags P) {ix : Instruction} (hx : exec P now s ix = ok s') : s'.PauseFlags P := by
  by_cases hix : .pause ∈ ix.writes
  · cases ix <;> simp only [Instruction.writes, List.mem_cons, List.not_mem_nil, reduceCtorEq, or_false] at hix
    case initializeStablecoin x args => exact hf.initializeMint laws hl hx
    case pause x => exact hf.setPaused laws hl ha rfl hx hx
    case unpause x => exact hf.setPaused laws hl ha rfl hx hx
  · refine ⟨?_, ?_⟩
    · intro a c' hc'
      obtain ⟨c, hc, hmint, hpaused, -⟩ := exec_config_paused hix hx hc'
      obtain ⟨p, hp, heq⟩ := hf.state hc
      rw [(exec_frame hx).pauses hix, ← hmint, ← hpaused]
      exact ⟨p, hp, heq⟩
    · intro a c' hc' hacl
      obtain ⟨c, hc, hmint, hpaused, hmode⟩ := exec_config_paused hix hx hc'
      rw [← hmint, ← hpaused]
      rw [← hmode] at hacl
      exact exec_flag_kept laws hix (hf.extension hc hacl) hx

/-- **Run.** -/
theorem of_run (laws : P.PausesExactly) {h : List Label} (r : ((machine P).restrict (FlagsKept P)).Run h s) :
    s.PauseFlags P := by
  refine r.invariant (I := fun _ s => s.PauseFlags P) ?_ ?_
  · intro s hs
    refine ⟨?_, ?_⟩ <;> intro a c hc <;> rw [hs.1] at hc <;> contradiction
  · intro h s e s' r hf hs
    obtain ⟨hkept, hs⟩ := hs
    have hreach : (machine P).Reachable s := ⟨h, r.of_restrict⟩
    cases hs with
    | succeeded hx => exact hf.exec laws (.of_reachable hreach) (.of_reachable hreach) hx
    | failed => exact hf
    | outside w =>
      refine ⟨hf.state, ?_⟩
      intro a c hc hacl
      rw [← hf.extension hc hacl]
      exact hkept a c hc hacl

end State.PauseFlags

/-- **Pause coherence.** In every reachable state each mint's `PauseState` has the flag of its config, and
so has the Pausable extension of a Token ACL mint. A successful `seize` leaves the three as they were,
of every mint, and a failed instruction changes nothing. -/
theorem pause_coherent (laws : P.PausesExactly) {h : List Label}
    (r : ((machine P).restrict (FlagsKept P)).Run h s) :
    (∀ a c, s.ledger.configs a = some c →
      (∃ b p, s.ledger.pauses b = some p ∧ p.mint = c.mint) ∧
      (∀ b p, s.ledger.pauses b = some p → p.mint = c.mint → p.paused = c.paused) ∧
      (c.usesTokenAcl → P.flag s.world c.mint = some c.paused)) ∧
    (∀ now s' x, exec P now s (.seize x) = ok s' →
      s'.ledger.pauses = s.ledger.pauses ∧
      (∀ a c', s'.ledger.configs a = some c' →
        ∃ c, s.ledger.configs a = some c ∧ c.mint = c'.mint ∧ c.paused = c'.paused) ∧
      ∀ mint p, P.flag s.world mint = some p → P.flag s'.world mint = some p) ∧
    ∀ ix now s', Step P s (.tx ix now false) s' → s' = s := by
  have hf := State.PauseFlags.of_run laws r
  have ha := Ledger.Addressed.of_reachable ⟨h, r.of_restrict⟩
  refine ⟨?_, ?_, ?_⟩
  · intro a c hc
    obtain ⟨p, hp, hpaused⟩ := hf.state hc
    refine ⟨⟨_, p, hp, ha.pauses_canonical hp⟩, ?_, hf.extension hc⟩
    intro b q hq hmint
    have hat := ha.pauses hq
    rw [hmint] at hat
    rw [hat, hp] at hq
    obtain rfl := Option.some.inj hq
    exact hpaused
  · intro now s' x hx
    have hix : .pause ∉ (Instruction.seize x).writes := by simp [Instruction.writes]
    refine ⟨(exec_frame hx).pauses hix, ?_, ?_⟩
    · intro a c' hc'
      obtain ⟨c, hc, hmint, hpaused, -⟩ := exec_config_paused hix hx hc'
      exact ⟨c, hc, hmint, hpaused⟩
    · intro mint p hflag
      exact exec_flag_kept laws hix hflag hx
  · intro ix now s' hs
    cases hs
    rfl

/-- Key 1 initializes mint 2 in Acl mode and pauses it. -/
def pausedSample : List (Instruction × Int64) :=
  let config := vault.canonical (.config (sampleKey 2))
  let pauseState := vault.canonical (.pause (sampleKey 2))
  let masterRole := vault.canonical (.role (sampleKey 2) (sampleKey 1) .masterAuthority)
  [(.initializeStablecoin
      { authority := sampleKey 1, mint := sampleKey 2, config, pauseState, masterRole, tokenProgram := token2022Id }
      ⟨.empty, .empty, .empty, 6, true, false, true, none, false, false, complianceModeAcl⟩, 10),
    (.pause
      { operator := sampleKey 1, config, pauseState, operatorRole := masterRole, mint := sampleKey 2
        tokenProgram := token2022Id }, 20)]

theorem pause_coherent_sample :
    ∃ s c, ((machine vault).restrict (FlagsKept vault)).Reachable s ∧
      s.ledger.configs (vault.canonical (.config (sampleKey 2))) = some c ∧ c.paused ∧
      vault.flag s.world c.mint = some true := by
  have hrun : ((execAll vault ⟨.empty, .empty, []⟩ pausedSample).ledger.configs
      (vault.canonical (.config (sampleKey 2)))).any fun c => c.paused && c.usesTokenAcl := by decide +kernel
  obtain ⟨c, hc, hboth⟩ := (Option.any_eq_true _ _).1 hrun
  obtain ⟨hpaused, hacl⟩ := Bool.and_eq_true_iff.1 hboth
  have hreach : ((machine vault).restrict (FlagsKept vault)).Reachable
      (execAll vault ⟨.empty, .empty, []⟩ pausedSample) :=
    execAll_restrict (fun _ _ _ _ _ => trivial) ⟨[], .start ⟨rfl, rfl⟩⟩
  obtain ⟨h, r⟩ := hreach
  refine ⟨_, c, ⟨h, r⟩, hc, hpaused, ?_⟩
  rw [((pause_coherent vault_pausesExactly r).1 _ c hc).2.2 hacl, hpaused]

end ThawGate.Token
