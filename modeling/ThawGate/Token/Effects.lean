import ThawGate.Token.Machine
import ThawGate.Token.Vault

/-!
# What an instruction does to the tokens

`exec_calls` lists, for every instruction, what it may ask of the other programs: only `mint_tokens`,
`burn_tokens` and `seize` move tokens and only `pause`, `unpause` and `seize` set the Pausable flag,
each on its own mint. `exec_sameTokens` and `exec_flag` are what that leaves alone.
-/

namespace ThawGate.Token

open Exec

variable {W : Type} {P : Programs W} {now : Int64} {s s' : State W}

namespace Instruction

/-- The mint whose tokens it moves. -/
def moves : Instruction → Option Pubkey
  | .mintTokens x _ => some x.mint
  | .burnTokens x _ => some x.mint
  | .seize x => some x.mint
  | _ => none

/-- The mint whose Pausable flag it sets. -/
def switches : Instruction → Option Pubkey
  | .pause x | .unpause x => some x.mint
  | .seize x => some x.mint
  | _ => none

end Instruction

/-- The call moves or switches nothing but what the instruction does. -/
structure Call.Within (c : Call) (ix : Instruction) : Prop where
  moves : c.moves = none ∨ c.moves = ix.moves
  switches : c.switches = none ∨ c.switches = ix.switches

theorem FreezeRoute.call_quiet {r : FreezeRoute} {op : FreezeOp} {c : Call} (h : r.call op = ok c) :
    c.moves = none ∧ c.switches = none := by
  unfold FreezeRoute.call at h
  split_ifs at h
  · cases op <;> obtain rfl := Exec.ok.inj h <;> exact ⟨rfl, rfl⟩
  · cases op <;> obtain rfl := Exec.ok.inj h <;> exact ⟨rfl, rfl⟩

theorem FreezeRoute.call_within {r : FreezeRoute} {op : FreezeOp} {c : Call} (ix : Instruction)
    (h : r.call op = ok c) : c.Within ix :=
  ⟨.inl (call_quiet h).1, .inl (call_quiet h).2⟩

/-- Creating a mint moves nothing and switches nothing. -/
theorem createMint_within {x : Initialize} {args : InitializeArgs} {calls : List Call} (ix : Instruction)
    (h : createMint P x args = ok calls) : ∀ c ∈ calls, c.Within ix := by
  have hhook : ∀ hook, initializeTransferHook x args = ok hook → ∀ c ∈ hook, c.Within ix := by
    intro hook hh
    unfold initializeTransferHook at hh
    split_ifs at hh
    · obtain ⟨id, -, hh⟩ := bind_eq_ok.1 hh
      obtain rfl := Exec.ok.inj hh
      intro c hc
      obtain rfl := List.mem_singleton.1 hc
      exact ⟨.inl rfl, .inl rfl⟩
    · obtain rfl := Exec.ok.inj hh
      nofun
  simp only [createMint, bind_eq_ok, pure_eq, Exec.ok.injEq] at h
  obtain ⟨hook, hh, rfl⟩ := h
  intro c hc
  simp only [List.mem_append, List.mem_singleton] at hc
  obtain (((((rfl | hc) | hc) | hc) | hc) | rfl) | hc := hc
  · exact ⟨.inl rfl, .inl rfl⟩
  · split_ifs at hc
    · obtain rfl := List.mem_singleton.1 hc
      exact ⟨.inl rfl, .inl rfl⟩
    · contradiction
  · exact hhook hook hh c hc
  · split_ifs at hc
    · obtain rfl := List.mem_singleton.1 hc
      exact ⟨.inl rfl, .inl rfl⟩
    · contradiction
  · split_ifs at hc
    · simp only [List.mem_cons, List.not_mem_nil, or_false] at hc
      obtain rfl | rfl := hc <;> exact ⟨.inl rfl, .inl rfl⟩
    · contradiction
  · exact ⟨.inl rfl, .inl rfl⟩
  · split_ifs at hc
    · obtain rfl := List.mem_singleton.1 hc
      exact ⟨.inl rfl, .inl rfl⟩
    · contradiction

theorem MintTokens.calls_within {x : MintTokens} {w : W} {amount : UInt64} :
    ∀ c ∈ x.calls P w amount, c.Within (.mintTokens x amount) := by
  intro c hc
  simp only [MintTokens.calls, List.mem_append, List.mem_singleton] at hc
  obtain hc | rfl := hc
  · split_ifs at hc
    · obtain rfl := List.mem_singleton.1 hc
      exact ⟨.inl rfl, .inl rfl⟩
    · contradiction
  · exact ⟨.inr rfl, .inl rfl⟩

theorem Seize.calls_within {x : Seize} {amount : UInt64} {decimals : UInt8} {paused : Bool} :
    ∀ c ∈ x.calls P amount decimals paused, c.Within (.seize x) := by
  intro c hc
  unfold Seize.calls at hc
  cases paused with
  | true =>
    simp only [if_true, List.mem_cons, List.not_mem_nil, or_false] at hc
    obtain rfl | rfl | rfl := hc
    · exact ⟨.inl rfl, .inr rfl⟩
    · exact ⟨.inr rfl, .inl rfl⟩
    · exact ⟨.inl rfl, .inr rfl⟩
  | false =>
    obtain rfl := List.mem_singleton.1 hc
    exact ⟨.inr rfl, .inl rfl⟩

/-- The calls of one instruction. -/
def Instruction.Calls (P : Programs W) (ix : Instruction) (w w' : W) : Prop :=
  ∃ calls : List Call, calls.foldlM P.invoke w = some w' ∧ ∀ c ∈ calls, c.Within ix

namespace Instruction.Calls

variable {ix : Instruction} {w w' w'' : W}

theorem refl (w : W) : ix.Calls P w w := ⟨[], rfl, nofun⟩

theorem single {c : Call} (h : P.invoke w c = some w') (hc : c.Within ix) : ix.Calls P w w' := by
  refine ⟨[c], ?_, ?_⟩
  · rw [List.foldlM_cons, h]
    rfl
  · intro c' hc'
    obtain rfl := List.mem_singleton.1 hc'
    exact hc

theorem trans (h : ix.Calls P w w') (h' : ix.Calls P w' w'') : ix.Calls P w w'' := by
  obtain ⟨cs, hcs, hin⟩ := h
  obtain ⟨cs', hcs', hin'⟩ := h'
  refine ⟨cs ++ cs', ?_, ?_⟩
  · rw [List.foldlM_append, hcs]
    exact hcs'
  · intro c hc
    exact (List.mem_append.1 hc).elim (hin c) (hin' c)

/-- A freeze or a thaw along the way. -/
theorem route {r : FreezeRoute} {op : FreezeOp} {s₁ s₂ : State W} (h : r.run P s₁ op = ok s₂) :
    ix.Calls P s₁.world s₂.world := by
  obtain ⟨c, w, hc, hw, rfl⟩ := FreezeRoute.run_ok h
  exact single hw (FreezeRoute.call_within ix hc)

end Instruction.Calls

theorem handlerAddToBlacklist_calls {x : AddToBlacklist} {reason : Borsh.Str}
    (h : handlerAddToBlacklist P now s x reason = ok s') :
    (Instruction.addToBlacklist x reason).Calls P s.world s'.world := by
  simp only [handlerAddToBlacklist, bind_eq_ok, pure_eq, Exec.ok.injEq] at h
  obtain ⟨c, -, r, -, e, -, _, -, m, -, t, -, _, -, _, -, _, -, _, -, _, -, s₁, hs₁, rfl⟩ := h
  show Instruction.Calls P _ s.world s₁.world
  unfold freezeUnlessFrozen at hs₁
  split_ifs at hs₁
  · obtain rfl := Exec.ok.inj hs₁
    exact .refl _
  · exact .route hs₁

theorem handlerSetPaused_calls {paused : Bool} {refused : SssError} {event : Pubkey → Pubkey → Int64 → Event}
    {x : PauseOrUnpause} {ix : Instruction} (hix : ix.switches = some x.mint)
    (h : handlerSetPaused paused refused event P now s x = ok s') : ix.Calls P s.world s'.world := by
  obtain ⟨c, p, r, sw, -, -, -, -, -, -, hsw, rfl⟩ := handlerSetPaused_ok h
  show ix.Calls P s.world sw.world
  unfold setMintPaused at hsw
  split_ifs at hsw
  · obtain ⟨w, hw, rfl⟩ := cpi_eq_ok.1 hsw
    exact .single hw ⟨.inl rfl, .inr hix.symm⟩
  · obtain rfl := Exec.ok.inj hsw
    exact .refl _

/-- **Calls.** What an instruction that succeeds asked of the other programs. -/
theorem exec_calls {ix : Instruction} (h : exec P now s ix = ok s') : ix.Calls P s.world s'.world := by
  cases ix with
  | initializeStablecoin x args =>
    obtain ⟨-, -, -, calls, w, hcalls, hw, rfl⟩ := initializeHandler_ok h
    exact ⟨calls, hw, createMint_within _ hcalls⟩
  | mintTokens x amount =>
    obtain ⟨_, _, _, hm⟩ := mintHandler_ok h
    exact ⟨_, hm.called, MintTokens.calls_within⟩
  | burnTokens x amount =>
    obtain ⟨_, _, w, _, -, -, -, -, hw, -, rfl⟩ := burnHandler_ok h
    exact .single hw ⟨.inr rfl, .inl rfl⟩
  | freezeAccount x | thawAccount x =>
    obtain ⟨_, _, _, _, c, w, -, -, -, -, -, hc, hw, rfl⟩ := handlerFreezeOrThaw_ok h
    exact .single hw (FreezeRoute.call_within _ hc)
  | pause x | unpause x => exact handlerSetPaused_calls rfl h
  | updateMinter x minter limit period =>
    obtain ⟨_, _, -, -, -, -, rfl⟩ := handlerUpdateMinter_ok h
    exact .refl _
  | updateRoles x holder role active =>
    obtain ⟨_, _, -, -, -, -, rfl⟩ := handlerUpdateRoles_ok h
    exact .refl _
  | transferAuthority x newAuthority =>
    obtain ⟨_, _, -, -, -, -, rfl⟩ := handlerTransferAuthority_ok h
    exact .refl _
  | addToBlacklist x reason => exact handlerAddToBlacklist_calls h
  | removeFromBlacklist x =>
    obtain ⟨_, _, _, -, -, -, -, -, rfl⟩ := handlerRemoveFromBlacklist_ok h
    exact .refl _
  | seize x =>
    obtain ⟨_, _, _, _, w₁, w₂, hs⟩ := seizeHandler_ok h
    have hthaw : (Instruction.seize x).Calls P s.world w₁ := .route hs.thawed
    have hfreeze : (Instruction.seize x).Calls P w₂ s'.world := .route hs.frozenAgain
    exact (hthaw.trans ⟨_, hs.transferred, Seize.calls_within⟩).trans hfreeze
  | enableTokenAcl x policy =>
    obtain ⟨c, _, w, -, -, -, -, hw, rfl⟩ := enableTokenAclHandler_ok h
    refine ⟨_, hw, ?_⟩
    intro c' hc'
    simp only [EnableTokenAcl.calls, List.mem_cons, List.not_mem_nil, or_false] at hc'
    obtain rfl | rfl | rfl | rfl := hc' <;> exact ⟨.inl rfl, .inl rfl⟩
  | setReserveAttestor x attestor maxStaleness =>
    obtain ⟨_, _, _, _, -, -, -, -, -, rfl⟩ := setReserveAttestorHandler_ok h
    exact .refl _
  | attestReserves x reserves asOf reportUri =>
    obtain ⟨_, -, -, -, -, -, rfl⟩ := attestReservesHandler_ok h
    exact .refl _
  | addToAllowlistV3 x =>
    obtain ⟨_, _, -, -, -, rfl⟩ := addToAllowlistHandler_ok h
    exact .refl _
  | removeFromAllowlistV3 x =>
    obtain ⟨_, _, -, -, -, -, rfl⟩ := removeFromAllowlistHandler_ok h
    exact .refl _
  | configureConfidentialAccount x | applyPendingBalance x =>
    obtain ⟨_, -, -, rfl⟩ := confidentialHandler_ok h
    exact .refl _

/-- The tokens of a mint that the instruction does not move stay where they are. -/
theorem exec_sameTokens (laws : P.MovesExactly) {ix : Instruction} {mint : Pubkey} (hix : ix.moves ≠ some mint)
    (h : exec P now s ix = ok s') : P.SameTokens mint s.world s'.world := by
  obtain ⟨calls, hcalls, hin⟩ := exec_calls h
  refine laws.foldlM_still ?_ hcalls
  intro c hc hmoves
  obtain hnone | heq := (hin c hc).moves
  · rw [hnone] at hmoves
    contradiction
  · exact hix (heq.symm.trans hmoves)

/-- The flag of a mint that the instruction does not switch stays as it is. -/
theorem exec_flag (laws : P.PausesExactly) {ix : Instruction} {mint : Pubkey} {paused : Bool}
    (hix : ix.switches ≠ some mint) (hflag : P.flag s.world mint = some paused) (h : exec P now s ix = ok s') :
    P.flag s'.world mint = some paused := by
  obtain ⟨calls, hcalls, hin⟩ := exec_calls h
  refine laws.foldlM_still ?_ hflag hcalls
  intro c hc hswitches
  obtain hnone | heq := (hin c hc).switches
  · rw [hnone] at hswitches
    contradiction
  · exact hix (heq.symm.trans hswitches)

end ThawGate.Token
