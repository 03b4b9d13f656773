import ThawGate.Token.Machine

/-!
# Where entries are

After any run, an entry of the blacklist or the allowlist and a mint's pause state are at the canonical
address of the keys in them. So whoever derives that address, as the transfer hook, the gate and the
services do, finds every entry there is for those keys, and only that.
-/

namespace ThawGate.Token

open Exec

variable {W : Type} {P : Programs W} {now : Int64} {s s' : State W} {l : Ledger}

structure Ledger.Addressed (P : Programs W) (l : Ledger) : Prop where
  blacklist : ∀ {a e}, l.blacklist a = some e → a = P.canonical (.blacklist e.mint e.target)
  allowlist : ∀ {a e}, l.allowlist a = some e → a = P.canonical (.allowlist e.mint e.wallet)
  pauses : ∀ {a p}, l.pauses a = some p → a = P.canonical (.pause p.mint)

namespace Ledger.Addressed

theorem empty : Ledger.empty.Addressed P := by
  refine ⟨?_, ?_, ?_⟩ <;> intro a e h <;> contradiction

theorem setBlacklist (hl : l.Addressed P) {a : Pda} {e : BlacklistEntry}
    (ha : a = P.canonical (.blacklist e.mint e.target)) : (l.setBlacklist a e).Addressed P := by
  refine ⟨?_, hl.allowlist, hl.pauses⟩
  intro b f hf
  obtain ⟨rfl, rfl⟩ | ⟨-, hf⟩ := Ledger.update_eq_some.1 hf
  · exact ha
  · exact hl.blacklist hf

theorem setAllowlist (hl : l.Addressed P) {a : Pda} {e : AllowlistEntry}
    (ha : a = P.canonical (.allowlist e.mint e.wallet)) : (l.setAllowlist a e).Addressed P := by
  refine ⟨hl.blacklist, ?_, hl.pauses⟩
  intro b f hf
  obtain ⟨rfl, rfl⟩ | ⟨-, hf⟩ := Ledger.update_eq_some.1 hf
  · exact ha
  · exact hl.allowlist hf

theorem setPause (hl : l.Addressed P) {a : Pda} {p : PauseState} (ha : a = P.canonical (.pause p.mint)) :
    (l.setPause a p).Addressed P := by
  refine ⟨hl.blacklist, hl.allowlist, ?_⟩
  intro b q hq
  obtain ⟨rfl, rfl⟩ | ⟨-, hq⟩ := Ledger.update_eq_some.1 hq
  · exact ha
  · exact hl.pauses hq

/-- The instructions that write none of the three kinds. -/
theorem of_eq {l' : Ledger} (hl : l.Addressed P) (hb : l'.blacklist = l.blacklist)
    (ha : l'.allowlist = l.allowlist) (hp : l'.pauses = l.pauses) : l'.Addressed P := by
  refine ⟨?_, ?_, ?_⟩
  · rw [hb]
    exact hl.blacklist
  · rw [ha]
    exact hl.allowlist
  · rw [hp]
    exact hl.pauses

theorem setPaused (hl : s.ledger.Addressed P) {paused : Bool} {refused : SssError}
    {event : Pubkey → Pubkey → Int64 → Event} {x : PauseOrUnpause}
    (hx : handlerSetPaused paused refused event P now s x = ok s') : s'.ledger.Addressed P := by
  obtain ⟨c, p, _, _, -, -, hp, -, -, -, -, rfl⟩ := handlerSetPaused_ok hx
  have hat := hl.pauses (pauseAccount_eq_ok.1 hp).1
  show Ledger.Addressed P (Ledger.setPause (Ledger.setConfig _ _ _) _ _)
  apply setPause
  · exact hl.of_eq rfl rfl rfl
  · exact hat

/-- **Step.** -/
theorem exec (hl : s.ledger.Addressed P) {ix : Instruction} (hx : exec P now s ix = ok s') :
    s'.ledger.Addressed P := by
  have frame := exec_frame hx
  cases ix with
  | initializeStablecoin x args =>
    obtain ⟨-, ⟨hpause, -⟩, -, _, _, -, -, rfl⟩ := initializeHandler_ok hx
    have hconfig : (s.ledger.setConfig x.config (initializeConfig P x args)).Addressed P := hl.of_eq rfl rfl rfl
    have hboth := hconfig.setPause (p := initializePauseState P x) hpause
    exact hboth.of_eq rfl rfl rfl
  | pause x | unpause x => exact hl.setPaused hx
  | addToBlacklist x reason =>
    obtain ⟨c, _, _, _, -, -, he, -, -, rfl⟩ := handlerAddToBlacklist_ok hx
    exact hl.setBlacklist (initIfNeeded_eq_ok he).1
  | removeFromBlacklist x =>
    obtain ⟨c, _, e, -, -, he, -, -, rfl⟩ := handlerRemoveFromBlacklist_ok hx
    have hat := hl.blacklist he
    exact hl.setBlacklist hat
  | addToAllowlistV3 x =>
    obtain ⟨c, _, -, he, -, rfl⟩ := addToAllowlistHandler_ok hx
    exact hl.setAllowlist (initIfNeeded_eq_ok he).1
  | removeFromAllowlistV3 x =>
    obtain ⟨c, e, -, he, -, -, rfl⟩ := removeFromAllowlistHandler_ok hx
    have hat := hl.allowlist he
    exact hl.setAllowlist hat
  | _ =>
    exact hl.of_eq (frame.blacklist (by simp [Instruction.writes])) (frame.allowlist (by simp [Instruction.writes]))
      (frame.pauses (by simp [Instruction.writes]))

/-- **Run.** -/
theorem of_reachable (r : (machine P).Reachable s) : s.ledger.Addressed P := by
  refine r.invariant (I := fun s => s.ledger.Addressed P) ?_ ?_
  · intro s hs
    rw [hs.1]
    exact empty
  · intro s e s' hl hs
    cases hs with
    | succeeded hx => exact hl.exec hx
    | failed | outside => exact hl

end Ledger.Addressed

/-! ### What a mint's ledger says of a wallet -/

/-- The wallet has an active blacklist entry for the mint. -/
def Ledger.Blacklisted (l : Ledger) (mint wallet : Pubkey) : Prop :=
  ∃ a e, l.blacklist a = some e ∧ e.mint = mint ∧ e.target = wallet ∧ e.active

/-- The mint's `PauseState` is paused. -/
def Ledger.Paused (l : Ledger) (mint : Pubkey) : Prop := ∃ a p, l.pauses a = some p ∧ p.mint = mint ∧ p.paused

namespace Ledger.Addressed

theorem blacklist_canonical (hl : l.Addressed P) {mint wallet : Pubkey} {e : BlacklistEntry}
    (he : l.blacklist (P.canonical (.blacklist mint wallet)) = some e) : e.mint = mint ∧ e.target = wallet := by
  have h := hl.blacklist he
  rw [P.canonical_inj, Seeds.blacklist.injEq] at h
  exact ⟨h.1.symm, h.2.symm⟩

theorem pauses_canonical (hl : l.Addressed P) {mint : Pubkey} {p : PauseState}
    (hp : l.pauses (P.canonical (.pause mint)) = some p) : p.mint = mint := by
  have h := hl.pauses hp
  rw [P.canonical_inj, Seeds.pause.injEq] at h
  exact h.symm

theorem blacklisted_iff (hl : l.Addressed P) {mint wallet : Pubkey} :
    l.Blacklisted mint wallet ↔ ∃ e, l.blacklist (P.canonical (.blacklist mint wallet)) = some e ∧ e.active := by
  constructor
  · intro ⟨a, e, he, hmint, htarget, hactive⟩
    rw [← hmint, ← htarget, ← hl.blacklist he]
    exact ⟨e, he, hactive⟩
  · intro ⟨e, he, hactive⟩
    obtain ⟨hmint, htarget⟩ := hl.blacklist_canonical he
    exact ⟨_, e, he, hmint, htarget, hactive⟩

theorem paused_iff (hl : l.Addressed P) {mint : Pubkey} :
    l.Paused mint ↔ ∃ p, l.pauses (P.canonical (.pause mint)) = some p ∧ p.paused := by
  constructor
  · intro ⟨a, p, hp, hmint, hpaused⟩
    rw [← hmint, ← hl.pauses hp]
    exact ⟨p, hp, hpaused⟩
  · intro ⟨p, hp, hpaused⟩
    exact ⟨_, p, hp, hl.pauses_canonical hp, hpaused⟩

end Ledger.Addressed

end ThawGate.Token
