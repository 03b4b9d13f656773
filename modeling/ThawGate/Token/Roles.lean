import ThawGate.Token.Context

/-!
# Role management

`update_minter`, `update_roles` and `transfer_authority`, each signed by the mint's master authority.
A record is never closed: revoking clears `active`, and granting again reuses the record.
-/

namespace ThawGate.Token

open Exec

variable {W : Type} {P : Programs W} {now : Int64} {s s' : State W}

/-! ### `update_minter` -/

structure UpdateMinter where
  authority : Pubkey
  config : Pda
  authorityRole : Pda
  minterRole : Pda
  minterQuota : Pda
  deriving DecidableEq

def handlerUpdateMinter (P : Programs W) (now : Int64) (s : State W) (x : UpdateMinter) (minter : Pubkey)
    (limit : UInt64) (period : QuotaPeriod) : Exec Failure (State W) := do
  let l := s.ledger
  let config ← configAccount l x.config
  let _ ← roleAccount l x.authorityRole config.mint x.authority .masterAuthority .notAuthorized
  let _ ← initIfNeeded P l l.roles x.minterRole (.role config.mint minter .minter) .zeroed
  let _ ← initIfNeeded P l l.quotas x.minterQuota (.quota config.mint minter) .zeroed
  -- every field of both accounts is overwritten
  let l := l.setRole x.minterRole ⟨config.mint, minter, .minter, true, now, x.minterRole.bump⟩
  let l := l.setQuota x.minterQuota ⟨config.mint, minter, limit, 0, period, x.minterQuota.bump⟩
  pure (s.commit l none)

theorem handlerUpdateMinter_ok {x : UpdateMinter} {minter : Pubkey} {limit : UInt64} {period : QuotaPeriod}
    (h : handlerUpdateMinter P now s x minter limit period = ok s') :
    ∃ c r, configAccount s.ledger x.config = ok c ∧
      roleAccount s.ledger x.authorityRole c.mint x.authority .masterAuthority .notAuthorized = ok r ∧
      x.minterRole = P.canonical (.role c.mint minter .minter) ∧
      x.minterQuota = P.canonical (.quota c.mint minter) ∧
      s' = s.commit ((s.ledger.setRole x.minterRole ⟨c.mint, minter, .minter, true, now, x.minterRole.bump⟩).setQuota
        x.minterQuota ⟨c.mint, minter, limit, 0, period, x.minterQuota.bump⟩) none := by
  simp only [handlerUpdateMinter, bind_eq_ok, pure_eq, Exec.ok.injEq] at h
  obtain ⟨c, hc, r, hr, _, hrole, _, hquota, hs⟩ := h
  exact ⟨c, r, hc, hr, (initIfNeeded_eq_ok hrole).1, (initIfNeeded_eq_ok hquota).1, hs.symm⟩

/-! ### `update_roles` -/

structure UpdateRoles where
  authority : Pubkey
  config : Pda
  authorityRole : Pda
  targetRole : Pda
  deriving DecidableEq

def handlerUpdateRoles (P : Programs W) (now : Int64) (s : State W) (x : UpdateRoles) (holder : Pubkey)
    (role : RoleType) (active : Bool) : Exec Failure (State W) := do
  let l := s.ledger
  let config ← configAccount l x.config
  let _ ← roleAccount l x.authorityRole config.mint x.authority .masterAuthority .notAuthorized
  let _ ← initIfNeeded P l l.roles x.targetRole (.role config.mint holder role) .zeroed
  require (role ≠ .masterAuthority) (.sss .invalidRoleType)
  pure (s.commit (l.setRole x.targetRole ⟨config.mint, holder, role, active, now, x.targetRole.bump⟩) none)

theorem handlerUpdateRoles_ok {x : UpdateRoles} {holder : Pubkey} {role : RoleType} {active : Bool}
    (h : handlerUpdateRoles P now s x holder role active = ok s') :
    ∃ c r, configAccount s.ledger x.config = ok c ∧
      roleAccount s.ledger x.authorityRole c.mint x.authority .masterAuthority .notAuthorized = ok r ∧
      x.targetRole = P.canonical (.role c.mint holder role) ∧ role ≠ .masterAuthority ∧
      s' = s.commit (s.ledger.setRole x.targetRole
        ⟨c.mint, holder, role, active, now, x.targetRole.bump⟩) none := by
  simp only [handlerUpdateRoles, bind_eq_ok, require_eq_ok, exists_const, pure_eq, Exec.ok.injEq] at h
  obtain ⟨c, hc, r, hr, _, htarget, hrole, hs⟩ := h
  exact ⟨c, r, hc, hr, (initIfNeeded_eq_ok htarget).1, hrole, hs.symm⟩

/-! ### `transfer_authority` -/

structure TransferAuthority where
  authority : Pubkey
  config : Pda
  oldMasterRole : Pda
  newMasterRole : Pda
  deriving DecidableEq

/-- `old_master_role` is written back before `new_master_role`. -/
def handlerTransferAuthority (P : Programs W) (now : Int64) (s : State W) (x : TransferAuthority)
    (newAuthority : Pubkey) : Exec Failure (State W) := do
  let l := s.ledger
  let config ← configAccount l x.config
  let oldRole ← roleAccount l x.oldMasterRole config.mint x.authority .masterAuthority .notAuthorized
  let newRole ← initIfNeeded P l l.roles x.newMasterRole (.role config.mint newAuthority .masterAuthority) .zeroed
  require (!newRole.active) (.sss .roleAlreadyActive)
  let l := l.setConfig x.config { config with authority := newAuthority }
  let l := l.setRole x.oldMasterRole { oldRole with active := false }
  let l := l.setRole x.newMasterRole
    ⟨config.mint, newAuthority, .masterAuthority, true, now, x.newMasterRole.bump⟩
  pure (s.commit l (some (.authorityTransferred config.mint x.authority newAuthority now)))

theorem handlerTransferAuthority_ok {x : TransferAuthority} {newAuthority : Pubkey}
    (h : handlerTransferAuthority P now s x newAuthority = ok s') :
    ∃ c r, configAccount s.ledger x.config = ok c ∧
      roleAccount s.ledger x.oldMasterRole c.mint x.authority .masterAuthority .notAuthorized = ok r ∧
      x.newMasterRole = P.canonical (.role c.mint newAuthority .masterAuthority) ∧
      (∀ q, s.ledger.roles x.newMasterRole = some q → q.active = false) ∧
      s' = s.commit (((s.ledger.setConfig x.config { c with authority := newAuthority }).setRole
        x.oldMasterRole { r with active := false }).setRole x.newMasterRole
        ⟨c.mint, newAuthority, .masterAuthority, true, now, x.newMasterRole.bump⟩)
        (some (.authorityTransferred c.mint x.authority newAuthority now)) := by
  simp only [handlerTransferAuthority, bind_eq_ok, require_eq_ok, exists_const, pure_eq, Exec.ok.injEq] at h
  obtain ⟨c, hc, r, hr, q, hq, hactive, hs⟩ := h
  obtain ⟨haddr, hq⟩ := initIfNeeded_eq_ok hq
  refine ⟨c, r, hc, hr, haddr, ?_, hs.symm⟩
  intro q' hq'
  obtain hq | ⟨hnone, -⟩ := hq
  · obtain rfl := Option.some.inj (hq.symm.trans hq')
    simpa using hactive
  · rw [hnone] at hq'
    contradiction

end ThawGate.Token
