import ThawGate.Token.Context

/-!
# `pause` and `unpause`

The switch of a Hook mint is its `PauseState`; a Token ACL mint is also paused through Token-2022's
Pausable extension, of which the config PDA is the authority.

`operator_role` has no seeds: any role record may be passed, and `validatePauser` checks its fields.
-/

namespace ThawGate.Token

open Exec

variable {W : Type} {P : Programs W} {now : Int64} {s s' : State W}

/-- What `validate_pauser` and `validate_freeze_authority` check of a record, in their order: its
holder, its mint, that it is active and that its role is the master authority or `also`. -/
def validateOperator (also : RoleType) (inactive : SssError) (r : RoleRecord) (operator mint : Pubkey) :
    Exec Failure Unit := do
  require (r.holder = operator) (.sss .notAuthorized)
  require (r.mint = mint) (.sss .invalidMint)
  require r.active (.sss inactive)
  require (r.role = also ∨ r.role = .masterAuthority) (.sss inactive)

/-- The record makes `operator` an operator of `mint` through the role `also` or as its master. -/
structure RoleRecord.Authorizes (r : RoleRecord) (also : RoleType) (operator mint : Pubkey) : Prop where
  holder : r.holder = operator
  mint : r.mint = mint
  active : r.active
  role : r.role = also ∨ r.role = .masterAuthority

theorem validateOperator_eq_ok {also : RoleType} {e : SssError} {r : RoleRecord} {operator mint : Pubkey}
    {u : Unit} : validateOperator also e r operator mint = ok u ↔ r.Authorizes also operator mint := by
  simp only [validateOperator, bind_eq_ok, require_eq_ok, exists_const]
  exact ⟨fun ⟨hh, hm, ha, hr⟩ => ⟨hh, hm, ha, hr⟩, fun ⟨hh, hm, ha, hr⟩ => ⟨hh, hm, ha, hr⟩⟩

def validatePauser (r : RoleRecord) (operator mint : Pubkey) : Exec Failure Unit :=
  validateOperator .pauser .pauserNotFound r operator mint

structure PauseOrUnpause where
  operator : Pubkey
  config : Pda
  pauseState : Pda
  operatorRole : Pda
  mint : Pubkey
  tokenProgram : Pubkey
  deriving DecidableEq

/-- The mint's `PauseState` and its stored bump. -/
def pauseAccount (l : Ledger) (a : Pda) (mint : Pubkey) : Exec Failure PauseState := do
  let p ← account (l.pauses a)
  checkSeeds a (.pause mint) p.bump
  pure p

theorem pauseAccount_eq_ok {l : Ledger} {a : Pda} {mint : Pubkey} {p : PauseState} :
    pauseAccount l a mint = ok p ↔ l.pauses a = some p ∧ a = ⟨.pause mint, p.bump⟩ := by
  simp only [pauseAccount, checkSeeds, bind_eq_ok, require_eq_ok, account_eq_ok, pure_eq, Exec.ok.injEq,
    exists_const]
  constructor
  · intro ⟨_, h, ha, hp⟩
    subst hp
    exact ⟨h, ha⟩
  · exact fun ⟨h, ha⟩ => ⟨p, h, ha, rfl⟩

/-- Pausable `pause` or `resume` on a Token ACL mint; a Hook mint has no Pausable extension. -/
def setMintPaused (P : Programs W) (s : State W) (x : PauseOrUnpause) (config : StablecoinConfig)
    (paused : Bool) : Exec Failure (State W) :=
  if config.usesTokenAcl then cpi P s (.setPaused x.tokenProgram x.mint (P.address x.config) paused)
  else pure s

/-- Both handlers: `paused` is the flag they set, `refused` the error when it is set already. -/
def handlerSetPaused (paused : Bool) (refused : SssError) (event : Pubkey → Pubkey → Int64 → Event)
    (P : Programs W) (now : Int64) (s : State W) (x : PauseOrUnpause) : Exec Failure (State W) := do
  let l := s.ledger
  let config ← configAccount l x.config
  require (config.mint = x.mint) (.sss .invalidMint)
  let pauseState ← pauseAccount l x.pauseState config.mint
  let operatorRole ← account (l.roles x.operatorRole)
  require (x.tokenProgram = token2022Id) (.anchor .invalidProgramId)
  validatePauser operatorRole x.operator config.mint
  require (pauseState.paused = !paused) (.sss refused)
  let s ← setMintPaused P s x config paused
  let l := l.setConfig x.config { config with paused }
  let l := l.setPause x.pauseState { pauseState with paused, pausedAt := now, pausedBy := x.operator }
  pure (s.commit l (some (event config.mint x.operator now)))

def handlerPause (P : Programs W) (now : Int64) (s : State W) (x : PauseOrUnpause) : Exec Failure (State W) :=
  handlerSetPaused true .alreadyPaused .tokensPaused P now s x

def handlerUnpause (P : Programs W) (now : Int64) (s : State W) (x : PauseOrUnpause) : Exec Failure (State W) :=
  handlerSetPaused false .notPaused .tokensUnpaused P now s x

theorem handlerSetPaused_ok {paused : Bool} {refused : SssError} {event : Pubkey → Pubkey → Int64 → Event}
    {x : PauseOrUnpause} (h : handlerSetPaused paused refused event P now s x = ok s') :
    ∃ c p r sw, configAccount s.ledger x.config = ok c ∧ c.mint = x.mint ∧
      pauseAccount s.ledger x.pauseState c.mint = ok p ∧ p.paused = !paused ∧
      s.ledger.roles x.operatorRole = some r ∧ r.Authorizes .pauser x.operator c.mint ∧
      setMintPaused P s x c paused = ok sw ∧
      s' = sw.commit ((s.ledger.setConfig x.config { c with paused }).setPause x.pauseState
        { p with paused, pausedAt := now, pausedBy := x.operator }) (some (event c.mint x.operator now)) := by
  simp only [handlerSetPaused, validatePauser, bind_eq_ok, require_eq_ok, exists_const, account_eq_ok,
    validateOperator_eq_ok, pure_eq, Exec.ok.injEq] at h
  obtain ⟨c, hc, hmint, p, hp, r, hr, -, hauth, hpaused, sw, hsw, hs⟩ := h
  exact ⟨c, p, r, sw, hc, hmint, hp, hpaused, hr, hauth, hsw, hs.symm⟩

end ThawGate.Token
