import ThawGate.Token.Pause

/-!
# `freeze_account` and `thaw_account`

The config PDA signs: as the mint's Token-2022 freeze authority, or through Token ACL once the mint's
MintConfig holds that authority (`FreezeRoute`). As in `pause`, `operator_role` has no seeds.
-/

namespace ThawGate.Token

open Exec

variable {W : Type} {P : Programs W} {now : Int64} {s s' : State W}

/-! ### The route -/

inductive FreezeOp where
  | freeze
  | thaw
  deriving DecidableEq, Repr

/-- The accounts a freeze or thaw needs, whichever way it goes. -/
structure FreezeRoute where
  config : Pubkey
  mint : Pubkey
  /-- The mint account as loaded at the start of the instruction. -/
  mintAccount : Mint
  tokenAccount : Pubkey
  mintConfig : Pubkey
  tokenProgram : Pubkey

/-- The call `freeze_route` makes: to Token-2022, or to Token ACL. -/
def FreezeRoute.call (r : FreezeRoute) (op : FreezeOp) : Exec Failure Call :=
  if r.mintAccount.freezeAuthority = some r.config then
    match op with
    | .freeze => ok (.freezeAccount r.tokenProgram r.tokenAccount r.mint r.config)
    | .thaw => ok (.thawAccount r.tokenProgram r.tokenAccount r.mint r.config)
  else if r.mintAccount.freezeAuthority = some r.mintConfig then
    match op with
    | .freeze => ok (.aclFreeze r.config r.mint r.tokenAccount r.mintConfig)
    | .thaw => ok (.aclThaw r.config r.mint r.tokenAccount r.mintConfig)
  else err (.sss .unknownFreezeAuthority)

def FreezeRoute.run (P : Programs W) (s : State W) (r : FreezeRoute) (op : FreezeOp) : Exec Failure (State W) := do
  cpi P s (← r.call op)

/-- A freeze or thaw is a call: it changes nothing of sss-token's. -/
theorem FreezeRoute.run_ok {r : FreezeRoute} {op : FreezeOp} (h : r.run P s op = ok s') :
    ∃ c w, r.call op = ok c ∧ P.invoke s.world c = some w ∧ s' = { s with world := w } := by
  obtain ⟨c, hc, h⟩ := bind_eq_ok.1 h
  obtain ⟨w, hw, hs⟩ := cpi_eq_ok.1 h
  exact ⟨c, w, hc, hw, hs⟩

/-! ### The handlers -/

structure FreezeOrThaw where
  operator : Pubkey
  config : Pda
  operatorRole : Pda
  mint : Pubkey
  targetTokenAccount : Pubkey
  tokenProgram : Pubkey
  tokenAclProgram : Pubkey
  mintConfig : Pubkey
  deriving DecidableEq

/-- `InterfaceAccount<'info, Mint>` with `mint.key() == config.mint`. -/
def mintAccount (P : Programs W) (w : W) (mint configMint : Pubkey) : Exec Failure Mint := do
  let m ← account (P.mint w mint)
  require (mint = configMint) (.sss .invalidMint)
  pure m

theorem mintAccount_eq_ok {w : W} {mint configMint : Pubkey} {m : Mint} :
    mintAccount P w mint configMint = ok m ↔ P.mint w mint = some m ∧ mint = configMint := by
  simp only [mintAccount, bind_eq_ok, account_eq_ok, require_eq_ok, exists_const, pure_eq, Exec.ok.injEq]
  constructor
  · rintro ⟨_, h, hm, rfl⟩
    exact ⟨h, hm⟩
  · rintro ⟨h, hm⟩
    exact ⟨m, h, hm, rfl⟩

/-- `InterfaceAccount<'info, TokenAccount>` with `token::mint` and `token::token_program`. -/
def tokenAccountOf (P : Programs W) (w : W) (key mint tokenProgram : Pubkey) : Exec Failure TokenAccount := do
  let t ← account (P.tokenAccount w key)
  require (t.mint = mint) (.anchor .constraintTokenMint)
  require (t.program = tokenProgram) (.anchor .constraintTokenTokenProgram)
  pure t

theorem tokenAccountOf_eq_ok {w : W} {key mint tokenProgram : Pubkey} {t : TokenAccount} :
    tokenAccountOf P w key mint tokenProgram = ok t ↔
      P.tokenAccount w key = some t ∧ t.mint = mint ∧ t.program = tokenProgram := by
  simp only [tokenAccountOf, bind_eq_ok, account_eq_ok, require_eq_ok, exists_const, pure_eq, Exec.ok.injEq]
  constructor
  · rintro ⟨_, h, hm, hp, rfl⟩
    exact ⟨h, hm, hp⟩
  · rintro ⟨h, hm, hp⟩
    exact ⟨t, h, hm, hp, rfl⟩

/-- The Token ACL program and the mint's MintConfig PDA. -/
def tokenAclAccounts (P : Programs W) (tokenAclProgram mint mintConfig : Pubkey) : Exec Failure Unit := do
  require (tokenAclProgram = tokenAclId) (.anchor .constraintAddress)
  require (mintConfig = P.mintPda .mintConfig mint) (.anchor .constraintSeeds)

def validateFreezeAuthority (r : RoleRecord) (operator mint : Pubkey) : Exec Failure Unit :=
  validateOperator .blacklister .notAuthorized r operator mint

/-- Both handlers, which differ in the operation and the event. -/
def handlerFreezeOrThaw (op : FreezeOp) (event : Pubkey → Pubkey → Pubkey → Int64 → Event) (P : Programs W)
    (now : Int64) (s : State W) (x : FreezeOrThaw) : Exec Failure (State W) := do
  let l := s.ledger
  let config ← configAccount l x.config
  let operatorRole ← account (l.roles x.operatorRole)
  let mint ← mintAccount P s.world x.mint config.mint
  let _ ← tokenAccountOf P s.world x.targetTokenAccount x.mint x.tokenProgram
  tokenInterface x.tokenProgram
  tokenAclAccounts P x.tokenAclProgram x.mint x.mintConfig
  validateFreezeAuthority operatorRole x.operator config.mint
  let route : FreezeRoute :=
    ⟨P.address x.config, x.mint, mint, x.targetTokenAccount, x.mintConfig, x.tokenProgram⟩
  let s ← route.run P s op
  pure (s.commit l (some (event config.mint x.targetTokenAccount x.operator now)))

def handlerFreeze (P : Programs W) (now : Int64) (s : State W) (x : FreezeOrThaw) : Exec Failure (State W) :=
  handlerFreezeOrThaw .freeze .accountFrozen P now s x

def handlerThaw (P : Programs W) (now : Int64) (s : State W) (x : FreezeOrThaw) : Exec Failure (State W) :=
  handlerFreezeOrThaw .thaw .accountThawed P now s x

theorem handlerFreezeOrThaw_ok {op : FreezeOp} {event : Pubkey → Pubkey → Pubkey → Int64 → Event}
    {x : FreezeOrThaw} (h : handlerFreezeOrThaw op event P now s x = ok s') :
    ∃ c r m t c' w, configAccount s.ledger x.config = ok c ∧ s.ledger.roles x.operatorRole = some r ∧
      r.Authorizes .blacklister x.operator c.mint ∧ mintAccount P s.world x.mint c.mint = ok m ∧
      tokenAccountOf P s.world x.targetTokenAccount x.mint x.tokenProgram = ok t ∧
      FreezeRoute.call ⟨P.address x.config, x.mint, m, x.targetTokenAccount, x.mintConfig, x.tokenProgram⟩ op =
        ok c' ∧ P.invoke s.world c' = some w ∧
      s' = ⟨s.ledger, w, event c.mint x.targetTokenAccount x.operator now :: s.events⟩ := by
  simp only [handlerFreezeOrThaw, validateFreezeAuthority, bind_eq_ok, account_eq_ok, validateOperator_eq_ok,
    exists_const, pure_eq, Exec.ok.injEq] at h
  obtain ⟨c, hc, r, hr, m, hm, t, ht, _, -, _, -, hauth, _, hrun, hs⟩ := h
  obtain ⟨c', w, hcall, hw, rfl⟩ := FreezeRoute.run_ok hrun
  exact ⟨c, r, m, t, c', w, hc, hr, hauth, hm, ht, hcall, hw, hs.symm⟩

end ThawGate.Token
