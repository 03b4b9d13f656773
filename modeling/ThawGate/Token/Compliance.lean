import ThawGate.Token.Freeze

/-!
# The registry and Token ACL instructions

`add_to_blacklist`, `remove_from_blacklist`, the allowlist's two, `enable_token_acl` and the two
confidential-transfer instructions. An entry is created on the first add, keeps its address, and is
reactivated by a later add.
-/

namespace ThawGate.Token

open Borsh Exec

variable {W : Type} {P : Programs W} {now : Int64} {s s' : State W}

/-! ### Blacklist -/

structure AddToBlacklist where
  operator : Pubkey
  config : Pda
  operatorRole : Pda
  blacklistEntry : Pda
  target : Pubkey
  mint : Pubkey
  targetTokenAccount : Pubkey
  tokenProgram : Pubkey
  tokenAclProgram : Pubkey
  mintConfig : Pubkey
  deriving DecidableEq

/-- An account that is already frozen is left alone: freezing it again would fail. -/
def freezeUnlessFrozen (P : Programs W) (s : State W) (r : FreezeRoute) (t : TokenAccount) :
    Exec Failure (State W) :=
  if t.frozen then ok s else r.run P s .freeze

def handlerAddToBlacklist (P : Programs W) (now : Int64) (s : State W) (x : AddToBlacklist) (reason : Str) :
    Exec Failure (State W) := do
  let l := s.ledger
  let config ← configAccount l x.config
  let _ ← roleAccount l x.operatorRole config.mint x.operator .blacklister .blacklisterNotFound
  let entry ← initIfNeeded P l l.blacklist x.blacklistEntry (.blacklist config.mint x.target) .zeroed
  require (!entry.active) (.sss .accountAlreadyBlacklisted)
  let mint ← mintAccount P s.world x.mint config.mint
  let target ← tokenAccountOf P s.world x.targetTokenAccount x.mint x.tokenProgram
  require (target.owner = x.target) (.sss .targetAccountOwnerMismatch)
  tokenInterface x.tokenProgram
  tokenAclAccounts P x.tokenAclProgram x.mint x.mintConfig
  require config.complianceEnabled (.sss .featureNotEnabled)
  require (reason.bytes.length ≤ maxReasonLen) (.sss .reasonTooLong)
  let l := l.setBlacklist x.blacklistEntry
    ⟨config.mint, x.target, reason, now, x.operator, true, x.blacklistEntry.bump⟩
  let route : FreezeRoute :=
    ⟨P.address x.config, x.mint, mint, x.targetTokenAccount, x.mintConfig, x.tokenProgram⟩
  let s ← freezeUnlessFrozen P s route target
  pure (s.commit l (some (.addedToBlacklist config.mint x.target reason x.operator now)))

theorem handlerAddToBlacklist_ok {x : AddToBlacklist} {reason : Str}
    (h : handlerAddToBlacklist P now s x reason = ok s') :
    ∃ c r e w, configAccount s.ledger x.config = ok c ∧
      roleAccount s.ledger x.operatorRole c.mint x.operator .blacklister .blacklisterNotFound = ok r ∧
      initIfNeeded P s.ledger s.ledger.blacklist x.blacklistEntry (.blacklist c.mint x.target) .zeroed = ok e ∧
      e.active = false ∧ reason.bytes.length ≤ maxReasonLen ∧
      s' = ⟨s.ledger.setBlacklist x.blacklistEntry
          ⟨c.mint, x.target, reason, now, x.operator, true, x.blacklistEntry.bump⟩, w,
        .addedToBlacklist c.mint x.target reason x.operator now :: s.events⟩ := by
  simp only [handlerAddToBlacklist, bind_eq_ok, require_eq_ok, exists_const, pure_eq, Exec.ok.injEq] at h
  obtain ⟨c, hc, r, hr, e, he, hactive, m, -, t, -, -, _, -, _, -, -, hreason, s₁, hs₁, hs⟩ := h
  refine ⟨c, r, e, s₁.world, hc, hr, he, by simpa using hactive, hreason, ?_⟩
  unfold freezeUnlessFrozen at hs₁
  split at hs₁
  · obtain rfl := Exec.ok.inj hs₁
    exact hs.symm
  · obtain ⟨_, w, -, -, rfl⟩ := FreezeRoute.run_ok hs₁
    exact hs.symm

structure RemoveFromBlacklist where
  operator : Pubkey
  config : Pda
  operatorRole : Pda
  blacklistEntry : Pda
  target : Pubkey
  deriving DecidableEq

def handlerRemoveFromBlacklist (now : Int64) (s : State W) (x : RemoveFromBlacklist) :
    Exec Failure (State W) := do
  let l := s.ledger
  let config ← configAccount l x.config
  let _ ← roleAccount l x.operatorRole config.mint x.operator .blacklister .blacklisterNotFound
  let entry ← account (l.blacklist x.blacklistEntry)
  checkSeeds x.blacklistEntry (.blacklist config.mint x.target) entry.bump
  require entry.active (.sss .accountNotBlacklisted)
  require config.complianceEnabled (.sss .featureNotEnabled)
  let l := l.setBlacklist x.blacklistEntry { entry with active := false }
  pure (s.commit l (some (.removedFromBlacklist config.mint x.target x.operator now)))

theorem handlerRemoveFromBlacklist_ok {x : RemoveFromBlacklist}
    (h : handlerRemoveFromBlacklist now s x = ok s') :
    ∃ c r e, configAccount s.ledger x.config = ok c ∧
      roleAccount s.ledger x.operatorRole c.mint x.operator .blacklister .blacklisterNotFound = ok r ∧
      s.ledger.blacklist x.blacklistEntry = some e ∧ e.active ∧
      x.blacklistEntry = ⟨.blacklist c.mint x.target, e.bump⟩ ∧
      s' = s.commit (s.ledger.setBlacklist x.blacklistEntry { e with active := false })
        (some (.removedFromBlacklist c.mint x.target x.operator now)) := by
  simp only [handlerRemoveFromBlacklist, checkSeeds, bind_eq_ok, require_eq_ok, account_eq_ok, exists_const,
    pure_eq, Exec.ok.injEq] at h
  obtain ⟨c, hc, r, hr, e, he, haddr, hactive, -, hs⟩ := h
  exact ⟨c, r, e, hc, hr, he, hactive, haddr, hs.symm⟩

/-! ### Allowlist -/

/-- The config of an allowlist instruction and the record of its authority. Unlike everywhere else the
record's `role` field is not compared: its address carries the role. -/
def allowlistAuthority (l : Ledger) (config authorityRole : Pda) (authority : Pubkey) :
    Exec Failure StablecoinConfig := do
  let c ← configAccount l config
  require c.enableAllowlist (.sss .featureNotEnabled)
  let r ← account (l.roles authorityRole)
  checkSeeds authorityRole (.role c.mint authority .masterAuthority) r.bump
  require r.active (.sss .notAuthorized)
  pure c

structure AddToAllowlist where
  authority : Pubkey
  config : Pda
  authorityRole : Pda
  wallet : Pubkey
  allowlistEntry : Pda
  deriving DecidableEq

def addToAllowlistHandler (P : Programs W) (now : Int64) (s : State W) (x : AddToAllowlist) :
    Exec Failure (State W) := do
  let l := s.ledger
  let config ← allowlistAuthority l x.config x.authorityRole x.authority
  let entry ← initIfNeeded P l l.allowlist x.allowlistEntry (.allowlist config.mint x.wallet) .zeroed
  require (!entry.active) (.sss .allowlistEntryAlreadyActive)
  let l := l.setAllowlist x.allowlistEntry ⟨config.mint, x.wallet, now, true, x.allowlistEntry.bump⟩
  pure (s.commit l (some (.allowlistAdded config.mint x.wallet now)))

theorem addToAllowlistHandler_ok {x : AddToAllowlist} (h : addToAllowlistHandler P now s x = ok s') :
    ∃ c e, allowlistAuthority s.ledger x.config x.authorityRole x.authority = ok c ∧
      initIfNeeded P s.ledger s.ledger.allowlist x.allowlistEntry (.allowlist c.mint x.wallet) .zeroed = ok e ∧
      e.active = false ∧
      s' = s.commit (s.ledger.setAllowlist x.allowlistEntry
        ⟨c.mint, x.wallet, now, true, x.allowlistEntry.bump⟩) (some (.allowlistAdded c.mint x.wallet now)) := by
  simp only [addToAllowlistHandler, bind_eq_ok, require_eq_ok, exists_const, pure_eq, Exec.ok.injEq] at h
  obtain ⟨c, hc, e, he, hactive, hs⟩ := h
  exact ⟨c, e, hc, he, by simpa using hactive, hs.symm⟩

structure RemoveFromAllowlist where
  authority : Pubkey
  config : Pda
  authorityRole : Pda
  wallet : Pubkey
  allowlistEntry : Pda
  deriving DecidableEq

def removeFromAllowlistHandler (now : Int64) (s : State W) (x : RemoveFromAllowlist) :
    Exec Failure (State W) := do
  let l := s.ledger
  let config ← allowlistAuthority l x.config x.authorityRole x.authority
  let entry ← account (l.allowlist x.allowlistEntry)
  checkSeeds x.allowlistEntry (.allowlist config.mint x.wallet) entry.bump
  require entry.active (.sss .allowlistEntryNotActive)
  let l := l.setAllowlist x.allowlistEntry { entry with active := false }
  pure (s.commit l (some (.allowlistRemoved entry.mint entry.wallet now)))

theorem removeFromAllowlistHandler_ok {x : RemoveFromAllowlist}
    (h : removeFromAllowlistHandler now s x = ok s') :
    ∃ c e, allowlistAuthority s.ledger x.config x.authorityRole x.authority = ok c ∧
      s.ledger.allowlist x.allowlistEntry = some e ∧ e.active ∧
      x.allowlistEntry = ⟨.allowlist c.mint x.wallet, e.bump⟩ ∧
      s' = s.commit (s.ledger.setAllowlist x.allowlistEntry { e with active := false })
        (some (.allowlistRemoved e.mint e.wallet now)) := by
  simp only [removeFromAllowlistHandler, checkSeeds, bind_eq_ok, require_eq_ok, account_eq_ok, exists_const,
    pure_eq, Exec.ok.injEq] at h
  obtain ⟨c, hc, e, he, haddr, hactive, hs⟩ := h
  exact ⟨c, e, hc, he, hactive, haddr, hs.symm⟩

/-! ### `enable_token_acl` -/

structure GatePolicyConfig where
  checkBlacklist : Bool
  allowlistMode : Gate.AllowlistMode
  requireSas : Bool
  sasCredential : Pubkey
  sasSchema : Pubkey
  minKycLevel : UInt8
  deriving DecidableEq

structure EnableTokenAcl where
  authority : Pubkey
  config : Pda
  authorityRole : Pda
  mint : Pubkey
  tokenAclProgram : Pubkey
  mintConfig : Pubkey
  gateProgram : Pubkey
  gatePolicy : Pubkey
  thawExtraMetas : Pubkey
  freezeExtraMetas : Pubkey
  tokenProgram : Pubkey
  deriving DecidableEq

/-- The policy's admin is the master authority of the time and its registry is sss-token's. -/
def GatePolicyConfig.args (policy : GatePolicyConfig) (authority : Pubkey) : Gate.PolicyArgs :=
  ⟨authority, sssTokenId, policy.checkBlacklist, policy.allowlistMode, policy.requireSas, policy.sasCredential,
    policy.sasSchema, policy.minKycLevel⟩

def EnableTokenAcl.calls (P : Programs W) (x : EnableTokenAcl) (policyAuthority : Pubkey)
    (policy : GatePolicyConfig) : List Call :=
  let config := P.address x.config
  [.aclCreateConfig x.authority config x.mint x.mintConfig gateId,
    .aclTogglePermissionless config x.mintConfig true true,
    .updateMetadataField x.tokenProgram x.mint config "token_acl" gateId,
    .gateInitPolicy config x.authority x.gatePolicy x.mint x.mintConfig x.thawExtraMetas x.freezeExtraMetas
      (policy.args policyAuthority)]

def enableTokenAclHandler (P : Programs W) (now : Int64) (s : State W) (x : EnableTokenAcl)
    (policy : GatePolicyConfig) : Exec Failure (State W) := do
  let l := s.ledger
  let config ← configAccount l x.config
  require (config.mint = x.mint) (.sss .invalidMint)
  let _ ← roleAccount l x.authorityRole config.mint x.authority .masterAuthority .notAuthorized
  tokenAclAccounts P x.tokenAclProgram x.mint x.mintConfig
  require (x.gateProgram = gateId) (.anchor .constraintAddress)
  require (x.gatePolicy = P.mintPda .gatePolicy x.mint) (.anchor .constraintSeeds)
  require (x.thawExtraMetas = P.mintPda .thawExtraMetas x.mint) (.anchor .constraintSeeds)
  require (x.freezeExtraMetas = P.mintPda .freezeExtraMetas x.mint) (.anchor .constraintSeeds)
  require (x.tokenProgram = token2022Id) (.anchor .invalidProgramId)
  require config.usesTokenAcl (.sss .notTokenAclMode)
  let s ← cpis P s (x.calls P config.authority policy)
  pure (s.commit l (some (.tokenAclEnabled config.mint gateId config.authority now)))

theorem enableTokenAclHandler_ok {x : EnableTokenAcl} {policy : GatePolicyConfig}
    (h : enableTokenAclHandler P now s x policy = ok s') :
    ∃ c r w, configAccount s.ledger x.config = ok c ∧ c.mint = x.mint ∧
      roleAccount s.ledger x.authorityRole c.mint x.authority .masterAuthority .notAuthorized = ok r ∧
      c.usesTokenAcl ∧ (x.calls P c.authority policy).foldlM P.invoke s.world = some w ∧
      s' = ⟨s.ledger, w, .tokenAclEnabled c.mint gateId c.authority now :: s.events⟩ := by
  simp only [enableTokenAclHandler, bind_eq_ok, require_eq_ok, exists_const, cpis_eq_ok, pure_eq,
    Exec.ok.injEq] at h
  obtain ⟨c, hc, hmint, r, hr, _, -, -, -, -, -, -, hacl, _, ⟨w, hw, rfl⟩, hs⟩ := h
  exact ⟨c, r, w, hc, hmint, hr, hacl, hw, hs.symm⟩

/-! ### Confidential transfers -/

structure ConfidentialAccount where
  owner : Pubkey
  config : Pda
  mint : Pubkey
  tokenAccount : Pubkey
  tokenProgram : Pubkey
  deriving DecidableEq

/-- Both handlers check the flag, twice, and emit: the extension itself is not called. -/
def confidentialHandler (event : Pubkey → Pubkey → Pubkey → Int64 → Event) (now : Int64) (s : State W)
    (x : ConfidentialAccount) : Exec Failure (State W) := do
  let config ← configAccount s.ledger x.config
  require config.enableConfidentialTransfers (.sss .featureNotEnabled)
  tokenInterface x.tokenProgram
  require config.enableConfidentialTransfers (.sss .featureNotEnabled)
  pure (s.commit s.ledger (some (event config.mint x.owner x.tokenAccount now)))

def configureConfidentialAccountHandler (now : Int64) (s : State W) (x : ConfidentialAccount) :
    Exec Failure (State W) :=
  confidentialHandler .confidentialAccountConfigured now s x

def applyPendingBalanceHandler (now : Int64) (s : State W) (x : ConfidentialAccount) :
    Exec Failure (State W) :=
  confidentialHandler .pendingBalanceApplied now s x

theorem confidentialHandler_ok {event : Pubkey → Pubkey → Pubkey → Int64 → Event} {x : ConfidentialAccount}
    (h : confidentialHandler event now s x = ok s') :
    ∃ c, configAccount s.ledger x.config = ok c ∧ c.enableConfidentialTransfers ∧
      s' = s.commit s.ledger (some (event c.mint x.owner x.tokenAccount now)) := by
  simp only [confidentialHandler, bind_eq_ok, require_eq_ok, exists_const, pure_eq, Exec.ok.injEq] at h
  obtain ⟨c, hc, hflag, _, -, -, hs⟩ := h
  exact ⟨c, hc, hflag, hs.symm⟩

end ThawGate.Token
