import ThawGate.Gate.State
import ThawGate.Token.State

/-!
# What an sss-token instruction runs in

The errors it fails with, the events it emits, the programs it calls and the constraints Anchor
checks on its accounts.

The other programs (Token-2022, the associated token program, Token ACL, the gate, the system
program) are a parameter: `Programs W` has their state `W`, what sss-token reads of it and what a
call does to it. Nothing is assumed of them here; a result that relies on one of them says how.
A call that fails ends the instruction, and an instruction that fails changes nothing. What only
makes the runtime refuse more (rent, compute, writable flags) is left out.
-/

namespace ThawGate.Token

open Borsh Exec

/-! ### Errors -/

inductive SssError where
  | notAuthorized
  | configImmutable
  | featureNotEnabled
  | alreadyInitialized
  | invalidMint
  | tokensPaused
  | minterNotFound
  | minterQuotaExceeded
  | burnerNotFound
  | accountNotFrozen
  | accountAlreadyFrozen
  | accountAlreadyBlacklisted
  | accountNotBlacklisted
  | blacklisterNotFound
  | seizeNotAuthorized
  | pauserNotFound
  | invalidRoleType
  | roleAlreadyActive
  | roleNotActive
  | invalidAmount
  | overflow
  | invalidConfig
  | transferHookCheckFailed
  | nameTooLong
  | symbolTooLong
  | uriTooLong
  | reasonTooLong
  | permanentDelegateNotEnabled
  | blacklistEntryRequired
  | alreadyPaused
  | notPaused
  | allowlistEntryNotActive
  | invalidComplianceMode
  | notTokenAclMode
  | unknownFreezeAuthority
  | reserveInsufficient
  | reserveStale
  | reserveAttestationMissing
  | notReserveAttestor
  | invalidReserveAttestation
  | targetAccountOwnerMismatch
  | allowlistEntryAlreadyActive
  deriving DecidableEq, Repr

/-- Anchor's own errors, for the constraints sss-token gives no error of its own. -/
inductive AnchorError where
  | accountNotInitialized
  | accountDiscriminatorMismatch
  | invalidProgramId
  | constraintSeeds
  | constraintAddress
  | constraintAssociated
  | constraintTokenMint
  | constraintTokenOwner
  | constraintTokenTokenProgram
  deriving DecidableEq, Repr

/-- Why `mint_tokens` is refused for its reserves, with the numbers it logs. -/
inductive ReserveDenial where
  | missing
  | stale (asOf now age maxStaleness : Int64)
  | insufficient (supply amount reserves : UInt64) (asOf : Int64)
  deriving DecidableEq

inductive Failure where
  | sss (e : SssError)
  | anchor (e : AnchorError)
  | reserve (d : ReserveDenial)
  /-- A program that was called failed. -/
  | program
  deriving DecidableEq

/-! ### Events -/

inductive Event where
  | stablecoinInitialized (mint authority : Pubkey) (name symbol : Str) (decimals : UInt8)
      (enablePermanentDelegate enableTransferHook defaultAccountFrozen : Bool) (timestamp : Int64)
      (complianceMode : UInt8)
  | tokensMinted (mint recipient : Pubkey) (amount : UInt64) (minter : Pubkey) (timestamp : Int64)
  | tokensBurned (mint : Pubkey) (amount : UInt64) (burner : Pubkey) (timestamp : Int64)
  | accountFrozen (mint target operator : Pubkey) (timestamp : Int64)
  | accountThawed (mint target operator : Pubkey) (timestamp : Int64)
  | tokensPaused (mint operator : Pubkey) (timestamp : Int64)
  | tokensUnpaused (mint operator : Pubkey) (timestamp : Int64)
  | authorityTransferred (mint oldAuthority newAuthority : Pubkey) (timestamp : Int64)
  | addedToBlacklist (mint target : Pubkey) (reason : Str) (operator : Pubkey) (timestamp : Int64)
  | removedFromBlacklist (mint target operator : Pubkey) (timestamp : Int64)
  | tokensSeized (mint source treasury : Pubkey) (amount : UInt64) (seizer : Pubkey) (timestamp : Int64)
  | tokenAclEnabled (mint gatingProgram policyAuthority : Pubkey) (timestamp : Int64)
  | reserveAttestorSet (mint attestor : Pubkey) (maxStaleness : Int64) (reset : Bool) (timestamp : Int64)
  | reservesAttested (mint attestor : Pubkey) (reserves : UInt64) (asOf : Int64) (reportUri : Str)
      (timestamp : Int64)
  | allowlistAdded (mint wallet : Pubkey) (timestamp : Int64)
  | allowlistRemoved (mint wallet : Pubkey) (timestamp : Int64)
  | confidentialAccountConfigured (mint owner tokenAccount : Pubkey) (timestamp : Int64)
  | pendingBalanceApplied (mint owner tokenAccount : Pubkey) (timestamp : Int64)
  deriving DecidableEq

/-! ### The programs it calls -/

inductive ExtensionType where
  | permanentDelegate
  | transferHook
  | defaultAccountState
  | pausable
  | metadataPointer
  deriving DecidableEq, Repr

structure TokenMetadata where
  name : Str
  symbol : Str
  uri : Str
  additionalMetadata : List (String × Pubkey)
  deriving DecidableEq

/-- The calls sss-token makes. Where one needs a signature, it is the authority's. -/
inductive Call where
  /-- The system program's account creation for a new mint, sized for the extensions and the metadata. -/
  | createMintAccount (payer mint : Pubkey) (extensions : List ExtensionType) (metadata : Option TokenMetadata)
  | initializePermanentDelegate (mint delegate : Pubkey)
  | initializeTransferHook (mint authority hookProgram : Pubkey)
  /-- With the state `Frozen`. -/
  | initializeDefaultAccountState (mint : Pubkey)
  | initializePausable (mint authority : Pubkey)
  | initializeMetadataPointer (mint authority metadata : Pubkey)
  | initializeMint2 (program mint : Pubkey) (decimals : UInt8) (mintAuthority freezeAuthority : Pubkey)
  | initializeMetadata (mint updateAuthority mintAuthority : Pubkey) (name symbol uri : Str)
  | updateMetadataField (program mint updateAuthority : Pubkey) (key : String) (value : Pubkey)
  | createAssociatedToken (program payer account wallet mint : Pubkey)
  | mintTo (program mint account authority : Pubkey) (amount : UInt64)
  | burn (program mint account authority : Pubkey) (amount : UInt64)
  /-- `remaining` are the transfer hook's accounts. -/
  | transferChecked (program source mint destination authority : Pubkey) (amount : UInt64) (decimals : UInt8)
      (remaining : List Pubkey)
  | freezeAccount (program account mint authority : Pubkey)
  | thawAccount (program account mint authority : Pubkey)
  /-- Token-2022 Pausable `pause` and `resume`. -/
  | setPaused (program mint authority : Pubkey) (paused : Bool)
  | aclCreateConfig (payer authority mint mintConfig gatingProgram : Pubkey)
  | aclTogglePermissionless (authority mintConfig : Pubkey) (freezeEnabled thawEnabled : Bool)
  | aclFreeze (authority mint account mintConfig : Pubkey)
  | aclThaw (authority mint account mintConfig : Pubkey)
  | gateInitPolicy (freezeAuthority payer policy mint mintConfig thawExtraMetas freezeExtraMetas : Pubkey)
      (args : Gate.PolicyArgs)
  deriving DecidableEq

/-- A mint account, as `InterfaceAccount<Mint>` and the Pausable extension give it. -/
structure Mint where
  program : Pubkey
  supply : UInt64
  decimals : UInt8
  freezeAuthority : Option Pubkey
  /-- The Pausable extension's flag; `false` without the extension. -/
  paused : Bool
  deriving DecidableEq

structure TokenAccount where
  program : Pubkey
  mint : Pubkey
  owner : Pubkey
  amount : UInt64
  frozen : Bool
  deriving DecidableEq

/-- The PDAs of other programs that belong to a mint. -/
inductive MintPda where
  | mintConfig
  | gatePolicy
  | thawExtraMetas
  | freezeExtraMetas
  deriving DecidableEq, Repr

/-- The other programs and the address derivations. -/
structure Programs (W : Type) where
  /-- The bump `find_program_address` ends at. -/
  canonicalBump : Seeds → UInt8
  /-- `create_program_address`. -/
  address : Pda → Pubkey
  mintPda : MintPda → Pubkey → Pubkey
  /-- The associated token address of a wallet, for a mint and its token program. -/
  associatedToken : Pubkey → Pubkey → Pubkey → Pubkey
  mint : W → Pubkey → Option Mint
  tokenAccount : W → Pubkey → Option TokenAccount
  /-- `data_is_empty()` -/
  dataIsEmpty : W → Pubkey → Bool
  invoke : W → Call → Option W

/-- The address `find_program_address` gives. -/
def Programs.canonical {W : Type} (P : Programs W) (s : Seeds) : Pda := ⟨s, P.canonicalBump s⟩

theorem Programs.canonical_inj {W : Type} {P : Programs W} {s t : Seeds} :
    P.canonical s = P.canonical t ↔ s = t := by
  constructor
  · exact fun h => congrArg Pda.seeds h
  · exact fun h => congrArg _ h

/-- The whole state: sss-token's accounts, the other programs', and the events so far, newest first. -/
structure State (W : Type) where
  ledger : Ledger
  world : W
  events : List Event

variable {W α : Type}

/-- What an instruction leaves: the ledger it wrote and, unless it emits none, its event. -/
def State.commit (s : State W) (l : Ledger) (e : Option Event) : State W :=
  ⟨l, s.world, e.toList ++ s.events⟩

/-! ### Account constraints -/

/-- `Account<'info, T>` -/
def account (x : Option α) : Exec Failure α := orErr x (.anchor .accountNotInitialized)

@[simp] theorem account_eq_ok {x : Option α} {a : α} : account x = ok a ↔ x = some a := orErr_eq_ok

/-- `seeds = [..], bump = b` -/
def checkSeeds (a : Pda) (s : Seeds) (bump : UInt8) : Exec Failure Unit :=
  require (a = ⟨s, bump⟩) (.anchor .constraintSeeds)

/-- `init, seeds = [..], bump` -/
def init (P : Programs W) (l : Ledger) (a : Pda) (s : Seeds) : Exec Failure Unit := do
  require (a = P.canonical s) (.anchor .constraintSeeds)
  require (l.vacant a) .program

/-- `init_if_needed, seeds = [..], bump`: what the account holds, or zeroes when it is new. -/
def initIfNeeded (P : Programs W) (l : Ledger) (accounts : Pda → Option α) (a : Pda) (s : Seeds) (zeroed : α) :
    Exec Failure α := do
  require (a = P.canonical s) (.anchor .constraintSeeds)
  match accounts a with
  | some x => pure x
  | none => do
    require (l.vacant a) (.anchor .accountDiscriminatorMismatch)
    pure zeroed

theorem init_eq_ok {P : Programs W} {l : Ledger} {a : Pda} {s : Seeds} {u : Unit} :
    init P l a s = ok u ↔ a = P.canonical s ∧ l.vacant a := by
  rw [init, require_bind_eq_ok, require_eq_ok]

theorem initIfNeeded_eq_ok {P : Programs W} {l : Ledger} {accounts : Pda → Option α} {a : Pda} {s : Seeds}
    {zeroed x : α} (h : initIfNeeded P l accounts a s zeroed = ok x) :
    a = P.canonical s ∧ (accounts a = some x ∨ accounts a = none ∧ l.vacant a ∧ x = zeroed) := by
  rw [initIfNeeded, require_bind_eq_ok] at h
  obtain ⟨ha, h⟩ := h
  refine ⟨ha, ?_⟩
  cases hx : accounts a with
  | some y =>
    rw [hx] at h
    exact .inl (congrArg some (Exec.ok.inj h))
  | none =>
    rw [hx] at h
    obtain ⟨hv, h⟩ := require_bind_eq_ok.1 h
    exact .inr ⟨rfl, hv, (Exec.ok.inj h).symm⟩

/-- A call to another program. -/
def cpi (P : Programs W) (s : State W) (c : Call) : Exec Failure (State W) := do
  let w ← orErr (P.invoke s.world c) .program
  pure { s with world := w }

theorem cpi_eq_ok {P : Programs W} {s s' : State W} {c : Call} :
    cpi P s c = ok s' ↔ ∃ w, P.invoke s.world c = some w ∧ s' = { s with world := w } := by
  simp only [cpi, bind_eq_ok, orErr_eq_ok, pure_eq, Exec.ok.injEq]
  exact exists_congr fun w => and_congr_right' eq_comm

/-- Several calls, in order. -/
def cpis (P : Programs W) (s : State W) (cs : List Call) : Exec Failure (State W) := do
  let w ← orErr (cs.foldlM P.invoke s.world) .program
  pure { s with world := w }

theorem cpis_eq_ok {P : Programs W} {s s' : State W} {cs : List Call} :
    cpis P s cs = ok s' ↔ ∃ w, cs.foldlM P.invoke s.world = some w ∧ s' = { s with world := w } := by
  simp only [cpis, bind_eq_ok, orErr_eq_ok, pure_eq, Exec.ok.injEq]
  exact exists_congr fun w => and_congr_right' eq_comm

/-- The `config` account of every instruction after `initialize`. -/
def configAccount (l : Ledger) (a : Pda) : Exec Failure StablecoinConfig := do
  let c ← account (l.configs a)
  checkSeeds a (.config c.mint) c.bump
  pure c

theorem configAccount_eq_ok {l : Ledger} {a : Pda} {c : StablecoinConfig} :
    configAccount l a = ok c ↔ l.configs a = some c ∧ a = ⟨.config c.mint, c.bump⟩ := by
  simp only [configAccount, checkSeeds, bind_eq_ok, require_eq_ok, account_eq_ok, pure_eq, Exec.ok.injEq,
    exists_const]
  constructor
  · intro ⟨_, h, ha, hc⟩
    subst hc
    exact ⟨h, ha⟩
  · exact fun ⟨h, ha⟩ => ⟨c, h, ha, rfl⟩

/-- A role record at the address derived from `mint`, `holder` and `role`, active and of that role. -/
def roleAccount (l : Ledger) (a : Pda) (mint holder : Pubkey) (role : RoleType) (e : SssError) :
    Exec Failure RoleRecord := do
  let r ← account (l.roles a)
  checkSeeds a (.role mint holder role) r.bump
  require r.active (.sss e)
  require (r.role = role) (.sss e)
  pure r

theorem roleAccount_eq_ok {l : Ledger} {a : Pda} {mint holder : Pubkey} {role : RoleType} {e : SssError}
    {r : RoleRecord} : roleAccount l a mint holder role e = ok r ↔
      l.roles a = some r ∧ a = ⟨.role mint holder role, r.bump⟩ ∧ r.active ∧ r.role = role := by
  simp only [roleAccount, checkSeeds, bind_eq_ok, require_eq_ok, account_eq_ok, pure_eq, Exec.ok.injEq,
    exists_const]
  constructor
  · intro ⟨_, h, ha, hact, hr, hx⟩
    subst hx
    exact ⟨h, ha, hact, hr⟩
  · exact fun ⟨h, ha, hact, hr⟩ => ⟨r, h, ha, hact, hr, rfl⟩

/-- `Interface<'info, TokenInterface>` -/
def tokenInterface (program : Pubkey) : Exec Failure Unit :=
  require (program = token2022Id ∨ program = tokenId) (.anchor .invalidProgramId)

end ThawGate.Token
