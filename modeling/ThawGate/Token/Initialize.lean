import ThawGate.Token.Context

/-!
# `initialize`

Creates a mint with its extensions, the config, the pause state and the first master authority's
role record. The three accounts are new: `init` refuses an address that has one.
-/

namespace ThawGate.Token

open Borsh Exec Function

structure InitializeArgs where
  name : Str
  symbol : Str
  uri : Str
  decimals : UInt8
  enablePermanentDelegate : Bool
  enableTransferHook : Bool
  defaultAccountFrozen : Bool
  hookProgramId : Option Pubkey
  enableConfidentialTransfers : Bool
  enableAllowlist : Bool
  complianceMode : UInt8
  deriving DecidableEq

namespace InitializeArgs

def usesTokenAcl (args : InitializeArgs) : Bool :=
  args.complianceMode == complianceModeAcl || args.complianceMode == complianceModeBoth

def validateComplianceMode (args : InitializeArgs) : Exec Failure Unit :=
  if args.complianceMode = complianceModeHook then ok ()
  else if args.usesTokenAcl then
    require (args.defaultAccountFrozen ∧ args.enableTransferHook = (args.complianceMode == complianceModeBoth))
      (.sss .invalidComplianceMode)
  else err (.sss .invalidComplianceMode)

/-- The metadata of a Token ACL mint, with the field that `enable_token_acl` writes later. -/
def metadata (args : InitializeArgs) : Option TokenMetadata :=
  if args.usesTokenAcl then some ⟨args.name, args.symbol, args.uri, [("token_acl", gateId)]⟩ else none

def buildExtensionList (args : InitializeArgs) : List ExtensionType :=
  (if args.enablePermanentDelegate then [.permanentDelegate] else []) ++
  (if args.enableTransferHook then [.transferHook] else []) ++
  (if args.defaultAccountFrozen then [.defaultAccountState] else []) ++
  (if args.usesTokenAcl then [.pausable, .metadataPointer] else [])

end InitializeArgs

/-- The accounts of `initialize`. -/
structure Initialize where
  authority : Pubkey
  mint : Pubkey
  config : Pda
  pauseState : Pda
  masterRole : Pda
  tokenProgram : Pubkey
  deriving DecidableEq

variable {W : Type} {P : Programs W} {now : Int64} {s s' : State W}

def initializeTransferHook (x : Initialize) (args : InitializeArgs) : Exec Failure (List Call) :=
  if args.enableTransferHook then do
    let hookProgramId ← orErr args.hookProgramId (.sss .invalidConfig)
    pure [.initializeTransferHook x.mint x.authority hookProgramId]
  else pure []

/-- The mint account, its extensions and the mint itself, in the order Token-2022 asks for. -/
def createMint (P : Programs W) (x : Initialize) (args : InitializeArgs) : Exec Failure (List Call) := do
  let config := P.address x.config
  let hook ← initializeTransferHook x args
  pure <|
    [.createMintAccount x.authority x.mint args.buildExtensionList args.metadata] ++
    (if args.enablePermanentDelegate then [.initializePermanentDelegate x.mint config] else []) ++
    hook ++
    (if args.defaultAccountFrozen then [.initializeDefaultAccountState x.mint] else []) ++
    (if args.usesTokenAcl then
      [.initializePausable x.mint config, .initializeMetadataPointer x.mint config x.mint] else []) ++
    [.initializeMint2 x.tokenProgram x.mint args.decimals config config] ++
    (if args.usesTokenAcl then
      [.initializeMetadata x.mint config config args.name args.symbol args.uri] else [])

def initializeConfig (P : Programs W) (x : Initialize) (args : InitializeArgs) : StablecoinConfig where
  authority := x.authority
  mint := x.mint
  name := args.name
  symbol := args.symbol
  uri := args.uri
  decimals := args.decimals
  enablePermanentDelegate := args.enablePermanentDelegate
  enableTransferHook := args.enableTransferHook
  defaultAccountFrozen := args.defaultAccountFrozen
  enableConfidentialTransfers := args.enableConfidentialTransfers
  enableAllowlist := args.enableAllowlist
  paused := false
  totalMinted := 0
  totalBurned := 0
  bump := P.canonicalBump (.config x.mint)
  complianceMode := args.complianceMode

def initializePauseState (P : Programs W) (x : Initialize) : PauseState :=
  ⟨x.mint, false, 0, .default, P.canonicalBump (.pause x.mint)⟩

def initializeMasterRole (P : Programs W) (now : Int64) (x : Initialize) : RoleRecord :=
  ⟨x.mint, x.authority, .masterAuthority, true, now, P.canonicalBump (.role x.mint x.authority .masterAuthority)⟩

def Initialize.event (now : Int64) (x : Initialize) (args : InitializeArgs) : Event :=
  .stablecoinInitialized x.mint x.authority args.name args.symbol args.decimals args.enablePermanentDelegate
    args.enableTransferHook args.defaultAccountFrozen now args.complianceMode

def initializeHandler (P : Programs W) (now : Int64) (s : State W) (x : Initialize) (args : InitializeArgs) :
    Exec Failure (State W) := do
  init P s.ledger x.config (.config x.mint)
  init P s.ledger x.pauseState (.pause x.mint)
  init P s.ledger x.masterRole (.role x.mint x.authority .masterAuthority)
  tokenInterface x.tokenProgram
  require (args.name.bytes.length ≤ maxNameLen) (.sss .nameTooLong)
  require (args.symbol.bytes.length ≤ maxSymbolLen) (.sss .symbolTooLong)
  require (args.uri.bytes.length ≤ maxUriLen) (.sss .uriTooLong)
  when args.enableTransferHook (require args.hookProgramId.isSome (.sss .invalidConfig))
  args.validateComplianceMode
  let s ← cpis P s (← createMint P x args)
  let l := s.ledger.setConfig x.config (initializeConfig P x args)
  let l := l.setPause x.pauseState (initializePauseState P x)
  let l := l.setRole x.masterRole (initializeMasterRole P now x)
  pure (s.commit l (some (x.event now args)))

/-- What `initialize` leaves: three accounts at addresses that had none. -/
theorem initializeHandler_ok {x : Initialize} {args : InitializeArgs}
    (h : initializeHandler P now s x args = ok s') :
    (x.config = P.canonical (.config x.mint) ∧ s.ledger.vacant x.config) ∧
    (x.pauseState = P.canonical (.pause x.mint) ∧ s.ledger.vacant x.pauseState) ∧
    (x.masterRole = P.canonical (.role x.mint x.authority .masterAuthority) ∧ s.ledger.vacant x.masterRole) ∧
    ∃ calls w, createMint P x args = ok calls ∧ calls.foldlM P.invoke s.world = some w ∧
      s' = { ledger := ((s.ledger.setConfig x.config (initializeConfig P x args)).setPause x.pauseState
               (initializePauseState P x)).setRole x.masterRole (initializeMasterRole P now x)
             world := w
             events := x.event now args :: s.events } := by
  simp only [initializeHandler, tokenInterface, bind_eq_ok, init_eq_ok, require_eq_ok, exists_const, cpis_eq_ok,
    pure_eq, Exec.ok.injEq] at h
  obtain ⟨hconfig, hpause, hmaster, -, -, -, -, _, -, _, -, calls, hcalls, _, ⟨w, hw, rfl⟩, hs⟩ := h
  exact ⟨hconfig, hpause, hmaster, calls, w, hcalls, hw, hs.symm⟩

end ThawGate.Token
