import ThawGate.Lib.Exec
import ThawGate.Sdk.Reasons

/-!
# The gate client

`explain` and `freezeIfInvalid` of `sdk/src/gate/client.ts`, with the part of `tokenAcl.ts` they call. Both
read the mint's Token ACL config and the token account, simulate a permissionless thaw or freeze, and answer from the
simulation's error and logs. Addresses are their base58 texts. What the RPC answers, and what it throws, is `Rpc`.
-/

namespace ThawGate.Sdk

open Logs

/-- Token ACL's per-mint config, as far as it is read. -/
structure MintConfig where
  enablePermissionlessThaw : Bool
  enablePermissionlessFreeze : Bool
  gatingProgram : Text
  deriving DecidableEq

structure TokenAccount where
  mint : Text
  owner : Text
  isFrozen : Bool

inductive PermissionlessKind
  | thaw
  | thawIdempotent
  | freeze
  | freezeIdempotent
  deriving DecidableEq

inductive Instruction
  | createAtaIdempotent (payer tokenAccount owner mint : Text)
  | permissionless (kind : PermissionlessKind) (caller mint tokenAccount owner gating : Text) (extras : List Text)

/-- The `err` of a simulation or a transaction. -/
inductive TransactionError
  | accountNotFound
  | instruction (index : Nat) (custom : Option Nat)
  | other
  deriving DecidableEq

/-- The `value` that `simulateTransaction` answers with. -/
structure SimValue where
  err : Option TransactionError
  logs : Option (List Text)

/-- The answers of the RPC; an `err` is what the call throws. -/
structure Rpc where
  /-- `fetchMintConfig`: no account of Token ACL's is no config. -/
  mintConfig : Text → Exec String (Option MintConfig)
  /-- `getAccountInfo` and `unpackAccount`, which throws on data that are no Token-2022 account. -/
  tokenAccount : Text → Exec String (Option TokenAccount)
  /-- The authority of the mint's ThawGate policy. -/
  policyAuthority : Text → Exec String (Option Text)
  /-- The gating program's extra accounts for a thaw (`true`) or a freeze, resolved. -/
  extraMetas : Bool → Text → Text → Exec String (List Text)
  simulateTransaction : List Instruction → Text → Exec String SimValue
  /-- Signs, sends and confirms; the answer is the signature. -/
  send : List Instruction → Exec String Text

structure GateClient where
  gateProgramId : Text
  wallet : Option Text
  ata : Text → Text → Text

def permissionlessIx (rpc : Rpc) (kind : PermissionlessKind) (caller mint tokenAccount owner : Text)
    (mintConfig : Option MintConfig) : Exec String Instruction := do
  let fetched ← match mintConfig with
    | some config => pure (some config)
    | none => rpc.mintConfig mint
  let config ← Exec.orErr fetched ("mint " ++ String.ofList mint ++ " has no Token ACL MintConfig")
  let extras ← rpc.extraMetas (kind = .thaw ∨ kind = .thawIdempotent) mint config.gatingProgram
  pure (.permissionless kind caller mint tokenAccount owner config.gatingProgram extras)

structure Simulated where
  err : Option TransactionError
  logs : List Text
  errorCode : Option Nat
  payerMissing : Bool

/-- What `simulate` takes from the answer. -/
def SimValue.read (value : SimValue) : Simulated where
  err := value.err
  logs := value.logs.getD []
  errorCode := match value.err with
    | some (.instruction _ custom) => custom
    | _ => none
  payerMissing := value.err = some .accountNotFound

def simulate (rpc : Rpc) (ixs : List Instruction) (payer : Text) : Exec String Simulated := do
  let value ← rpc.simulateTransaction ixs payer
  pure value.read

/-! ### explain -/

inductive AccountState
  | missing
  | frozen
  | thawed
  deriving DecidableEq

inductive Status
  | canUnlock
  | denied
  | compliant
  | freezable
  | notTokenAcl
  | permissionlessDisabled
  | error
  deriving DecidableEq

structure Explanation where
  mint : Text
  wallet : Text
  tokenAccount : Text
  account : AccountState
  status : Status
  code : Option String
  reason : String
  simulated : Option GateAction
  gatingProgram : Option Text
  verdict : Option GateVerdict
  logs : List Text

/-- What `explain` has read and built when it comes to the simulation. -/
structure Question where
  base : Explanation
  config : MintConfig
  action : GateAction
  payer : Text
  ixs : List Instruction

def GateAction.name : GateAction → String
  | thaw => "thaw"
  | freeze => "freeze"

def GateAction.kind : GateAction → PermissionlessKind
  | thaw => .thaw
  | freeze => .freeze

def MintConfig.enables (config : MintConfig) : GateAction → Bool
  | .thaw => config.enablePermissionlessThaw
  | .freeze => config.enablePermissionlessFreeze

def accountState : Option TokenAccount → AccountState
  | none => .missing
  | some account => if account.isFrozen then .frozen else .thawed

/-- The permissionless instruction that applies. -/
def AccountState.action (account : AccountState) : GateAction := if account = .thawed then .freeze else .thaw

/-- Who pays for the simulation. -/
def GateClient.payer (c : GateClient) (rpc : Rpc) (mint wallet : Text) (optPayer : Option Text) : Exec String Text :=
  match optPayer.or c.wallet with
  | some payer => pure payer
  | none => do
    let authority ← rpc.policyAuthority mint
    pure (authority.getD wallet)

/-- `explain` up to the simulation: an early return, or what to simulate. -/
def GateClient.prepareExplain (c : GateClient) (rpc : Rpc) (mint wallet : Text) (optPayer optTokenAccount : Option Text) :
    Exec String (Explanation ⊕ Question) := do
  let tokenAccount := optTokenAccount.getD (c.ata mint wallet)
  let config ← rpc.mintConfig mint
  let info ← rpc.tokenAccount tokenAccount
  let account := accountState info
  let base : Explanation := ⟨mint, wallet, tokenAccount, account, .error, none, "", none, none, none, []⟩
  if account = .missing ∧ optTokenAccount.isSome then
    pure (.inl { base with
      reason := "Token account " ++ String.ofList tokenAccount ++ " does not exist (only the wallet's ATA is created here)." })
  else
    match config with
    | none => pure (.inl { base with
        status := .notTokenAcl
        reason := "This mint has no Token ACL config, so no gate decides who may hold it." })
    | some config =>
      let action := account.action
      let gating := { base with gatingProgram := some config.gatingProgram, simulated := some action }
      if config.enables action = false then
        pure (.inl { gating with
          status := .permissionlessDisabled
          reason := "Permissionless " ++ action.name ++ " is turned off for this mint; only its freeze authority can " ++
            action.name ++ "." })
      else do
        let payer ← c.payer rpc mint wallet optPayer
        let ix ← permissionlessIx rpc action.kind payer mint tokenAccount wallet (some config)
        let ata := if account = .missing then [Instruction.createAtaIdempotent payer tokenAccount wallet mint] else []
        pure (.inr ⟨gating, config, action, payer, ata ++ [ix]⟩)

/-- `explain` from the simulation on. -/
def GateClient.reportExplain (c : GateClient) (q : Question) (sim : Simulated) : Explanation :=
  let verdict := classifyGateLogs sim.logs (sim.err = none) q.action c.gateProgramId sim.errorCode
  let result := { q.base with verdict := some verdict, logs := sim.logs }
  if verdict.isFailed then
    let hint := if sim.payerMissing then
      " The fee payer " ++ String.ofList q.payer ++ " has no SOL on this cluster: pass { payer }." else ""
    { result with status := .error, reason := verdict.reason ++ hint }
  else if q.config.gatingProgram ≠ c.gateProgramId then
    -- another gating program: its logs carry no ThawGate codes
    let ok := verdict.isAllowed
    let status := match q.action with
      | .thaw => if ok then Status.canUnlock else .denied
      | .freeze => if ok then .freezable else .compliant
    { result with
      status
      reason := "The mint's gating program " ++ String.ofList q.config.gatingProgram ++ " (not ThawGate) " ++
        (if ok then "allows" else "refuses") ++ " a permissionless " ++ q.action.name ++
        "; it logs no ThawGate reason codes." }
  else
    let status := match q.action with
      | .thaw => if verdict.isDenied then Status.denied else .canUnlock
      | .freeze => if verdict.isAllowed then .freezable else .compliant
    { result with status, code := verdict.code?, reason := verdict.reason }

def GateClient.explain (c : GateClient) (rpc : Rpc) (mint wallet : Text) (optPayer optTokenAccount : Option Text) :
    Exec String Explanation := do
  match ← c.prepareExplain rpc mint wallet optPayer optTokenAccount with
  | .inl explanation => pure explanation
  | .inr q => do
    let sim ← simulate rpc q.ixs q.payer
    pure (c.reportExplain q sim)

/-! ### freezeIfInvalid -/

structure FreezeResult where
  frozen : Bool
  /-- It was frozen before this call. -/
  alreadyFrozen : Bool
  code : Option String
  reason : String
  signature : Option Text
  deriving DecidableEq

/-- `freezeIfInvalid` up to the simulation: the early return on a frozen account, or the payer and the freeze. -/
def GateClient.prepareFreeze (c : GateClient) (rpc : Rpc) (tokenAccount : Text) :
    Exec String (FreezeResult ⊕ Text × Instruction) := do
  let caller ← Exec.orErr c.wallet "freezeIfInvalid needs a wallet (or an explicit payer/authority)"
  let info ← rpc.tokenAccount tokenAccount
  let acc ← Exec.orErr info ("token account " ++ String.ofList tokenAccount ++ " does not exist")
  if acc.isFrozen then pure (.inl ⟨true, true, none, "Already frozen.", none⟩)
  else do
    let ix ← permissionlessIx rpc .freezeIdempotent caller acc.mint tokenAccount acc.owner none
    pure (.inr (caller, ix))

def GateClient.freezeIfInvalid (c : GateClient) (rpc : Rpc) (tokenAccount : Text) : Exec String FreezeResult := do
  match ← c.prepareFreeze rpc tokenAccount with
  | .inl result => pure result
  | .inr (caller, ix) => do
    let sim ← simulate rpc [ix] caller
    match classifyGateLogs sim.logs (sim.err = none) .freeze c.gateProgramId sim.errorCode with
    | .skipped reason => pure ⟨true, true, none, reason, none⟩
    | .denied code reason => pure ⟨false, false, some code, reason, none⟩
    | .failed _ _ reason => pure ⟨false, false, none, reason, none⟩
    | .allowed code reason => do
      let signature ← rpc.send [ix]
      pure ⟨true, false, some code, reason, some signature⟩

end ThawGate.Sdk
