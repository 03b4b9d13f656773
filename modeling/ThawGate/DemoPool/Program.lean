import ThawGate.Lib.ConstantProduct
import ThawGate.Lib.Run
import ThawGate.Token.Context

/-!
# The demo pool

`init_pool` creates a pool and its two vaults for any two mints, `deposit` adds the admin's liquidity, and
`swap` sells one mint for the other at the vaults' ratio. The token programs are a parameter (`Programs`): how
much of a transfer arrives is theirs to say.
-/

namespace ThawGate.DemoPool

open Exec Function
open Token (Mint TokenAccount)

/-! ### Accounts and errors -/

/-- The address `["pool", mint_a, mint_b]` with a bump. -/
structure Pda where
  mintA : Pubkey
  mintB : Pubkey
  bump : UInt8
  deriving DecidableEq

structure Pool where
  admin : Pubkey
  mintA : Pubkey
  mintB : Pubkey
  vaultA : Pubkey
  vaultB : Pubkey
  feeBps : UInt16
  bump : UInt8
  deriving DecidableEq

inductive PoolError where
  | feeTooHigh
  | emptyPool
  | zeroAmount
  | slippageExceeded
  deriving DecidableEq, Repr

inductive AnchorError where
  | constraintHasOne
  | constraintRaw
  | constraintSeeds
  | constraintMintTokenProgram
  | invalidProgramId
  | accountNotInitialized
  deriving DecidableEq, Repr

inductive Failure where
  | pool (e : PoolError)
  | anchor (e : AnchorError)
  /-- A program that was called, or a library, failed. -/
  | program
  deriving DecidableEq, Repr

/-! ### The price -/

def bps : Nat := 10000

def maxFeeBps : UInt16 := 1000

/-- A `u128` result, which panics on overflow. -/
def u128 (n : Nat) : Exec Failure Nat := if n < 2 ^ 128 then ok n else panic

/-- A `u128` subtraction. -/
def u128Sub (a b : Nat) : Exec Failure Nat := if b ≤ a then ok (a - b) else panic

/-- A `u128` division, which panics on a zero divisor. -/
def u128Div (a b : Nat) : Exec Failure Nat := if b = 0 then panic else ok (a / b)

/-- `amount_out` -/
def amountOut (reserveIn reserveOut amountIn : UInt64) (feeBps : UInt16) : Exec Failure UInt64 := do
  require (0 < reserveIn ∧ 0 < reserveOut) (.pool .emptyPool)
  let rate ← u128Sub bps feeBps.toNat
  let scaled ← u128 (amountIn.toNat * rate)
  let numerator ← u128 (reserveOut.toNat * (scaled / bps))
  let denominator ← u128 (reserveIn.toNat + scaled / bps)
  let quotient ← u128Div numerator denominator
  let out := UInt64.ofNat quotient
  require (0 < out) (.pool .zeroAmount)
  pure out

/-- What of the input is priced. -/
def afterFee (amountIn : UInt64) (feeBps : UInt16) : Nat := amountIn.toNat * (bps - feeBps.toNat) / bps

/-! ### The programs it calls -/

/-- The type of an extension, as its entry has it. -/
abbrev ExtensionType := UInt16

def immutableOwner : ExtensionType := 7

/-- Where a call needs a signature, it is that of the first key or the authority; a pool signs with its seeds.
`transferChecked` is the call of `transfer`. -/
inductive Call where
  | createAccount (payer account : Pubkey) (lamports : UInt64) (space : Nat) (owner : Pubkey)
  | immutableOwnerInitialize (program account : Pubkey)
  | initializeAccount3 (program account mint authority : Pubkey)
  | transferChecked (program source mint destination authority : Pubkey) (signer : Option Pda) (amount : UInt64)
    (decimals : UInt8)
  deriving DecidableEq

structure Programs (W : Type) where
  /-- The bump `find_program_address` ends at for two mints. -/
  canonicalBump : Pubkey → Pubkey → UInt8
  address : Pda → Pubkey
  mint : W → Pubkey → Option Mint
  tokenAccount : W → Pubkey → Option TokenAccount
  /-- `StateWithExtensions::unpack` and `get_extension_types` of a mint's data. -/
  extensionTypes : W → Pubkey → Option (List ExtensionType)
  /-- `get_required_init_account_extensions` -/
  requiredInitAccountExtensions : List ExtensionType → List ExtensionType
  /-- `try_calculate_account_len` -/
  accountLen : List ExtensionType → Option Nat
  minimumBalance : W → Nat → UInt64
  /-- What a mint withholds of a transferred amount; 0 without a transfer fee. -/
  transferFee : W → Pubkey → UInt64 → UInt64
  invoke : W → Call → Option W

structure State (W : Type) where
  pools : Pda → Option Pool
  world : W

variable {W α : Type} {P : Programs W} {s s' : State W}

def cpi (P : Programs W) (s : State W) (c : Call) : Exec Failure (State W) := do
  let w ← orErr (P.invoke s.world c) .program
  pure { s with world := w }

theorem cpi_eq_ok {c : Call} : cpi P s c = ok s' ↔ ∃ w, P.invoke s.world c = some w ∧ s' = { s with world := w } := by
  simp only [cpi, bind_eq_ok, orErr_eq_ok, pure_eq, Exec.ok.injEq]
  exact exists_congr fun w => and_congr_right' eq_comm

/-- A call that is made if `c`. -/
def cpiIf (P : Programs W) (c : Prop) [Decidable c] (s : State W) (call : Call) : Exec Failure (State W) :=
  if c then cpi P s call else pure s

/-- `Account` and `InterfaceAccount` -/
def account (x : Option α) : Exec Failure α := orErr x (.anchor .accountNotInitialized)

/-- `Interface<'info, TokenInterface>` -/
def tokenInterface (program : Pubkey) : Exec Failure Unit :=
  require (program = tokenId ∨ program = token2022Id) (.anchor .invalidProgramId)

/-- `InterfaceAccount`s of a pool instruction: its mints, its vaults and its user's accounts. -/
def interfaceAccounts (P : Programs W) (w : W) (mints accounts : List Pubkey) : Exec Failure Unit :=
  require ((mints.all fun k => (P.mint w k).isSome) ∧ accounts.all fun k => (P.tokenAccount w k).isSome)
    (.anchor .accountNotInitialized)

/-! ### `init_pool` -/

structure InitPool where
  admin : Pubkey
  pool : Pda
  mintA : Pubkey
  mintB : Pubkey
  vaultA : Pubkey
  vaultB : Pubkey
  tokenProgramA : Pubkey
  tokenProgramB : Pubkey
  deriving DecidableEq

/-- The vault's extensions. -/
def vaultExtensions (P : Programs W) (w : W) (mint tokenProgram : Pubkey) : Exec Failure (List ExtensionType) :=
  if tokenProgram = token2022Id then do
    let types ← orErr (P.extensionTypes w mint) .program
    pure (P.requiredInitAccountExtensions types ++ [immutableOwner])
  else pure []

/-- `create_vault` -/
def createVault (P : Programs W) (s : State W) (x : InitPool) (vault mint tokenProgram : Pubkey) :
    Exec Failure (State W) := do
  let extensions ← vaultExtensions P s.world mint tokenProgram
  let space ← orErr (P.accountLen extensions) .program
  let s ← cpi P s (.createAccount x.admin vault (P.minimumBalance s.world space) space tokenProgram)
  let s ← cpiIf P (tokenProgram = token2022Id) s (.immutableOwnerInitialize tokenProgram vault)
  cpi P s (.initializeAccount3 tokenProgram vault mint (P.address x.pool))

def initPool (P : Programs W) (s : State W) (x : InitPool) (feeBps : UInt16) : Exec Failure (State W) := do
  tokenInterface x.tokenProgramA
  tokenInterface x.tokenProgramB
  let mintA ← account (P.mint s.world x.mintA)
  let mintB ← account (P.mint s.world x.mintB)
  require (x.pool = ⟨x.mintA, x.mintB, P.canonicalBump x.mintA x.mintB⟩) (.anchor .constraintSeeds)
  require (s.pools x.pool = none) .program
  require (mintA.program = x.tokenProgramA) (.anchor .constraintMintTokenProgram)
  require (x.mintA ≠ x.mintB) (.anchor .constraintRaw)
  require (mintB.program = x.tokenProgramB) (.anchor .constraintMintTokenProgram)
  require (feeBps ≤ maxFeeBps) (.pool .feeTooHigh)
  let s ← createVault P s x x.vaultA x.mintA x.tokenProgramA
  let s ← createVault P s x x.vaultB x.mintB x.tokenProgramB
  let pool : Pool :=
    ⟨x.admin, x.mintA, x.mintB, x.vaultA, x.vaultB, feeBps, x.pool.bump⟩
  pure { s with pools := update s.pools x.pool (some pool) }

/-! ### `deposit` -/

structure Deposit where
  admin : Pubkey
  pool : Pda
  mintA : Pubkey
  mintB : Pubkey
  vaultA : Pubkey
  vaultB : Pubkey
  adminA : Pubkey
  adminB : Pubkey
  tokenProgramA : Pubkey
  tokenProgramB : Pubkey
  deriving DecidableEq

def deposit (P : Programs W) (s : State W) (x : Deposit) (amountA amountB : UInt64) : Exec Failure (State W) := do
  let pool ← account (s.pools x.pool)
  require (pool.admin = x.admin ∧ pool.mintA = x.mintA ∧ pool.mintB = x.mintB ∧ pool.vaultA = x.vaultA ∧
    pool.vaultB = x.vaultB) (.anchor .constraintHasOne)
  interfaceAccounts P s.world [x.mintA, x.mintB] [x.vaultA, x.vaultB, x.adminA, x.adminB]
  tokenInterface x.tokenProgramA
  tokenInterface x.tokenProgramB
  let mintA ← account (P.mint s.world x.mintA)
  let mintB ← account (P.mint s.world x.mintB)
  let s ← cpiIf P (0 < amountA) s
    (.transferChecked x.tokenProgramA x.adminA x.mintA x.vaultA x.admin none amountA mintA.decimals)
  cpiIf P (0 < amountB) s
    (.transferChecked x.tokenProgramB x.adminB x.mintB x.vaultB x.admin none amountB mintB.decimals)

/-! ### `swap` -/

/-- The accounts of one side of a swap. -/
structure Side where
  user : Pubkey
  vault : Pubkey
  mint : Pubkey
  tokenProgram : Pubkey
  deriving DecidableEq

structure Swap where
  user : Pubkey
  pool : Pda
  mintA : Pubkey
  mintB : Pubkey
  vaultA : Pubkey
  vaultB : Pubkey
  userA : Pubkey
  userB : Pubkey
  tokenProgramA : Pubkey
  tokenProgramB : Pubkey
  deriving DecidableEq

namespace Swap

def sideA (x : Swap) : Side := ⟨x.userA, x.vaultA, x.mintA, x.tokenProgramA⟩

def sideB (x : Swap) : Side := ⟨x.userB, x.vaultB, x.mintB, x.tokenProgramB⟩

def sideIn (x : Swap) (aToB : Bool) : Side := if aToB then x.sideA else x.sideB

def sideOut (x : Swap) (aToB : Bool) : Side := if aToB then x.sideB else x.sideA

end Swap

def swap (P : Programs W) (s : State W) (x : Swap) (amountIn minAmountOut : UInt64) (aToB : Bool) :
    Exec Failure (State W) := do
  let pool ← account (s.pools x.pool)
  require (pool.mintA = x.mintA ∧ pool.mintB = x.mintB ∧ pool.vaultA = x.vaultA ∧ pool.vaultB = x.vaultB)
    (.anchor .constraintHasOne)
  interfaceAccounts P s.world [x.mintA, x.mintB] [x.vaultA, x.vaultB, x.userA, x.userB]
  tokenInterface x.tokenProgramA
  tokenInterface x.tokenProgramB
  let mintIn ← account (P.mint s.world (x.sideIn aToB).mint)
  let mintOut ← account (P.mint s.world (x.sideOut aToB).mint)
  let vaultIn ← account (P.tokenAccount s.world (x.sideIn aToB).vault)
  let vaultOut ← account (P.tokenAccount s.world (x.sideOut aToB).vault)
  let out ← amountOut vaultIn.amount vaultOut.amount amountIn pool.feeBps
  require (out ≥ minAmountOut) (.pool .slippageExceeded)
  let s ← cpi P s (.transferChecked (x.sideIn aToB).tokenProgram (x.sideIn aToB).user (x.sideIn aToB).mint
    (x.sideIn aToB).vault x.user none amountIn mintIn.decimals)
  cpi P s (.transferChecked (x.sideOut aToB).tokenProgram (x.sideOut aToB).vault (x.sideOut aToB).mint
    (x.sideOut aToB).user (P.address x.pool) (some ⟨pool.mintA, pool.mintB, pool.bump⟩) out mintOut.decimals)

/-! ### The transition system -/

inductive Instruction where
  | initPool (x : InitPool) (feeBps : UInt16)
  | deposit (x : Deposit) (amountA amountB : UInt64)
  | swap (x : Swap) (amountIn minAmountOut : UInt64) (aToB : Bool)
  deriving DecidableEq

def exec (P : Programs W) (s : State W) : Instruction → Exec Failure (State W)
  | .initPool x feeBps => initPool P s x feeBps
  | .deposit x amountA amountB => deposit P s x amountA amountB
  | .swap x amountIn minAmountOut aToB => swap P s x amountIn minAmountOut aToB

/-- An instruction of anyone, and whether it succeeded, or what other programs did on their own. -/
inductive Label where
  | tx (ix : Instruction) (succeeded : Bool)
  | outside

inductive Step (P : Programs W) : State W → Label → State W → Prop
  | succeeded {s s' : State W} {ix : Instruction} (h : exec P s ix = ok s') : Step P s (.tx ix true) s'
  | failed {s : State W} {ix : Instruction} (h : ∀ s', exec P s ix ≠ ok s') : Step P s (.tx ix false) s
  | outside {s : State W} (w : W) : Step P s .outside { s with world := w }

/-- Runs start without pools. -/
def machine (P : Programs W) : Lts (State W) Label where
  start s := s.pools = fun _ => none
  step := Step P

end ThawGate.DemoPool
