import ThawGate.Keeper.Holders
import ThawGate.Screener.Outbox

/-!
# The sanctions screener

What `Screener` keeps from one poll to the next: the wallets that hold an eligible mint, the eligible mints
and the blacklist sends that are still to succeed. Calls hold on to a wallet's object, also after the screener
has dropped the wallet, so wallets are kept as objects (`Ref`) and the `wallets` map has the current ones.

Times are milliseconds. What is only logged, counted or recorded is left out.
-/

namespace ThawGate.Screener

open Function
open Keeper (EntryRead TokenState)

/-- The numbers of TypeScript that are compared as numbers are rational. -/
structure Config where
  threshold : Rat
  rescreenMs : Nat
  retryBaseMs : Option Nat
  mints : Option (List Pubkey)
  exempt : List Pubkey
  dryRun : Bool

abbrev roleRecheckMs : Nat := 60000
abbrev defaultRetryBaseMs : Nat := 30000

/-! ### The keeper's index -/

structure KeeperAccount where
  address : Pubkey
  owner : Pubkey
  state : TokenState
  deriving DecidableEq

/-- A mint without a policy is one whose policy does not check the blacklist. -/
structure KeeperMint where
  mint : Pubkey
  issuerProgram : Pubkey
  checkBlacklist : Bool
  deriving DecidableEq

/-- mint -> token accounts, of one wallet -/
abbrev Holdings := Map Pubkey (List KeeperAccount)

/-- The loop of `readHoldings` over the accounts of one mint. -/
def addAccounts (mint : Pubkey) (byWallet : Map Pubkey Holdings) (accounts : List KeeperAccount) :
    Map Pubkey Holdings :=
  accounts.foldl (fun byWallet a =>
    let perMint : Holdings := (byWallet.lookup a.owner).getD ∅
    byWallet.insert a.owner (perMint.insert mint ((perMint.lookup mint).getD [] ++ [a]))) byWallet

/-- The token account to pass: a thawed one if there is one. -/
def tokenAccount (accounts : List KeeperAccount) : Option Pubkey :=
  ((accounts.find? (·.state = .initialized)).or accounts.head?).map (·.address)

/-! ### Eligible mints -/

inductive Why where
  | notInMints
  | noBlacklistCheck
  | notSssToken
  | noRole
  | eligible
  deriving DecidableEq, Repr

def Why.text : Why → String
  | notInMints => "not in SCREENER_MINTS"
  | noBlacklistCheck => "policy does not check the blacklist"
  | notSssToken => "issuer program is not sss-token"
  | noRole => "no Blacklister role"
  | eligible => "eligible"

structure Eligibility where
  ok : Bool
  why : Why
  checkedAt : Nat
  deriving DecidableEq

/-- The checks of `isEligible` that need no chain read. -/
def excluded (cfg : Config) (m : KeeperMint) : Option Why :=
  if cfg.mints.any (m.mint ∉ ·) then some .notInMints
  else if ¬m.checkBlacklist then some .noBlacklistCheck
  else if m.issuerProgram ≠ sssTokenId then some .notSssToken
  else none

/-- A role read that is not repeated yet. -/
def Eligibility.fresh (k : Eligibility) (now : Nat) : Bool :=
  (k.why = .eligible ∨ k.why = .noRole) ∧ now < k.checkedAt + roleRecheckMs

/-- `isEligible`: what it answers, and `eligible` after it. `role` is what `hasBlacklisterRole` answers, `none`
where it throws. -/
def isEligible (cfg : Config) (now : Nat) (eligible : Map Pubkey Eligibility) (m : KeeperMint) (role : Option Bool) :
    Bool × Map Pubkey Eligibility :=
  let known := eligible.lookup m.mint
  let judge (why : Why) := (decide (why = .eligible), eligible.insert m.mint ⟨why = .eligible, why, now⟩)
  match excluded cfg m with
  | some why => judge why
  | none =>
    match known.filter (·.fresh now) with
    | some k => (k.ok, eligible)
    | none => judge (if role.getD (known.any (·.ok)) then .eligible else .noRole)

/-! ### Wallets -/

/-- A wallet's object. Its `wallet` never changes. -/
structure Ref where
  wallet : Pubkey
  id : Nat
  deriving DecidableEq

structure WalletState where
  holdings : Holdings
  lastScreenedAt : Option Nat
  lastVersion : Option String
  failures : Nat
  retryAt : Option Nat

/-- `{ wallet, holdings: perMint, failures: 0 }` -/
def WalletState.new (perMint : Holdings) : WalletState := ⟨perMint, none, none, 0, none⟩

def isDue (cfg : Config) (w : WalletState) (version : Option String) (now : Nat) : Bool :=
  if w.retryAt.any (now < ·) then false
  else
    match w.lastScreenedAt with
    | none => true
    | some lastScreenedAt =>
      if version.isSome ∧ w.lastVersion ≠ version then true else lastScreenedAt + cfg.rescreenMs ≤ now

/-- The screening that the wallet's object remembers, if any, does not count any more. -/
def WalletState.Stale (cfg : Config) (w : WalletState) (version : Option String) (now : Nat) : Prop :=
  ∀ t, w.lastScreenedAt = some t → version.isSome ∧ w.lastVersion ≠ version ∨ t + cfg.rescreenMs ≤ now

/-- The back-off of a provider error runs. -/
def WalletState.BacksOff (w : WalletState) (now : Nat) : Prop := ∃ t, w.retryAt = some t ∧ now < t

theorem isDue_iff {cfg : Config} {w : WalletState} {version : Option String} {now : Nat} :
    isDue cfg w version now ↔ ¬w.BacksOff now ∧ w.Stale cfg version now := by
  have hback : w.retryAt.any (now < ·) = true ↔ w.BacksOff now := by
    simp [WalletState.BacksOff, Option.any_eq_true]
  unfold isDue
  by_cases h : w.BacksOff now
  · rw [if_pos (hback.2 h)]
    simp [h]
  · rw [if_neg (mt hback.1 h)]
    cases hs : w.lastScreenedAt with
    | none => simp [h, WalletState.Stale, hs]
    | some t =>
      simp only [WalletState.Stale, hs, h]
      split_ifs with hv
      · simp [hv]
      · simp [hv]

/-- The object after a screening at `now` under `version`. -/
def WalletState.screened (w : WalletState) (now : Nat) (version : Option String) : WalletState :=
  { w with lastScreenedAt := some now, lastVersion := version }

/-- The object after a provider error. -/
def WalletState.failed (cfg : Config) (w : WalletState) (now : Nat) : WalletState :=
  { w with
    failures := w.failures + 1
    retryAt := some (now + min (cfg.retryBaseMs.getD defaultRetryBaseMs * 2 ^ w.failures) cfg.rescreenMs) }

/-! ### The state -/

inductive Stage where
  | waiting
  /-- The provider is asked; these are the mints to blacklist the wallet on. -/
  | asked (open_ : List Pubkey)
  deriving DecidableEq

/-- A call of `screenOne`. -/
structure Screening where
  ref : Ref
  version : Option String
  entryOf : Map Pair EntryRead
  stage : Stage
  poll : Nat

/-- Where a poll is. -/
inductive Phase where
  | idle
  /-- `readHoldings`: the mints to come, those it has seen with what `isEligible` answered, and `byWallet`. -/
  | reading (todo : List KeeperMint) (seen : List (Pubkey × Bool)) (byWallet : Map Pubkey Holdings)
  /-- `flushPending`, with the sends to come. -/
  | flushing (todo : List Pending)
  /-- `screenDue`: the wallets to screen, the entries still to read and those read. -/
  | entries (toScreen : List Ref) (todo : List Pair) (entryOf : Map Pair EntryRead) (version : Option String)
  /-- `screenDue` waits for its calls of `screenOne`. -/
  | screening

/-- The screener and what it talks to: the clock, the provider's version and the registry entries. -/
structure State where
  now : Nat
  version : Option String
  registry : Pair → EntryRead
  eligible : Map Pubkey Eligibility
  /-- The id of each wallet's current object. -/
  wallets : Map Pubkey Nat
  object : Ref → WalletState
  /-- The id of the next object. -/
  created : Nat
  outbox : Outbox
  screenings : List Screening
  phase : Phase
  polls : Nat

namespace State

variable (s : State)

def modify (ref : Ref) (f : WalletState → WalletState) : State :=
  { s with object := update s.object ref (f (s.object ref)) }

@[simp] theorem modify_object_self {s : State} {ref : Ref} {f : WalletState → WalletState} :
    (s.modify ref f).object ref = f (s.object ref) :=
  update_self _ _ _

theorem modify_object_ne {s : State} {ref r : Ref} {f : WalletState → WalletState} (h : r ≠ ref) :
    (s.modify ref f).object r = s.object r :=
  update_of_ne h _ _

/-- The screener's table has the mint as eligible. -/
def Eligible (mint : Pubkey) : Prop := (s.eligible.lookup mint).any (·.ok)

instance (mint : Pubkey) : Decidable (s.Eligible mint) := inferInstanceAs (Decidable (_ = true))

/-- `this.wallets.get(wallet)` -/
def walletOf (wallet : Pubkey) : Option Ref := (s.wallets.lookup wallet).map (⟨wallet, ·⟩)

/-- The token account that `blacklist` finds to pass. -/
def accountOf (pair : Pair) : Option Pubkey :=
  tokenAccount (((s.walletOf pair.wallet).bind fun ref => (s.object ref).holdings.lookup pair.mint).getD [])

/-- `track` of one wallet. -/
def trackOne (wallet : Pubkey) (perMint : Holdings) : State :=
  match s.walletOf wallet with
  | some ref => s.modify ref fun known => { known with holdings := perMint }
  | none =>
    { s with
      wallets := s.wallets.insert wallet s.created
      object := update s.object ⟨wallet, s.created⟩ (.new perMint)
      created := s.created + 1 }

def track (holdings : Map Pubkey Holdings) : State :=
  let s := holdings.entries.foldl (fun s e => s.trackOne e.1 e.2) s
  { s with wallets := s.wallets.retain fun wallet => (holdings.lookup wallet).isSome }

/-- `this.wallets.values()` -/
def refs : List Ref := s.wallets.entries.map fun e => ⟨e.1, e.2⟩

/-- `due` -/
def due (cfg : Config) : List Ref := s.refs.filter fun ref => isDue cfg (s.object ref) s.version s.now

/-- `pairs` -/
def pairs (toScreen : List Ref) : List Pair :=
  toScreen.flatMap fun ref => (s.object ref).holdings.keys.map (⟨·, ref.wallet⟩)

/-- `open` -/
def openMints (t : Screening) : List Pubkey :=
  (s.object t.ref).holdings.keys.filter fun mint => t.entryOf.lookup ⟨mint, t.ref.wallet⟩ = some .none

/-- A call of `addToBlacklist` comes back. -/
def arrived (i : Nat) : State := { s with outbox := { s.outbox with sends := s.outbox.sends.eraseIdx i } }

/-- The end of `blacklist`, by what the call came back with. -/
def settle (x : Send) : Option SendOutcome → State
  | none => if x.poll = s.polls then { s with phase := .idle } else s
  | some .sent | some .alreadyBlacklisted => { s with outbox := s.outbox.delete x.request.pair }
  | some .noRole =>
    { s with
      outbox := s.outbox.delete x.request.pair
      eligible := s.eligible.insert x.request.pair.mint ⟨false, .noRole, s.now⟩ }
  | some .accountGone | some .failed =>
    if maxSendAttempts ≤ s.outbox.attempts x.request.id then
      let s := { s with outbox := s.outbox.delete x.request.pair }
      match s.walletOf x.request.pair.wallet with
      | some ref => s.modify ref fun w => { w with lastScreenedAt := none }
      | none => s
    else s

end State

end ThawGate.Screener
