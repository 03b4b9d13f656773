import ThawGate.Screener.State
import ThawGate.Lib.Run

/-!
# The screener over time

A poll waits for the keeper, the chain and the provider, and everything else happens while it waits: time
passes, the provider's list is edited, operators add and remove entries, sends land. Polls do not overlap, but a poll
that throws leaves its screenings and sends behind, and they go on during the next ones. Screenings run in any
order here, and any number of them at once.
-/

namespace ThawGate.Screener

open Function
open Keeper (EntryRead)

/-- A verdict that the provider gave on a wallet. -/
structure Verdict where
  wallet : Pubkey
  score : Rat
  at_ : Nat
  /-- The provider's version when its poll chose whom to screen. -/
  version : Option String
  /-- The mints that the wallet was screened for: held, and without an entry. -/
  open_ : List Pubkey
  deriving DecidableEq

inductive Label where
  | tick (ms : Nat)
  | versionChanged (version : String)
  /-- An entry is created or reactivated, by an operator or by a send that lands. -/
  | added (pair : Pair)
  | removed (pair : Pair)
  | polled (mints : List KeeperMint)
  | keeperDown
  | skippedMint (role : Option Bool)
  | mintUnreadable (role : Option Bool)
  | readMint (role : Option Bool) (accounts : List KeeperAccount)
  /-- `readHoldings` is done; the mints with what `isEligible` answered. -/
  | tracked (seen : List (Pubkey × Bool))
  | flushed
  | dueTaken
  | entryRead (pair : Pair) (entry : EntryRead)
  | entriesFailed
  | screensStarted
  | asked (i : Nat)
  | verdict (i : Nat) (v : Verdict) (reason : String)
  | providerFailed (i : Nat)
  | answered (i : Nat) (a : Answer)
  | finished

namespace State

variable (s : State) (cfg : Config)

/-- The end of `readHoldings`, and `track`. -/
def tracked (seen : List (Pubkey × Bool)) (byWallet : Map Pubkey Holdings) : State :=
  { s.track byWallet with
    eligible := s.eligible.retain fun mint => mint ∈ seen.map Prod.fst
    -- `Map.insert` puts a new entry first, a `Map` of TypeScript last.
    phase := .flushing (Map.values s.outbox.pending).reverse }

/-- One round of `flushPending`. -/
def flushOne (p : Pending) (todo : List Pending) : State :=
  let s := { s with phase := .flushing todo }
  match s.walletOf p.pair.wallet with
  | none => { s with outbox := s.outbox.delete p.pair }
  | some _ => { s with outbox := s.outbox.blacklist cfg.dryRun s.polls s.accountOf p }

/-- `due`, and `screenDue` up to its read of the entries. -/
def takeDue : State :=
  let due := s.due cfg
  let toScreen := due.filter fun ref => ref.wallet ∉ cfg.exempt
  { s with
    object := fun ref =>
      if ref ∈ due ∧ ref.wallet ∈ cfg.exempt then (s.object ref).screened s.now s.version else s.object ref
    phase := if due.isEmpty then .screening else .entries toScreen (s.pairs toScreen) ∅ s.version }

/-- `screenOne` up to its call of the provider. -/
def ask (i : Nat) (t : Screening) : State :=
  let open_ := s.openMints t
  if open_.isEmpty then
    { s.modify t.ref fun w => w.screened s.now t.version with screenings := s.screenings.eraseIdx i }
  else { s with screenings := s.screenings.set i { t with stage := .asked open_ } }

/-- `pending` and `inflight` after a verdict. -/
def judge (t : Screening) (open_ : List Pubkey) (score : Rat) (reason : String) : Outbox :=
  if cfg.threshold ≤ score then
    s.outbox.flagAll cfg.dryRun t.poll s.accountOf reason score s.now (open_.map (⟨·, t.ref.wallet⟩))
  else s.outbox

/-- `screenOne` from its verdict. -/
def conclude (i : Nat) (t : Screening) (open_ : List Pubkey) (score : Rat) (reason : String) : State :=
  { s.modify t.ref fun w => { w.screened s.now t.version with failures := 0, retryAt := none } with
    screenings := s.screenings.eraseIdx i
    outbox := s.judge cfg t open_ score reason }

end State

variable (cfg : Config)

/-- A send comes back as confirmed or as already blacklisted only where an entry exists. -/
def Possible (entry : EntryRead) : Option SendOutcome → Prop
  | some .sent | some .alreadyBlacklisted => entry ≠ .none
  | _ => True

inductive Step : State → Label → State → Prop
  | tick (s : State) (ms : Nat) : Step s (.tick ms) { s with now := s.now + ms }
  /-- A list provider has versions, an API has none. -/
  | versionChanged (s : State) (version : String) (h : s.version.isSome) :
    Step s (.versionChanged version) { s with version := some version }
  | added (s : State) (pair : Pair) (h : s.registry pair = .none ∨ s.registry pair = .inactive) :
    Step s (.added pair) { s with registry := update s.registry pair .active }
  | removed (s : State) (pair : Pair) (h : s.registry pair = .active) :
    Step s (.removed pair) { s with registry := update s.registry pair .inactive }
  | polled (s : State) (mints : List KeeperMint) (h : s.phase = .idle) :
    Step s (.polled mints) { s with phase := .reading mints [] ∅, polls := s.polls + 1 }
  | keeperDown (s : State) (h : s.phase = .idle) : Step s .keeperDown { s with polls := s.polls + 1 }
  | skippedMint (s : State) (m : KeeperMint) (todo : List KeeperMint) (seen : List (Pubkey × Bool))
    (byWallet : Map Pubkey Holdings) (eligible : Map Pubkey Eligibility) (role : Option Bool)
    (h : s.phase = .reading (m :: todo) seen byWallet) (hm : isEligible cfg s.now s.eligible m role = (false, eligible)) :
    Step s (.skippedMint role) { s with eligible, phase := .reading todo ((m.mint, false) :: seen) byWallet }
  | mintUnreadable (s : State) (m : KeeperMint) (todo : List KeeperMint) (seen : List (Pubkey × Bool))
    (byWallet : Map Pubkey Holdings) (eligible : Map Pubkey Eligibility) (role : Option Bool)
    (h : s.phase = .reading (m :: todo) seen byWallet) (hm : isEligible cfg s.now s.eligible m role = (true, eligible)) :
    Step s (.mintUnreadable role) { s with eligible, phase := .idle }
  | readMint (s : State) (m : KeeperMint) (todo : List KeeperMint) (seen : List (Pubkey × Bool))
    (byWallet : Map Pubkey Holdings) (eligible : Map Pubkey Eligibility) (role : Option Bool)
    (accounts : List KeeperAccount) (h : s.phase = .reading (m :: todo) seen byWallet)
    (hm : isEligible cfg s.now s.eligible m role = (true, eligible)) :
    Step s (.readMint role accounts)
      { s with eligible, phase := .reading todo ((m.mint, true) :: seen) (addAccounts m.mint byWallet accounts) }
  | tracked (s : State) (seen : List (Pubkey × Bool)) (byWallet : Map Pubkey Holdings)
    (h : s.phase = .reading [] seen byWallet) : Step s (.tracked seen) (s.tracked seen byWallet)
  | flushed (s : State) (p : Pending) (todo : List Pending) (h : s.phase = .flushing (p :: todo))
    (hsends : ∀ x ∈ s.outbox.sends, x.poll ≠ s.polls) : Step s .flushed (s.flushOne cfg p todo)
  | dueTaken (s : State) (h : s.phase = .flushing []) (hsends : ∀ x ∈ s.outbox.sends, x.poll ≠ s.polls) :
    Step s .dueTaken (s.takeDue cfg)
  | entryRead (s : State) (toScreen : List Ref) (todo : List Pair) (entryOf : Map Pair EntryRead)
    (version : Option String) (pair : Pair) (h : s.phase = .entries toScreen todo entryOf version) (hp : pair ∈ todo) :
    Step s (.entryRead pair (s.registry pair))
      { s with phase := .entries toScreen (todo.erase pair) (entryOf.insert pair (s.registry pair)) version }
  | entriesFailed (s : State) (toScreen : List Ref) (todo : List Pair) (entryOf : Map Pair EntryRead)
    (version : Option String) (h : s.phase = .entries toScreen todo entryOf version) :
    Step s .entriesFailed { s with phase := .screening }
  | screensStarted (s : State) (toScreen : List Ref) (entryOf : Map Pair EntryRead) (version : Option String)
    (h : s.phase = .entries toScreen [] entryOf version) :
    Step s .screensStarted
      { s with
        screenings := s.screenings ++ toScreen.map fun ref => ⟨ref, version, entryOf, .waiting, s.polls⟩
        phase := .screening }
  | asked (s : State) (t : Screening) (i : Nat) (ht : s.screenings[i]? = some t) (hw : t.stage = .waiting) :
    Step s (.asked i) (s.ask i t)
  | verdict (s : State) (t : Screening) (open_ : List Pubkey) (i : Nat) (score : Rat) (reason : String)
    (ht : s.screenings[i]? = some t) (hw : t.stage = .asked open_) :
    Step s (.verdict i ⟨t.ref.wallet, score, s.now, t.version, open_⟩ reason)
      (s.conclude cfg i t open_ score reason)
  | providerFailed (s : State) (t : Screening) (open_ : List Pubkey) (i : Nat) (ht : s.screenings[i]? = some t)
    (hw : t.stage = .asked open_) :
    Step s (.providerFailed i)
      { s.modify t.ref fun w => w.failed cfg s.now with screenings := s.screenings.eraseIdx i }
  | answered (s : State) (x : Send) (i : Nat) (a : Answer) (hx : s.outbox.sends[i]? = some x)
    (ha : Possible (s.registry x.request.pair) a.outcome) :
    Step s (.answered i a) ((s.arrived i).settle x a.outcome)
  | finished (s : State) (h : s.phase = .screening) (hscreenings : ∀ t ∈ s.screenings, t.poll ≠ s.polls)
    (hsends : ∀ x ∈ s.outbox.sends, x.poll ≠ s.polls) : Step s .finished { s with phase := .idle }

/-- A screener that starts. -/
def State.initial (now : Nat) (version : Option String) (registry : Pair → EntryRead) : State where
  now := now
  version := version
  registry := registry
  eligible := ∅
  wallets := ∅
  object _ := .new ∅
  created := 0
  outbox := ⟨∅, fun _ => 0, 0, []⟩
  screenings := []
  phase := .idle
  polls := 0

def screener : Lts State Label where
  start s := ∃ now version registry, s = .initial now version registry
  step := Step cfg

end ThawGate.Screener
