import ThawGate.Keeper.Accounts
import ThawGate.Lib.Run
import Mathlib.Logic.Function.Basic

/-!
# The freezer's account cache

A freeze attempt takes the mint's MintConfig and its freeze extra-metas list from a cache per mint. The
cache has promises: whoever finds none makes one and fills it with two reads, others wait for those. A policy
change drops the mint's cache; calls that hold it go on with it.

The events are what runs between two waits, in any order: the keeper's `onPolicy`, `loadMint` and `dropMint`,
the steps of `Freezer.account`, and the RPC's answers, each at the slot of the node that gave it. The reads of
`account` carry no `minContextSlot`, so a node behind the change may answer them.
-/

namespace ThawGate.Keeper

open Function

theorem update_some_iff {κ ν : Type} [DecidableEq κ] {f : κ → Option ν} {a b : κ} {x y : ν} :
    update f a (some x) b = some y ↔ b = a ∧ x = y ∨ b ≠ a ∧ f b = some y := by
  by_cases h : b = a
  · simp [h]
  · simp [h]

theorem update_none_iff {κ ν : Type} [DecidableEq κ] {f : κ → Option ν} {a b : κ} {y : ν} :
    update f a none b = some y ↔ b ≠ a ∧ f b = some y := by
  by_cases h : b = a
  · simp [h]
  · simp [h]

/-! ### The state -/

inductive FetchResult where
  | pending
  /-- The account, at this slot. -/
  | served (slot : Nat)
  | failed
  deriving DecidableEq, Repr

/-- One `fetchEncodedAccount`. `needed` is the slot below which its answer is of no use: that of the mint's last
policy change when it was sent for the mint's current cache, else that of its attempt. -/
structure Fetch where
  needed : Nat
  result : FetchResult
  deriving DecidableEq, Repr

/-- A cache, also after the mint has dropped it. -/
structure MintCache where
  mint : Pubkey
  entries : Pubkey → Option Nat

/-- Where a call of `account` waits. -/
inductive Stage where
  /-- For the two addresses it will fill the cache at. -/
  | filling (cache : Nat)
  /-- For a promise of the cache. -/
  | hit (cache fetch : Nat)
  /-- For a read of its own. -/
  | direct (fetch : Nat)
  deriving DecidableEq, Repr

structure AccountCall where
  attempt : Nat
  address : Pubkey
  stage : Stage
  deriving DecidableEq

/-- A freeze attempt: the mint, the slot of the mint's last policy change when it started, and what it has read. -/
structure Attempt where
  mint : Pubkey
  floor : Nat
  reads : List (Pubkey × Nat)
  deriving DecidableEq

/-- The keeper's policies and the freezer's caches. Objects and promises have numbers, mints and addresses are keys. -/
structure FreezerCaches where
  policies : Pubkey → Option GatePolicy
  /-- The slot of the latest policy change of the mint that was processed. -/
  floor : Pubkey → Nat
  mintAccounts : Pubkey → Option Nat
  caches : Nat → Option MintCache
  fetches : Nat → Option Fetch
  attempts : Nat → Option Attempt
  calls : Nat → Option AccountCall

namespace FreezerCaches

def initial : FreezerCaches :=
  ⟨fun _ => none, fun _ => 0, fun _ => none, fun _ => none, fun _ => none, fun _ => none, fun _ => none⟩

/-! ### The keeper -/

def invalidate (s : FreezerCaches) (mint : Pubkey) : FreezerCaches :=
  { s with mintAccounts := update s.mintAccounts mint none }

def setMint (s : FreezerCaches) (policy : GatePolicy) : FreezerCaches :=
  { s with policies := update s.policies policy.mint (some policy) }

def raise (s : FreezerCaches) (mint : Pubkey) (slot : Nat) : FreezerCaches :=
  { s with floor := update s.floor mint (max (s.floor mint) slot) }

/-- Up to its first wait, for a policy seen at this slot. The same policy again changes nothing. -/
def loadMint (s : FreezerCaches) (policy : GatePolicy) (slot : Nat) : FreezerCaches :=
  if s.policies policy.mint = some policy then s
  else ((s.setMint policy).invalidate policy.mint).raise policy.mint slot

/-- What `onPolicy` spawns, behind `gatedByUs` and up to its next wait, for a notification at this slot. -/
def onPolicy (s : FreezerCaches) (policy : GatePolicy) (slot : Nat) : FreezerCaches :=
  (((s.setMint policy).invalidate policy.mint).raise policy.mint slot).loadMint policy slot

def dropMint (s : FreezerCaches) (mint : Pubkey) : FreezerCaches :=
  ({ s with policies := update s.policies mint none } : FreezerCaches).invalidate mint

/-! ### `account` -/

/-- A read is sent; `fetch` is the number of its promise. -/
def send (s : FreezerCaches) (fetch needed : Nat) : Option FreezerCaches :=
  if s.fetches fetch = none then some { s with fetches := update s.fetches fetch (some ⟨needed, .pending⟩) } else none

def settle (s : FreezerCaches) (fetch : Nat) (result : FetchResult) : Option FreezerCaches := do
  let f ← s.fetches fetch
  if f.result = .pending then some { s with fetches := update s.fetches fetch (some { f with result }) } else none

def setCall (s : FreezerCaches) (call : Nat) (x : Option AccountCall) : FreezerCaches :=
  { s with calls := update s.calls call x }

def setCache (s : FreezerCaches) (cache : Nat) (c : MintCache) : FreezerCaches :=
  { s with caches := update s.caches cache (some c) }

/-- An attempt of `Freezer.run` begins. -/
def startAttempt (s : FreezerCaches) (attempt : Nat) (mint : Pubkey) : Option FreezerCaches :=
  if s.attempts attempt = none then
    some { s with attempts := update s.attempts attempt (some ⟨mint, s.floor mint, []⟩) }
  else none

/-- `account` is called. Where the mint has no cache it is given `cache`; where the cache has nothing for the
address, `fetch` is read past it. -/
def account (s : FreezerCaches) (call attempt : Nat) (address : Pubkey) (cache fetch : Nat) : Option FreezerCaches := do
  let a ← s.attempts attempt
  if s.calls call ≠ none then none
  else match s.mintAccounts a.mint with
  | none =>
    if s.caches cache ≠ none then none
    else
      let s := { s with mintAccounts := update s.mintAccounts a.mint (some cache) }
      some ((s.setCache cache ⟨a.mint, fun _ => none⟩).setCall call (some ⟨attempt, address, .filling cache⟩))
  | some cache =>
    let c ← s.caches cache
    match c.entries address with
    | some f => some (s.setCall call (some ⟨attempt, address, .hit cache f⟩))
    | none => do
      let s ← s.send fetch a.floor
      some (s.setCall call (some ⟨attempt, address, .direct fetch⟩))

/-- The caller of a cache goes on once it has the two addresses: it fills the cache and looks its own address up. -/
def fill (mintConfigPda freezeExtraMetasPda : Pubkey → Pubkey) (s : FreezerCaches) (call fetch₁ fetch₂ fetch₃ : Nat) :
    Option FreezerCaches := do
  let x ← s.calls call
  let a ← s.attempts x.attempt
  match x.stage with
  | .filling cache =>
    let c ← s.caches cache
    let needed := if s.mintAccounts a.mint = some cache then s.floor a.mint else a.floor
    let s ← s.send fetch₁ needed
    let s ← s.send fetch₂ needed
    let entries := update (update c.entries (mintConfigPda a.mint) (some fetch₁)) (freezeExtraMetasPda a.mint) (some fetch₂)
    let s := s.setCache cache { c with entries }
    match entries x.address with
    | some f => some (s.setCall call (some { x with stage := .hit cache f }))
    | none => do
      let s ← s.send fetch₃ a.floor
      some (s.setCall call (some { x with stage := .direct fetch₃ }))
  | _ => none

/-- The promise a call waits for has settled. A cached read that failed is dropped and made again; a read of the
call's own that failed ends the attempt. -/
def goOn (s : FreezerCaches) (call fetch : Nat) : Option FreezerCaches := do
  let x ← s.calls call
  let a ← s.attempts x.attempt
  match x.stage with
  | .filling _ => none
  | .hit cache f =>
    match (← s.fetches f).result with
    | .pending => none
    | .served slot =>
      some ({ s with attempts := update s.attempts x.attempt (some { a with reads := (x.address, slot) :: a.reads }) }.setCall
        call none)
    | .failed => do
      let c ← s.caches cache
      let s := s.setCache cache { c with entries := update c.entries x.address none }
      let s ← s.send fetch a.floor
      some (s.setCall call (some { x with stage := .direct fetch }))
  | .direct f =>
    match (← s.fetches f).result with
    | .pending => none
    | .served slot =>
      some ({ s with attempts := update s.attempts x.attempt (some { a with reads := (x.address, slot) :: a.reads }) }.setCall
        call none)
    | .failed => some (s.setCall call none)

end FreezerCaches

inductive FreezerEvent where
  | onPolicy (policy : GatePolicy) (slot : Nat)
  /-- For a policy in the answer to a resync's `getProgramAccounts`, from a node at this slot. -/
  | loadMint (policy : GatePolicy) (slot : Nat)
  | dropMint (mint : Pubkey)
  | startAttempt (attempt : Nat) (mint : Pubkey)
  | account (call attempt : Nat) (address : Pubkey) (cache fetch : Nat)
  | fill (call fetch₁ fetch₂ fetch₃ : Nat)
  /-- A node answers a read at this slot. -/
  | served (fetch slot : Nat)
  | failed (fetch : Nat)
  | goOn (call fetch : Nat)

namespace FreezerCaches

def next (mintConfigPda freezeExtraMetasPda : Pubkey → Pubkey) (s : FreezerCaches) : FreezerEvent → Option FreezerCaches
  | .onPolicy policy slot => some (s.onPolicy policy slot)
  | .loadMint policy slot => some (s.loadMint policy slot)
  | .dropMint mint => some (s.dropMint mint)
  | .startAttempt attempt mint => s.startAttempt attempt mint
  | .account call attempt address cache fetch => s.account call attempt address cache fetch
  | .fill call fetch₁ fetch₂ fetch₃ => s.fill mintConfigPda freezeExtraMetasPda call fetch₁ fetch₂ fetch₃
  | .served fetch slot => s.settle fetch (.served slot)
  | .failed fetch => s.settle fetch .failed
  | .goOn call fetch => s.goOn call fetch

def machine (mintConfigPda freezeExtraMetasPda : Pubkey → Pubkey) : Lts FreezerCaches FreezerEvent where
  start s := s = initial
  step s e s' := s.next mintConfigPda freezeExtraMetasPda e = some s'

/-- The event processes a change of the mint's policy that was observed at this slot. -/
def Observes (s : FreezerCaches) (mint : Pubkey) (slot : Nat) : FreezerEvent → Prop
  | .onPolicy policy slot' => policy.mint = mint ∧ slot' = slot
  | .loadMint policy slot' => policy.mint = mint ∧ slot' = slot ∧ s.policies mint ≠ some policy
  | _ => False

/-- No read is answered by a node that is behind what is needed of it. -/
def NotBehind (s : FreezerCaches) (e : FreezerEvent) (_ : FreezerCaches) : Prop :=
  ∀ fetch slot, e = .served fetch slot → ∀ f, s.fetches fetch = some f → f.needed ≤ slot

end FreezerCaches

end ThawGate.Keeper
