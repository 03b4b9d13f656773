import ThawGate.Backend.Counting

/-!
# The mint service

A `POST /mint` or `POST /burn`: the request is checked, its transaction is sent with up to three attempts
(`sendWithRetry`), and the operation is written. `requests` is the transition system of one request with the
cluster and the indexer. Every attempt signs a transaction of its own, since it takes a fresh blockhash; one that
was sent may land or be dropped at any later time, whatever the service was told. Once it has landed, the indexer's
workers make their calls for it on the same database.
-/

namespace ThawGate.Backend

open Function
open Logs (Text isSpace)

/-! ### The request -/

structure Request where
  op : Op
  mintAddress : Text
  recipient : Text
  amount : Text
  deriving DecidableEq

inductive Reply where
  /-- `success: true` with the signature of the `transaction`-th attempt that was sent. -/
  | success (transaction : Nat) (slot : Nat) (amount : Text)
  | error (code : Nat) (message : Text)
  deriving DecidableEq

structure Service where
  /-- `new PublicKey(text)` does not throw. -/
  isPublicKey : Text → Bool
  minter : Option Text
  /-- A request's transactions in the order of sending, each with the events of its logs once it has landed. -/
  transaction : Nat → Transaction

def digits (base : Nat) (value : Char → Option Nat) (text : Text) : Option Nat :=
  if text = [] then none
  else text.foldl (fun n c => (n.bind fun n => (value c).map fun d => base * n + d)) (some 0)

def digitValue (base : Nat) (c : Char) : Option Nat :=
  let d := if c.isDigit then c.toNat - '0'.toNat else if c.isAlpha then c.toLower.toNat - 'a'.toNat + 10 else base
  if d < base then some d else none

/-- `BigInt(text)`; none where it throws. -/
def parseBigInt (text : Text) : Option Int :=
  let trimmed := ((text.dropWhile isSpace).reverse.dropWhile isSpace).reverse
  let read (base : Nat) (t : Text) : Option Int := (digits base (digitValue base) t).map Int.ofNat
  match trimmed with
  | [] => some 0
  | '0' :: 'x' :: rest | '0' :: 'X' :: rest => read 16 rest
  | '0' :: 'o' :: rest | '0' :: 'O' :: rest => read 8 rest
  | '0' :: 'b' :: rest | '0' :: 'B' :: rest => read 2 rest
  | '-' :: rest => (read 10 rest).map (-·)
  | '+' :: rest => read 10 rest
  | rest => read 10 rest

namespace Request

def keys (req : Request) : List Text :=
  match req.op with
  | .mint => [req.mintAddress, req.recipient]
  | .burn => [req.mintAddress]

def keyMessage (req : Request) : String :=
  match req.op with
  | .mint => "Invalid public key format for mintAddress or recipient"
  | .burn => "Invalid public key format for mintAddress"

def keypairMessage (req : Request) : String :=
  match req.op with
  | .mint => "Minter keypair not configured. Set MINTER_KEYPAIR env var."
  | .burn => "Burner keypair not configured. Set MINTER_KEYPAIR env var."

def failedMessage (req : Request) : String :=
  match req.op with
  | .mint => "Mint operation failed"
  | .burn => "Burn operation failed"

def record (req : Request) (minter : Text) (amount : Nat) : Record :=
  match req.op with
  | .mint => .mintOperation req.mintAddress minter req.recipient amount
  | .burn => .burnOperation req.mintAddress minter amount

def addTo (req : Request) (amount : Nat) (c : Stablecoin) : Option Stablecoin :=
  match req.op with
  | .mint => c.mintedMore amount
  | .burn => c.burnedMore amount

def caught (req : Request) (message : Option Text) : Reply :=
  .error 500 (message.getD req.failedMessage.toList)

/-- The checks before the builder: the reply of a request that does not pass, or the minter and the amount. -/
def check (svc : Service) (req : Request) : Except Reply (Text × Nat) :=
  if ¬req.keys.all svc.isPublicKey then .error (.error 400 req.keyMessage.toList)
  else
    match parseBigInt req.amount with
    | none => .error (req.caught (some ("Cannot convert ".toList ++ req.amount ++ " to a BigInt".toList)))
    | some amount =>
      if amount ≤ 0 then .error (.error 400 "Amount must be a positive integer".toList)
      else
        match svc.minter with
        | some minter => .ok (minter, amount.toNat)
        | none => .error (.error 503 req.keypairMessage.toList)

theorem check_error {svc : Service} {req : Request} {reply : Reply} (hc : req.check svc = .error reply) :
    ∃ code message, reply = .error code message := by
  unfold check at hc
  split at hc
  · exact ⟨_, _, (Except.error.inj hc).symm⟩
  · split at hc
    · exact ⟨_, _, (Except.error.inj hc).symm⟩
    · split at hc
      · exact ⟨_, _, (Except.error.inj hc).symm⟩
      · split at hc
        · contradiction
        · exact ⟨_, _, (Except.error.inj hc).symm⟩

def newStablecoin : Stablecoin := ⟨"Unknown".toList, "UNK".toList, 6, ParsedEvent.unknown, false, 0, 0⟩

end Request

/-! ### The state -/

inductive Flight where
  | inFlight
  | landed
  /-- Lost, expired or failed on chain: it will not take effect. -/
  | dropped
  deriving DecidableEq, Repr

/-- Where a request is. `transaction` is a place in `flights`. -/
inductive Phase where
  | received
  | building
  /-- In `sendWithRetry`, before the send of an attempt. -/
  | sending (attempt : Nat)
  /-- The attempt waits for the confirmation of its transaction. -/
  | waiting (attempt transaction : Nat)
  | confirmed (transaction : Nat)
  | located (transaction slot : Nat)
  | creating (transaction slot : Nat)
  | writing (transaction slot : Nat)
  | updating (transaction slot : Nat)
  | replied (reply : Reply)
  deriving DecidableEq

structure RequestState where
  phase : Phase
  flights : List Flight
  store : Store
  /-- The indexer's workers for a transaction. -/
  indexers : Nat → List Worker

def maxAttempts : Nat := 3

def retry (req : Request) (attempt : Nat) (message : Option Text) : Phase :=
  if attempt = maxAttempts then .replied (req.caught message) else .sending (attempt + 1)

/-! ### The transition system -/

inductive RequestLabel where
  | checked
  | built
  | notBuilt (message : Option Text)
  | sent
  /-- `sendAndConfirmTransaction` throws before it has sent. -/
  | notSent (message : Option Text)
  | confirmed
  /-- It throws after it has sent. -/
  | unconfirmed (message : Option Text)
  | lands (transaction : Nat)
  | drops (transaction : Nat)
  | located (slot : Option Nat)
  | found
  | created
  | written
  | updated
  /-- A call after the confirmation throws. -/
  | failed (message : Option Text)
  /-- A step of the indexer on a transaction that landed. -/
  | indexes (transaction : Nat) (call : IndexerLabel)

namespace RequestState

def goto (s : RequestState) (phase : Phase) : RequestState := { s with phase }

def next (svc : Service) (req : Request) (s : RequestState) : RequestLabel → Option RequestState
  | .checked =>
    match s.phase, req.check svc with
    | .received, .ok _ => some (s.goto .building)
    | .received, .error reply => some (s.goto (.replied reply))
    | _, _ => none
  | .built =>
    match s.phase with
    | .building => some (s.goto (.sending 1))
    | _ => none
  | .notBuilt message =>
    match s.phase with
    | .building => some (s.goto (.replied (req.caught message)))
    | _ => none
  | .sent =>
    match s.phase with
    | .sending attempt =>
      some { s with phase := .waiting attempt s.flights.length, flights := s.flights ++ [.inFlight] }
    | _ => none
  | .notSent message =>
    match s.phase with
    | .sending attempt => some (s.goto (retry req attempt message))
    | _ => none
  | .confirmed =>
    match s.phase with
    | .waiting _ tx => if s.flights[tx]? = some .landed then some (s.goto (.confirmed tx)) else none
    | _ => none
  | .unconfirmed message =>
    match s.phase with
    | .waiting attempt _ => some (s.goto (retry req attempt message))
    | _ => none
  | .lands tx => if s.flights[tx]? = some .inFlight then some { s with flights := s.flights.set tx .landed } else none
  | .drops tx => if s.flights[tx]? = some .inFlight then some { s with flights := s.flights.set tx .dropped } else none
  | .located slot =>
    match s.phase with
    | .confirmed tx => some (s.goto (.located tx (slot.getD 0)))
    | _ => none
  | .found =>
    match s.phase, s.store.db.stablecoins req.mintAddress with
    | .located tx slot, some _ => some (s.goto (.writing tx slot))
    | .located tx slot, none => some (s.goto (.creating tx slot))
    | _, _ => none
  | .created =>
    match s.phase, s.store.db.createStablecoin req.mintAddress Request.newStablecoin with
    | .creating tx slot, some db => some { s with phase := .writing tx slot, store := s.store.setDb db }
    | _, _ => none
  | .written =>
    match s.phase, req.check svc with
    | .writing tx slot, .ok (minter, amount) =>
      if amount < columnBound then
        (s.store.db.create ⟨(svc.transaction tx).signature, slot, req.record minter amount⟩).map fun db =>
          { s with phase := .updating tx slot, store := s.store.setDb db }
      else none
    | _, _ => none
  | .updated =>
    match s.phase, req.check svc with
    | .updating tx slot, .ok (_, amount) =>
      (s.store.db.updateStablecoin req.mintAddress (req.addTo amount)).map fun db =>
        { s with phase := .replied (.success tx slot req.amount), store := s.store.setDb db }
    | _, _ => none
  | .failed message =>
    match s.phase with
    | .confirmed _ | .located _ _ | .creating _ _ | .writing _ _ | .updating _ _ =>
      some (s.goto (.replied (req.caught message)))
    | _ => none
  | .indexes tx call =>
    if s.flights[tx]? = some .landed then
      (IndexerState.next (svc.transaction tx) ⟨s.store, s.indexers tx⟩ call).map fun i =>
        { s with store := i.store, indexers := update s.indexers tx i.workers }
    else none

end RequestState

def requests (svc : Service) (req : Request) : Lts RequestState RequestLabel where
  start s := s.phase = .received ∧ s.flights = [] ∧ ∀ tx, s.indexers tx = []
  step s label s' := s.next svc req label = some s'

end ThawGate.Backend
