import Mathlib.Algebra.Group.Nat.Defs
import ThawGate.Logs.Lines

/-!
# The indexer's events

`extractEventsFromLogs` takes an event's kind from a log line and its data from the pairs `key: value` in the
lines around it, where a value is a base58 text of 32 characters or more. (`parseAnchorEvents` returns nothing:
`decodeEventByDiscriminator` knows no discriminator.)
-/

namespace ThawGate.Backend

open Logs (Text isSpace)

inductive EventName where
  | tokensMinted
  | tokensBurned
  | addedToBlacklist
  | removedFromBlacklist
  | tokensSeized
  | accountFrozen
  | accountThawed
  | tokenPaused
  | tokenUnpaused
  | stablecoinInitialized
  | authorityTransferred
  deriving DecidableEq, Repr

structure ParsedEvent where
  name : EventName
  /-- The pairs, a later one before those it overrides. -/
  data : List (Text × Text)
  deriving DecidableEq

/-! ### Lines -/

/-- `\w` -/
def isWordChar (c : Char) : Bool := c.isAlphanum || c == '_'

/-- `[1-9A-HJ-NP-Za-km-z]` -/
def isBase58Char (c : Char) : Bool :=
  c.isAlphanum && c != '0' && c != 'I' && c != 'O' && c != 'l'

/-- `String.prototype.includes` -/
def includes (line pattern : Text) : Bool := line.tails.any (pattern.isPrefixOf ·)

/-- What `(\w+):\s*([1-9A-HJ-NP-Za-km-z]{32,})` captures if the match starts here. -/
def pairHere (line : Text) : Option (Text × Text) :=
  match line.takeWhile isWordChar, line.dropWhile isWordChar with
  | c :: word, ':' :: rest =>
    let value := (rest.dropWhile isSpace).takeWhile isBase58Char
    if 32 ≤ value.length then some (c :: word, value) else none
  | _, _ => none

/-- The first match. -/
def pair (line : Text) : Option (Text × Text) := line.tails.findSome? pairHere

def extractLogContext (logs : List Text) (index : Nat) : List (Text × Text) :=
  let range := (logs.take (index + 3)).drop (index - 2)
  (range.filterMap pair).reverse.map fun (key, value) => (key.map Char.toLower, value)

/-- The event of a line. The texts are tried in this order. -/
def eventName (line : Text) : Option EventName :=
  let has (text : String) : Bool := includes line text.toList
  if has "TokensMinted" || has "mint_tokens" then some .tokensMinted
  else if has "TokensBurned" || has "burn_tokens" then some .tokensBurned
  else if has "AddedToBlacklist" || has "add_to_blacklist" then some .addedToBlacklist
  else if has "RemovedFromBlacklist" || has "remove_from_blacklist" then some .removedFromBlacklist
  else if has "TokensSeized" || has "seize_tokens" then some .tokensSeized
  else if has "AccountFrozen" || has "freeze_account" then some .accountFrozen
  else if has "AccountThawed" || has "thaw_account" then some .accountThawed
  else if has "TokenPaused" || has "pause" then if has "unpause" then none else some .tokenPaused
  else if has "TokenUnpaused" || has "unpause" then some .tokenUnpaused
  else if has "StablecoinInitialized" || has "initialize" then some .stablecoinInitialized
  else if has "AuthorityTransferred" || has "transfer_authority" then some .authorityTransferred
  else none

def extractEventsFromLogs (logs : List Text) : List ParsedEvent :=
  logs.zipIdx.filterMap fun (line, i) => (eventName line).map fun name => ⟨name, extractLogContext logs i⟩

/-! ### Data -/

/-- `BigInt` of a base58 text, which has no blank, sign or zero: a `SyntaxError` unless all are digits. -/
def bigInt (value : Text) : Option Nat :=
  if value.all Char.isDigit then some (value.foldl (fun n c => 10 * n + (c.toNat - '0'.toNat)) 0) else none

/-- The bound of a `BigInt` column. -/
def columnBound : Nat := 2 ^ 63

namespace ParsedEvent

/-- `event.data[key]`, as the left of an `||`. -/
def field (e : ParsedEvent) (key : String) : Option Text := (e.data.lookup key.toList).filter (· ≠ [])

def unknown : Text := "unknown".toList

def mintAddress (e : ParsedEvent) : Text := ((e.field "mint").or (e.field "mintaddress")).getD unknown

/-- `BigInt(event.data.amount || "0")`, if a column can hold it. -/
def amount (e : ParsedEvent) : Option Nat :=
  match e.field "amount" with
  | some value => (bigInt value).filter (· < columnBound)
  | none => some 0

end ParsedEvent

end ThawGate.Backend
