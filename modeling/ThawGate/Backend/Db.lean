import Mathlib.Logic.Function.Basic
import ThawGate.Backend.Events

/-!
# The services' database

The tables that the indexer and the mint service write (`schema.prisma`): stablecoins, and mint operations, burn
operations and compliance events, each with a unique signature. Every call is atomic; a call that would break a
constraint fails and writes nothing.
-/

namespace ThawGate.Backend

open Function
open Logs (Text)

structure Stablecoin where
  name : Text
  symbol : Text
  decimals : Nat
  authority : Text
  paused : Bool
  totalMinted : Nat
  totalBurned : Nat
  deriving DecidableEq

inductive ComplianceEventType where
  | blacklistAdd
  | blacklistRemove
  | freeze
  | thaw
  | seize
  | pause
  | unpause
  deriving DecidableEq, Repr

/-- The tables of rows. -/
inductive Table where
  | mintOperation
  | burnOperation
  | complianceEvent
  deriving DecidableEq, Repr

/-- A row, less its signature and slot. The `status` of an operation is `CONFIRMED`. -/
inductive Record where
  | mintOperation (mint minter recipient : Text) (amount : Nat)
  | burnOperation (mint burner : Text) (amount : Nat)
  | complianceEvent (mint : Text) (eventType : ComplianceEventType) (target : Option Text) (operator : Text)
    (reason : Option Text) (amount : Option Nat)
  deriving DecidableEq

def Record.table : Record → Table
  | .mintOperation .. => .mintOperation
  | .burnOperation .. => .burnOperation
  | .complianceEvent .. => .complianceEvent

structure Row where
  signature : Text
  slot : Nat
  record : Record
  deriving DecidableEq

structure Db where
  /-- By `mint`. -/
  stablecoins : Text → Option Stablecoin
  /-- Oldest first. -/
  rows : List Row
  /-- `indexer_state`: the last slot and signature. -/
  indexerState : Option (Nat × Text)

namespace Db

/-- `findFirst({ where: { signature } })` finds a row. -/
def has (db : Db) (table : Table) (signature : Text) : Bool :=
  db.rows.any fun row => row.record.table = table ∧ row.signature = signature

/-- `create`, refused if the table has a row with the signature. -/
def create (db : Db) (row : Row) : Option Db :=
  if db.has row.record.table row.signature then none else some { db with rows := db.rows ++ [row] }

def setStablecoin (db : Db) (mint : Text) (c : Stablecoin) : Db :=
  { db with stablecoins := update db.stablecoins mint (some c) }

/-- `stablecoin.create`, refused if the mint has one. -/
def createStablecoin (db : Db) (mint : Text) (c : Stablecoin) : Option Db :=
  match db.stablecoins mint with
  | some _ => none
  | none => some (db.setStablecoin mint c)

/-- `stablecoin.update` -/
def updateStablecoin (db : Db) (mint : Text) (f : Stablecoin → Option Stablecoin) : Option Db := do
  let c ← db.stablecoins mint
  let c ← f c
  pure (db.setStablecoin mint c)

/-- The rows of a transaction. -/
def of (db : Db) (signature : Text) : List Row := db.rows.filter (·.signature = signature)

variable {db db' : Db} {row : Row} {table : Table} {signature mint : Text} {c : Stablecoin}

theorem create_eq_some : db.create row = some db' ↔
    db.has row.record.table row.signature = false ∧ db' = { db with rows := db.rows ++ [row] } := by
  unfold create
  split_ifs with h
  · simp [h]
  · rw [Option.some.injEq, eq_comm]
    simp [h]

theorem has_iff : db.has table signature = true ↔ ∃ row ∈ db.of signature, row.record.table = table := by
  simp only [has, of, List.any_eq_true, decide_eq_true_eq, List.mem_filter]
  constructor
  · intro ⟨row, hrow, htable, hsignature⟩
    exact ⟨row, ⟨hrow, hsignature⟩, htable⟩
  · intro ⟨row, ⟨hrow, hsignature⟩, htable⟩
    exact ⟨row, hrow, htable, hsignature⟩

theorem of_append (h : row.signature = signature) :
    Db.of { db with rows := db.rows ++ [row] } signature = db.of signature ++ [row] := by
  simp [of, h]

theorem has_append (h : row.signature = signature) : Db.has { db with rows := db.rows ++ [row] } table signature =
    (db.has table signature || decide (row.record.table = table)) := by
  simp [has, h]

@[simp] theorem setStablecoin_self : (db.setStablecoin mint c).stablecoins mint = some c := update_self ..

theorem setStablecoin_of_ne {mint' : Text} (h : mint' ≠ mint) :
    (db.setStablecoin mint c).stablecoins mint' = db.stablecoins mint' := update_of_ne h ..

theorem updateStablecoin_eq_some {f : Stablecoin → Option Stablecoin} : db.updateStablecoin mint f = some db' ↔
    ∃ c c', db.stablecoins mint = some c ∧ f c = some c' ∧ db' = db.setStablecoin mint c' := by
  simp only [updateStablecoin, Option.bind_eq_bind, Option.bind_eq_some_iff, Option.pure_def, Option.some.injEq]
  constructor
  · intro ⟨c, hc, c', hc', heq⟩
    exact ⟨c, c', hc, hc', heq.symm⟩
  · intro ⟨c, c', hc, hc', heq⟩
    exact ⟨c, hc, c', hc', heq.symm⟩

end Db

/-- `{ increment: amount }` of a total: the column may overflow. -/
def increment (total amount : Nat) : Option Nat := if total + amount < columnBound then some (total + amount) else none

theorem increment_eq_some {total amount n : Nat} :
    increment total amount = some n ↔ total + amount < columnBound ∧ n = total + amount := by
  unfold increment
  split_ifs with h <;> simp [h, eq_comm]

namespace Stablecoin

def mintedMore (c : Stablecoin) (amount : Nat) : Option Stablecoin :=
  (increment c.totalMinted amount).map fun totalMinted => { c with totalMinted }

def burnedMore (c : Stablecoin) (amount : Nat) : Option Stablecoin :=
  (increment c.totalBurned amount).map fun totalBurned => { c with totalBurned }

end Stablecoin

end ThawGate.Backend
