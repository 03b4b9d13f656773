import Mathlib.Data.Option.Basic
import ThawGate.Backend.Db
import ThawGate.Lib.Run

/-!
# The indexer

A transaction's events are written one after the other (`writeEventToDb`), by the websocket handler and by the
poller, each any number of times and all at once: between two awaits of one the others go on. `indexing` is the
transition system of one transaction: a step is one call to the database. What throws ends the worker it is in.
-/

namespace ThawGate.Backend

open Logs (Text)

/-! ### One event -/

namespace ParsedEvent

/-- Whether the event's kind is written. The others are only logged. -/
def handled (e : ParsedEvent) : Bool := e.name ≠ .stablecoinInitialized ∧ e.name ≠ .authorityTransferred

/-- The operator, with the fields that are tried for it. -/
def operator (e : ParsedEvent) : Text := (e.field "operator").getD unknown

def compliance (e : ParsedEvent) (eventType : ComplianceEventType) (target reason : Option Text) : Record :=
  .complianceEvent e.mintAddress eventType target e.operator reason none

/-- The row's data; none if the amount cannot be read or stored. -/
def record (e : ParsedEvent) : Option Record :=
  match e.name with
  | .tokensMinted => e.amount.map (.mintOperation e.mintAddress ((e.field "minter").getD unknown)
      ((e.field "recipient").getD unknown))
  | .tokensBurned => e.amount.map (.burnOperation e.mintAddress ((e.field "burner").getD unknown))
  | .addedToBlacklist => some (.complianceEvent e.mintAddress .blacklistAdd
      ((e.field "target").or (e.field "address")) (((e.field "operator").or (e.field "authority")).getD unknown)
      (e.field "reason") none)
  | .removedFromBlacklist => some (e.compliance .blacklistRemove ((e.field "target").or (e.field "address")) none)
  | .accountFrozen => some (e.compliance .freeze (e.field "target") none)
  | .accountThawed => some (e.compliance .thaw (e.field "target") none)
  | .tokensSeized => e.amount.map fun amount => .complianceEvent e.mintAddress .seize
      ((e.field "source").or (e.field "target")) e.operator none (some amount)
  | .tokenPaused => some (e.compliance .pause none none)
  | .tokenUnpaused => some (e.compliance .unpause none none)
  | .stablecoinInitialized | .authorityTransferred => none

/-- Whether the stablecoin is updated after the row. -/
def updates (e : ParsedEvent) : Bool :=
  e.name = .tokensMinted ∨ e.name = .tokensBurned ∨ e.name = .tokenPaused ∨ e.name = .tokenUnpaused

/-- The update of the stablecoin, which fails if a total overflows. -/
def apply (e : ParsedEvent) (c : Stablecoin) : Option Stablecoin :=
  match e.name with
  | .tokensMinted => e.amount.bind c.mintedMore
  | .tokensBurned => e.amount.bind c.burnedMore
  | .tokenPaused => some { c with paused := true }
  | .tokenUnpaused => some { c with paused := false }
  | _ => some c

/-- The stablecoin that is created for an unknown mint. -/
def newStablecoin (e : ParsedEvent) : Stablecoin :=
  ⟨"Indexed".toList, "IDX".toList, 6, (e.field "authority").getD unknown, false, 0, 0⟩

theorem handled_of_record {e : ParsedEvent} {r : Record} (hr : e.record = some r) : e.handled := by
  unfold record at hr
  unfold handled
  cases hname : e.name <;> simp_all

theorem table_burn_iff {e : ParsedEvent} {r : Record} (hr : e.record = some r) :
    r.table = .burnOperation ↔ e.name = .tokensBurned := by
  unfold record compliance at hr
  cases hname : e.name <;> simp only [hname, Option.map_eq_some_iff, Option.some.injEq, reduceCtorEq] at hr
  case tokensMinted | tokensBurned | tokensSeized =>
    obtain ⟨_, -, rfl⟩ := hr
    simp [Record.table]
  all_goals
    subst hr
    simp [Record.table]

end ParsedEvent

/-! ### One worker -/

/-- A transaction: what its logs parse to. -/
structure Transaction where
  signature : Text
  events : List ParsedEvent

def Transaction.ofLogs (signature : Text) (logs : List Text) : Transaction :=
  ⟨signature, extractEventsFromLogs logs⟩

/-- The memory of the process and its database. -/
structure Store where
  db : Db
  eventsProcessed : Nat
  lastProcessedSlot : Nat

inductive Path where
  | websocket
  | poller
  deriving DecidableEq, Repr

/-- The call a worker makes next. The first three are the poller's; `known` and `found` are what the calls before
it found. -/
inductive Pc where
  | knownMint
  | knownBurn (known : Bool)
  | knownCompliance (known : Bool)
  | findMint
  | findCompliance (found : Bool)
  | findStablecoin
  | createStablecoin
  | insert
  | update
  | indexerState
  | done
  deriving DecidableEq, Repr

structure Worker where
  path : Path
  /-- The transaction's slot; 0 where the websocket handler did not find the transaction. -/
  slot : Nat
  /-- The events before this one are behind. -/
  index : Nat
  pc : Pc
  deriving DecidableEq, Repr

namespace Worker

variable (tx : Transaction) (w : Worker)

def goto (pc : Pc) : Worker := { w with pc }

/-- The head of the loop over the events, and what follows it. -/
def loop : Worker :=
  if w.index < tx.events.length then w.goto .findMint
  else if w.path = .websocket ∧ 0 < w.slot then w.goto .indexerState
  else w.goto .done

def nextEvent : Worker := { w with index := w.index + 1 }.loop tx

def start (path : Path) (slot : Nat) : Worker :=
  match path with
  | .websocket => Worker.loop tx ⟨path, slot, 0, .done⟩
  | .poller => ⟨path, slot, 0, .knownMint⟩

end Worker

def Store.setDb (st : Store) (db : Db) : Store := { st with db }

/-- `eventsProcessed++` -/
def Store.count (st : Store) : Store := { st with eventsProcessed := st.eventsProcessed + 1 }

section calls

variable (tx : Transaction) (st : Store) (w : Worker) (e : ParsedEvent)

def findStablecoin : Store × Worker :=
  match st.db.stablecoins e.mintAddress with
  | some _ => (st, w.goto .insert)
  | none => (st, if e.mintAddress = ParsedEvent.unknown then w.nextEvent tx else w.goto .createStablecoin)

def createStablecoin : Store × Worker :=
  match st.db.createStablecoin e.mintAddress e.newStablecoin with
  | some db => (st.setDb db, w.goto .insert)
  | none => (st, w.goto .done)

/-- The `switch` up to its first call. -/
def insertRow : Store × Worker :=
  if ¬e.handled then (st.count, w.nextEvent tx)
  else
    match e.record.bind fun record => st.db.create ⟨tx.signature, w.slot, record⟩ with
    | some db => if e.updates then (st.setDb db, w.goto .update) else ((st.setDb db).count, w.nextEvent tx)
    | none => (st, w.goto .done)

def updateStablecoin : Store × Worker :=
  match st.db.updateStablecoin e.mintAddress e.apply with
  | some db => ((st.setDb db).count, w.nextEvent tx)
  | none => (st, w.goto .done)

/-- A worker's next call. -/
def advance : Store × Worker :=
  match w.pc, tx.events[w.index]? with
  | .knownMint, _ => (st, w.goto (.knownBurn (st.db.has .mintOperation tx.signature)))
  | .knownBurn known, _ => (st, w.goto (.knownCompliance (known || st.db.has .burnOperation tx.signature)))
  | .knownCompliance known, _ =>
    (st, if known || st.db.has .complianceEvent tx.signature then w.goto .done else w.loop tx)
  | .findMint, _ => (st, w.goto (.findCompliance (st.db.has .mintOperation tx.signature)))
  | .findCompliance found, _ =>
    (st, if found || st.db.has .complianceEvent tx.signature then w.nextEvent tx else w.goto .findStablecoin)
  | .findStablecoin, some e => findStablecoin tx st w e
  | .createStablecoin, some e => createStablecoin st w e
  | .insert, some e => insertRow tx st w e
  | .update, some e => updateStablecoin tx st w e
  | .indexerState, _ =>
    (⟨{ st.db with indexerState := some (w.slot, tx.signature) }, st.eventsProcessed, w.slot⟩, w.goto .done)
  | _, _ => (st, w.goto .done)

end calls

/-! ### The transition system -/

structure IndexerState where
  store : Store
  workers : List Worker

inductive IndexerLabel where
  | start (path : Path) (slot : Nat)
  | step (worker : Nat)
  deriving DecidableEq, Repr

inductive IndexerStep (tx : Transaction) : IndexerState → IndexerLabel → IndexerState → Prop
  | start {s : IndexerState} (path : Path) (slot : Nat) :
    IndexerStep tx s (.start path slot) { s with workers := s.workers ++ [.start tx path slot] }
  | step {s : IndexerState} {i : Nat} {w : Worker} (hw : s.workers[i]? = some w) (hpc : w.pc ≠ .done) :
    IndexerStep tx s (.step i) ⟨(advance tx s.store w).1, s.workers.set i (advance tx s.store w).2⟩

/-- Runs on a transaction, from the database `db`. -/
def indexing (tx : Transaction) (db : Db) : Lts IndexerState IndexerLabel where
  start s := s.store.db = db ∧ s.workers = []
  step := IndexerStep tx

/-- The state after a step, if it is possible. -/
def IndexerState.next (tx : Transaction) (s : IndexerState) : IndexerLabel → Option IndexerState
  | .start path slot => some { s with workers := s.workers ++ [.start tx path slot] }
  | .step i => do
    let w ← s.workers[i]?
    guard (w.pc ≠ .done)
    pure ⟨(advance tx s.store w).1, s.workers.set i (advance tx s.store w).2⟩

theorem IndexerState.next_step {tx : Transaction} {s s' : IndexerState} {label : IndexerLabel}
    (h : s.next tx label = some s') : IndexerStep tx s label s' := by
  cases label with
  | start path slot =>
    obtain rfl := Option.some.inj h
    exact .start path slot
  | step i =>
    simp only [next, Option.bind_eq_bind, Option.bind_eq_some_iff, Option.guard_eq_some', exists_const,
      Option.pure_def, Option.some.injEq] at h
    obtain ⟨w, hw, hpc, rfl⟩ := h
    exact .step hw hpc

end ThawGate.Backend
