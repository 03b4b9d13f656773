import Mathlib.Algebra.Order.BigOperators.Group.List
import Mathlib.Algebra.Order.Ring.Nat
import Mathlib.Tactic.SplitIfs
import ThawGate.Backend.Calls

/-!
# What the indexer counts

`Counted` says that a transaction has one row for each of its events and that the totals of the mints moved by
their amounts. `Countable` are the lists of events that the indexer counts: it looks for a mint operation or a
compliance event with the signature before each event, and each table takes a signature once, so there is at most
one event behind a burn and none behind another event.

Under `Countable` the number `n` of the rows written says how far the transaction is. Every worker is at most
there (`Worker.Sound`), a worker that is behind finds the row it would write, and as long as a row is missing
one worker is where it is written (`Worker.Leads`). A total is behind by what the workers that wrote a row have
not yet added (`Worker.pending`).
-/

namespace ThawGate.Backend

open Function
open Logs (Text)

/-! ### Totals -/

inductive Op where
  | mint
  | burn
  deriving DecidableEq, Repr

def Op.event : Op → EventName
  | .mint => .tokensMinted
  | .burn => .tokensBurned

def Stablecoin.total (c : Stablecoin) : Op → Nat
  | .mint => c.totalMinted
  | .burn => c.totalBurned

/-- By how much an event moves a total of a mint. -/
def ParsedEvent.moved (op : Op) (mint : Text) (e : ParsedEvent) : Nat :=
  if e.name = op.event ∧ e.mintAddress = mint then e.amount.getD 0 else 0

def movedBy (op : Op) (mint : Text) (events : List ParsedEvent) : Nat := (events.map (·.moved op mint)).sum

/-- One row for each event, and the totals moved by the events' amounts. -/
structure Counted (tx : Transaction) (db db' : Db) : Prop where
  rows : ((db'.of tx.signature).map fun row => some row.record).Perm (tx.events.map ParsedEvent.record)
  totals : ∀ op mint c, db.stablecoins mint = some c →
    ∃ c', db'.stablecoins mint = some c' ∧ c'.total op = c.total op + movedBy op mint tx.events

/-- No event, one event, or a burn and one event that is no burn. -/
def Alone : List ParsedEvent → Prop
  | [] | [_] => True
  | [e, e'] => e.name = .tokensBurned ∧ e'.name ≠ .tokensBurned
  | _ => False

structure Countable (tx : Transaction) (db : Db) : Prop where
  alone : Alone tx.events
  /-- Every event is of a kind that is written, with an amount that can be read and stored. -/
  recorded : ∀ e ∈ tx.events, e.record.isSome
  /-- The totals have room. -/
  fits : ∀ op mint c, db.stablecoins mint = some c → c.total op + movedBy op mint tx.events < columnBound

def Transaction.Known (tx : Transaction) (db : Db) : Prop := ∀ e ∈ tx.events, (db.stablecoins e.mintAddress).isSome

theorem Transaction.Known.setStablecoin {tx : Transaction} {db : Db} {mint : Text} {c : Stablecoin}
    (h : tx.Known db) : tx.Known (db.setStablecoin mint c) := by
  intro e he
  by_cases hm : e.mintAddress = mint
  · rw [hm, Db.setStablecoin_self, Option.isSome_some]
  · rw [Db.setStablecoin_of_ne hm]
    exact h e he

section event

variable {e : ParsedEvent} {c c' : Stablecoin} {r : Record}

theorem ParsedEvent.moved_of_not_updates (h : e.updates = false) (op : Op) (mint : Text) : e.moved op mint = 0 := by
  refine if_neg ?_
  intro ⟨hname, _⟩
  simp only [updates, hname, decide_eq_false_iff_not] at h
  cases op <;> simp [Op.event] at h

theorem ParsedEvent.total_apply (hc : e.apply c = some c') (op : Op) :
    c'.total op = c.total op + e.moved op e.mintAddress := by
  unfold apply Stablecoin.mintedMore Stablecoin.burnedMore at hc
  unfold moved
  cases hname : e.name <;>
    simp only [hname, Option.bind_eq_some_iff, Option.map_eq_some_iff, increment_eq_some, Option.some.injEq] at hc
  case tokensMinted | tokensBurned =>
    obtain ⟨amount, hamount, total, ⟨-, rfl⟩, rfl⟩ := hc
    cases op <;> simp [Stablecoin.total, Op.event, hamount]
  all_goals
    subst hc
    cases op <;> simp [Stablecoin.total, Op.event]

/-- The totals stay in their columns. -/
theorem ParsedEvent.apply_fits (hc : e.apply c = some c') (hfits : ∀ op, c.total op < columnBound) (op : Op) :
    c'.total op < columnBound := by
  have hop := hfits op
  unfold apply Stablecoin.mintedMore Stablecoin.burnedMore at hc
  cases hname : e.name <;>
    simp only [hname, Option.bind_eq_some_iff, Option.map_eq_some_iff, increment_eq_some, Option.some.injEq] at hc
  case tokensMinted | tokensBurned =>
    obtain ⟨amount, -, total, ⟨hroom, rfl⟩, rfl⟩ := hc
    cases op
    · first | exact hroom | exact hop
    · first | exact hroom | exact hop
  all_goals
    subst hc
    cases op <;> exact hop

theorem ParsedEvent.apply_isSome (hr : e.record = some r)
    (hfits : ∀ op, c.total op + e.moved op e.mintAddress < columnBound) : (e.apply c).isSome := by
  have hmint := hfits .mint
  have hburn := hfits .burn
  unfold record at hr
  unfold moved Op.event at hmint hburn
  unfold apply Stablecoin.mintedMore Stablecoin.burnedMore increment
  cases hname : e.name <;> simp only [hname, Option.map_eq_some_iff] at hr ⊢
  case tokensMinted =>
    obtain ⟨amount, hamount, -⟩ := hr
    simp only [hname, hamount, Stablecoin.total, and_self, if_true, Option.getD_some] at hmint
    simp [hamount, hmint]
  case tokensBurned =>
    obtain ⟨amount, hamount, -⟩ := hr
    simp only [hname, hamount, Stablecoin.total, and_self, if_true, Option.getD_some] at hburn
    simp [hamount, hburn]
  all_goals rfl

end event

/-! ### How far a transaction is -/

variable {tx : Transaction} {db db₀ : Db} {st st' : Store} {w w' : Worker} {n : Nat}

namespace Alone

variable {events : List ParsedEvent} {i j : Nat} {e e' : ParsedEvent} {r r' : Record}

/-- Nothing is behind an event that is no burn. -/
theorem last (h : Alone events) (he : events[i]? = some e) (hr : e.record = some r) (ht : r.table ≠ .burnOperation) :
    i + 1 = events.length := by
  have hname : e.name ≠ .tokensBurned := fun hname => ht ((ParsedEvent.table_burn_iff hr).2 hname)
  match events, h, i, he with
  | [_], _, 0, _ => rfl
  | [b, _], ⟨hb, _⟩, 0, he =>
    obtain rfl := Option.some.inj he
    exact absurd hb hname
  | [_, _], _, 1, _ => rfl
  | [_, _], _, _ + 2, he => contradiction

/-- No two events have one table. -/
theorem table_ne (h : Alone events) (hij : i < j) (he : events[i]? = some e) (he' : events[j]? = some e')
    (hr : e.record = some r) (hr' : e'.record = some r') : r.table ≠ r'.table := by
  intro ht
  have hj : j < events.length := (List.getElem?_eq_some_iff.1 he').1
  match events, h with
  | [_], _ => exact absurd (hij.trans_le (Nat.le_of_lt_succ hj)) (Nat.not_lt_zero i)
  | [b, c], ⟨hb, hc⟩ =>
    have hlen : j < 2 := hj
    obtain rfl : i = 0 := by omega
    obtain rfl : j = 1 := by omega
    obtain rfl := Option.some.inj he
    obtain rfl := Option.some.inj he'
    exact hc ((ParsedEvent.table_burn_iff hr').1 (ht.symm.trans ((ParsedEvent.table_burn_iff hr).2 hb)))

end Alone

/-- The rows are those of the first `n` events. -/
def Recorded (tx : Transaction) (n : Nat) (db : Db) : Prop :=
  (db.of tx.signature).map (fun row => some row.record) = (tx.events.take n).map ParsedEvent.record

namespace Recorded

variable {t : Table} {i : Nat} {e : ParsedEvent} {r : Record}

theorem has_iff (h : Recorded tx n db) :
    db.has t tx.signature = true ↔ ∃ i < n, ∃ e r, tx.events[i]? = some e ∧ e.record = some r ∧ r.table = t := by
  rw [Db.has_iff]
  constructor
  · intro ⟨row, hrow, ht⟩
    have hmem : some row.record ∈ (tx.events.take n).map ParsedEvent.record := by
      rw [← h]
      exact List.mem_map_of_mem hrow
    obtain ⟨e, he, hr⟩ := List.mem_map.1 hmem
    obtain ⟨i, hi⟩ := List.mem_iff_getElem?.1 he
    rw [List.getElem?_take] at hi
    split_ifs at hi with hlt
    exact ⟨i, hlt, e, row.record, hi, hr, ht⟩
  · intro ⟨i, hlt, e, r, he, hr, ht⟩
    have hmem : some r ∈ (db.of tx.signature).map fun row => some row.record := by
      rw [h, ← hr]
      refine List.mem_map_of_mem (List.mem_iff_getElem?.2 ⟨i, ?_⟩)
      rw [List.getElem?_take_of_lt hlt, he]
    obtain ⟨row, hrow, heq⟩ := List.mem_map.1 hmem
    exact ⟨row, hrow, by rw [Option.some.inj heq, ht]⟩

theorem pos_of_has (h : Recorded tx n db) (hhas : db.has t tx.signature = true) : 0 < n := by
  obtain ⟨i, hlt, -⟩ := h.has_iff.1 hhas
  omega

/-- What the indexer looks for is there only when all is written. -/
theorem all_of_has (h : Recorded tx n db) (hle : n ≤ tx.events.length) (ha : Alone tx.events)
    (hhas : db.has t tx.signature = true) (ht : t ≠ .burnOperation) : n = tx.events.length := by
  obtain ⟨i, hlt, e, r, he, hr, rfl⟩ := h.has_iff.1 hhas
  have hlast := ha.last he hr ht
  omega

theorem has_of_lt (h : Recorded tx n db) (hi : i < n) (he : tx.events[i]? = some e) (hr : e.record = some r) :
    db.has r.table tx.signature = true := h.has_iff.2 ⟨i, hi, e, r, he, hr, rfl⟩

theorem not_has (h : Recorded tx n db) (ha : Alone tx.events) (he : tx.events[n]? = some e) (hr : e.record = some r) :
    db.has r.table tx.signature = false := by
  rw [Bool.eq_false_iff]
  intro hhas
  obtain ⟨i, hlt, e', r', he', hr', ht⟩ := h.has_iff.1 hhas
  exact ha.table_ne hlt he' he hr' hr ht

theorem insert (h : Recorded tx n db) (he : tx.events[n]? = some e) (hr : e.record = some r) (slot : Nat) :
    Recorded tx (n + 1) { db with rows := db.rows ++ [⟨tx.signature, slot, r⟩] } := by
  rw [Recorded, Db.of_append rfl, List.map_append, h, List.take_add_one, he, List.map_append, Option.toList_some,
    List.map_cons, List.map_cons, List.map_nil, List.map_nil, hr]

end Recorded

/-! ### Where a worker is -/

/-- A worker is at most at the first event without a row. -/
def Worker.Sound (tx : Transaction) (n : Nat) (w : Worker) : Prop :=
  w.index ≤ n ∧
  match w.pc with
  | .knownMint => w.index = 0
  | .knownBurn known | .knownCompliance known => w.index = 0 ∧ (known = true → 0 < n)
  | .findMint | .findStablecoin | .insert => w.index < tx.events.length
  | .findCompliance found => w.index < tx.events.length ∧ (found = true → n = tx.events.length)
  | .createStablecoin => False
  | .update => w.index < n
  | .indexerState => w.index = tx.events.length
  | .done => True

/-- A worker is at the first event without a row, or has just written the row before it. -/
def Worker.Leads (n : Nat) (w : Worker) : Prop := w.pc ≠ .done ∧ (w.index = n ∨ w.pc = .update ∧ w.index + 1 = n)

/-- What a worker has yet to add to a total. -/
def Worker.pending (tx : Transaction) (op : Op) (mint : Text) (w : Worker) : Nat :=
  if w.pc = .update then (tx.events[w.index]?).elim 0 (·.moved op mint) else 0

theorem Worker.pending_of_ne (h : w.pc ≠ .update) (op : Op) (mint : Text) : w.pending tx op mint = 0 := if_neg h

theorem Worker.loop_index : (w.loop tx).index = w.index := by
  unfold loop
  split_ifs <;> rfl

theorem Worker.loop_pc : (w.loop tx).pc = .findMint ∧ w.index < tx.events.length ∨
    ((w.loop tx).pc = .indexerState ∨ (w.loop tx).pc = .done) ∧ tx.events.length ≤ w.index := by
  unfold loop
  split_ifs with hlt
  · exact .inl ⟨rfl, hlt⟩
  · exact .inr ⟨.inl rfl, not_lt.1 hlt⟩
  · exact .inr ⟨.inr rfl, not_lt.1 hlt⟩

theorem Worker.pending_loop (op : Op) (mint : Text) : (w.loop tx).pending tx op mint = 0 := by
  refine pending_of_ne ?_ op mint
  obtain ⟨hpc, -⟩ | ⟨hpc | hpc, -⟩ := @Worker.loop_pc tx w <;> rw [hpc] <;> decide

theorem Worker.Sound.loop (hn : n ≤ tx.events.length) (hw : w.index ≤ n) : (w.loop tx).Sound tx n := by
  refine ⟨loop_index.trans_le hw, ?_⟩
  obtain ⟨hpc, hlt⟩ | ⟨hpc | hpc, hge⟩ := @Worker.loop_pc tx w <;> simp only [hpc, loop_index]
  · exact hlt
  · omega

theorem Worker.Leads.loop (hn : n < tx.events.length) (hw : w.index = n) : (w.loop tx).Leads n := by
  refine ⟨?_, .inl (loop_index.trans hw)⟩
  obtain ⟨hpc, -⟩ | ⟨-, hge⟩ := @Worker.loop_pc tx w
  · rw [hpc]
    decide
  · omega

/-- More rows only help. -/
theorem Worker.Sound.mono {m : Nat} (hw : w.Sound tx n) (hnm : n ≤ m) (hm : m ≤ tx.events.length) : w.Sound tx m := by
  obtain ⟨hle, hpc⟩ := hw
  refine ⟨hle.trans hnm, ?_⟩
  cases h : w.pc <;> simp only [h] at hpc ⊢
  case knownBurn | knownCompliance => exact ⟨hpc.1, fun hk => (hpc.2 hk).trans_le hnm⟩
  case findCompliance =>
    refine ⟨hpc.1, fun hf => ?_⟩
    have := hpc.2 hf
    omega
  case update => exact hpc.trans_le hnm
  all_goals exact hpc

/-! ### One call -/

/-- What a call comes to: `m` rows, and the totals with what is pending are those of the rows. -/
structure Counts (tx : Transaction) (n : Nat) (st : Store) (w : Worker) (m : Nat) (st' : Store) (w' : Worker) :
    Prop where
  le : n ≤ m
  le_length : m ≤ tx.events.length
  recorded : Recorded tx m st'.db
  known : tx.Known st'.db
  sound : w'.Sound tx m
  writes : n < m → m < tx.events.length → w'.Leads m
  leads : w.Leads n → m < tx.events.length → w'.Leads m
  totals : ∀ op mint c, st.db.stablecoins mint = some c → ∃ c', st'.db.stablecoins mint = some c' ∧
    c'.total op + w'.pending tx op mint + movedBy op mint (tx.events.take n) =
      c.total op + w.pending tx op mint + movedBy op mint (tx.events.take m)

theorem Worker.Leads.index_eq (hl : w.Leads n) (hpc : w.pc ≠ .update) : w.index = n :=
  hl.2.resolve_right fun h => hpc h.1

/-- A call that writes neither a row nor a total. -/
theorem Counts.quiet (hn : n ≤ tx.events.length) (hdb : Recorded tx n st.db) (hknown : tx.Known st.db)
    (hrows : st'.db.rows = st.db.rows) (hcoins : st'.db.stablecoins = st.db.stablecoins) (hpc : w.pc ≠ .update)
    (hpc' : w'.pc ≠ .update) (hs : w'.Sound tx n)
    (hl : w.index = n → n < tx.events.length → w'.Leads n) : Counts tx n st w n st' w' where
  le := le_rfl
  le_length := hn
  recorded := by
    rw [Recorded, Db.of, hrows]
    exact hdb
  known := by
    intro e he
    rw [hcoins]
    exact hknown e he
  sound := hs
  writes h := absurd h (lt_irrefl n)
  leads h := hl (h.index_eq hpc)
  totals op mint c hc := by
    refine ⟨c, by rw [hcoins, hc], ?_⟩
    rw [w'.pending_of_ne hpc', w.pending_of_ne hpc]

/-- A call that only moves the worker on. -/
theorem Counts.goto {pc : Pc} (hn : n ≤ tx.events.length) (hdb : Recorded tx n st.db) (hknown : tx.Known st.db)
    (hpc : w.pc ≠ .update) (hpc' : pc ≠ .update) (hs : (w.goto pc).Sound tx n)
    (hl : w.index = n → n < tx.events.length → pc ≠ .done) : Counts tx n st w n st (w.goto pc) :=
  .quiet hn hdb hknown rfl rfl hpc hpc' hs fun hi hlt => ⟨hl hi hlt, .inl hi⟩

theorem movedBy_take_succ {e : ParsedEvent} (he : tx.events[n]? = some e) (op : Op) (mint : Text) :
    movedBy op mint (tx.events.take (n + 1)) = movedBy op mint (tx.events.take n) + e.moved op mint := by
  rw [movedBy, List.take_add_one, he, List.map_append, List.sum_append]
  simp [movedBy]

theorem Worker.loop_pc_ne_update : (w.loop tx).pc ≠ .update := by
  obtain ⟨hpc, -⟩ | ⟨hpc | hpc, -⟩ := @Worker.loop_pc tx w <;> rw [hpc] <;> decide

/-- The first missing row is written; its amount is added next, if it has one. -/
theorem Counts.inserted {e : ParsedEvent} {r : Record} (hdb : Recorded tx n st.db) (hknown : tx.Known st.db)
    (hpc : w.pc = .insert) (hi : w.index = n) (he : tx.events[n]? = some e) (hr : e.record = some r)
    (hst : st'.db = { st.db with rows := st.db.rows ++ [⟨tx.signature, w.slot, r⟩] }) :
    Counts tx n st w (n + 1) st' (if e.updates then w.goto .update else w.nextEvent tx) := by
  have hlt : n < tx.events.length := (List.getElem?_eq_some_iff.1 he).1
  have hnext : ({ w with index := w.index + 1 } : Worker).index = n + 1 := congrArg (· + 1) hi
  have hleads : n + 1 < tx.events.length → (if e.updates then w.goto .update else w.nextEvent tx).Leads (n + 1) := by
    intro hlt
    split_ifs
    · exact ⟨by simp [Worker.goto], .inr ⟨rfl, hnext⟩⟩
    · exact .loop hlt hnext
  refine ⟨Nat.le_succ n, hlt, ?_, ?_, ?_, fun _ => hleads, fun _ => hleads, ?_⟩
  · rw [hst]
    exact hdb.insert he hr w.slot
  · intro e he
    rw [hst]
    exact hknown e he
  · split_ifs
    · exact ⟨hi.le.trans (Nat.le_succ n), Nat.lt_succ_of_le hi.le⟩
    · exact .loop hlt hnext.le
  · intro op mint c hc
    have hpending : (if e.updates then w.goto .update else w.nextEvent tx).pending tx op mint = e.moved op mint := by
      split_ifs with hupdates
      · have hat : (w.goto .update).index = n := hi
        rw [Worker.pending, hat, he]
        exact if_pos rfl
      · rw [e.moved_of_not_updates (Bool.eq_false_iff.2 hupdates)]
        exact Worker.pending_loop op mint
    refine ⟨c, by rw [hst, hc], ?_⟩
    rw [hpending, w.pending_of_ne (by rw [hpc]; decide), movedBy_take_succ he]
    omega

/-- An amount is added, and is pending no more. -/
theorem Counts.updated {e : ParsedEvent} {c c' : Stablecoin} (hn : n ≤ tx.events.length) (hdb : Recorded tx n st.db)
    (hknown : tx.Known st.db) (hpc : w.pc = .update) (hi : w.index < n) (he : tx.events[w.index]? = some e)
    (hc : st.db.stablecoins e.mintAddress = some c) (hc' : e.apply c = some c')
    (hst : st'.db = st.db.setStablecoin e.mintAddress c') : Counts tx n st w n st' (w.nextEvent tx) := by
  have hpending : ∀ op mint, w.pending tx op mint = e.moved op mint := by
    intro op mint
    rw [Worker.pending, if_pos hpc, he]
    rfl
  refine ⟨le_rfl, hn, ?_, ?_, .loop hn hi, fun h => absurd h (lt_irrefl n), ?_, ?_⟩
  · rw [hst]
    exact hdb
  · rw [hst]
    exact hknown.setStablecoin
  · intro ⟨_, hat⟩ hlt
    obtain hat | ⟨-, hat⟩ := hat
    · omega
    · exact .loop hlt hat
  · intro op mint c₁ hc₁
    rw [hpending, hst, show (w.nextEvent tx).pending tx op mint = 0 from Worker.pending_loop op mint]
    by_cases hm : mint = e.mintAddress
    · subst hm
      rw [hc] at hc₁
      obtain rfl := Option.some.inj hc₁
      refine ⟨c', Db.setStablecoin_self, ?_⟩
      rw [ParsedEvent.total_apply hc']
      omega
    · refine ⟨c₁, (Db.setStablecoin_of_ne hm).trans hc₁, ?_⟩
      rw [ParsedEvent.moved, if_neg fun h => hm h.2.symm]

/-- **Step.** -/
theorem Called.counts (hx : Called tx st w st' w') (ha : Alone tx.events)
    (hrec : ∀ e ∈ tx.events, e.record.isSome) (hn : n ≤ tx.events.length) (hdb : Recorded tx n st.db)
    (hknown : tx.Known st.db) (hw : w.Sound tx n)
    (hfits : ∀ e c, w.pc = .update → tx.events[w.index]? = some e → st.db.stablecoins e.mintAddress = some c →
      (e.apply c).isSome) : ∃ m, Counts tx n st w m st' w' := by
  obtain ⟨hle, hsound⟩ := hw
  have hrecord : ∀ {i} {e : ParsedEvent}, tx.events[i]? = some e → ∃ r, e.record = some r := fun he =>
    Option.isSome_iff_exists.1 (hrec _ (List.mem_of_getElem? he))
  cases hx with
  | knownMint hpc =>
    rw [hpc] at hsound
    exact ⟨n, .goto hn hdb hknown (by rw [hpc]; decide) (by simp) ⟨hle, hsound, hdb.pos_of_has⟩ (by simp)⟩
  | @knownBurn known hpc =>
    rw [hpc] at hsound
    obtain ⟨hzero, hseen⟩ := hsound
    refine ⟨n, .goto hn hdb hknown (by rw [hpc]; simp) (by simp) ⟨hle, hzero, fun h => ?_⟩ (by simp)⟩
    obtain h | h := Bool.or_eq_true_iff.1 h
    · exact hseen h
    · exact hdb.pos_of_has h
  | @known known hpc h =>
    rw [hpc] at hsound
    obtain ⟨hzero, hseen⟩ := hsound
    have hpos : 0 < n := by
      obtain h | h := Bool.or_eq_true_iff.1 h
      · exact hseen h
      · exact hdb.pos_of_has h
    refine ⟨n, .goto hn hdb hknown (by rw [hpc]; simp) (by decide) ⟨hle, trivial⟩ ?_⟩
    intro hi
    omega
  | @unknown known hpc h =>
    refine ⟨n, .quiet hn hdb hknown rfl rfl (by rw [hpc]; simp) w.loop_pc_ne_update (.loop hn hle) ?_⟩
    exact fun hi hlt => .loop hlt hi
  | findMint hpc =>
    rw [hpc] at hsound
    refine ⟨n, .goto hn hdb hknown (by rw [hpc]; decide) (by simp) ⟨hle, hsound, ?_⟩ (by simp)⟩
    exact fun h => hdb.all_of_has hn ha h (by decide)
  | @skipped found hpc h =>
    rw [hpc] at hsound
    obtain ⟨hlt, hseen⟩ := hsound
    have hall : n = tx.events.length := by
      obtain h | h := Bool.or_eq_true_iff.1 h
      · exact hseen h
      · exact hdb.all_of_has hn ha h (by decide)
    refine ⟨n, .quiet hn hdb hknown rfl rfl (by rw [hpc]; simp) Worker.loop_pc_ne_update (.loop hn ?_) ?_⟩
    · exact hall ▸ hlt
    · intro _ hlt
      omega
  | @notFound found hpc h =>
    rw [hpc] at hsound
    exact ⟨n, .goto hn hdb hknown (by rw [hpc]; simp) (by decide) ⟨hle, hsound.1⟩ (by simp)⟩
  | stablecoin hpc he hc =>
    rw [hpc] at hsound
    exact ⟨n, .goto hn hdb hknown (by rw [hpc]; decide) (by decide) ⟨hle, hsound⟩ (by simp)⟩
  | noStablecoin hpc he hc hw =>
    have hsome := hknown _ (List.mem_of_getElem? he)
    rw [hc] at hsome
    contradiction
  | createStablecoin hpc he =>
    rw [hpc] at hsound
    exact hsound.elim
  | unhandled hpc he hhandled =>
    obtain ⟨r, hr⟩ := hrecord he
    exact absurd (ParsedEvent.handled_of_record hr) hhandled
  | refused hpc he h =>
    obtain ⟨r, hr⟩ := hrecord he
    refine ⟨n, .goto hn hdb hknown (by rw [hpc]; decide) (by decide) ⟨hle, trivial⟩ ?_⟩
    intro hi
    rw [hi] at he
    have hnot := hdb.not_has ha he hr
    rw [h r hr] at hnot
    contradiction
  | @inserted e r st' w' hpc he hr hnew hst hw =>
    rw [hpc] at hsound
    -- a row before the first missing one is there already
    have hi : w.index = n := by
      by_contra hne
      rw [hdb.has_of_lt (Nat.lt_of_le_of_ne hle hne) he hr] at hnew
      contradiction
    rw [hw]
    exact ⟨n + 1, .inserted hdb hknown hpc hi (hi ▸ he) hr hst⟩
  | @updated e c c' st' hpc he hc hc' hst =>
    rw [hpc] at hsound
    exact ⟨n, .updated hn hdb hknown hpc hsound he hc hc' hst⟩
  | overflown hpc he h =>
    obtain ⟨c, hc⟩ := Option.isSome_iff_exists.1 (hknown _ (List.mem_of_getElem? he))
    have hsome := hfits _ c hpc he hc
    rw [h c hc] at hsome
    contradiction
  | indexerState hpc hst =>
    rw [hpc] at hsound
    refine ⟨n, .quiet hn hdb hknown (by rw [hst]) (by rw [hst]) (by rw [hpc]; decide) (by simp [Worker.goto])
      ⟨hle, trivial⟩ ?_⟩
    intro hi hlt
    omega
  | @stray pc hpc hevent he =>
    have hge := List.getElem?_eq_none_iff.1 he
    rw [hpc] at hsound
    simp only [List.mem_cons, List.not_mem_nil, or_false] at hevent
    obtain rfl | rfl | rfl | rfl := hevent
    · exact absurd hsound (not_lt.2 hge)
    · exact hsound.elim
    · exact absurd hsound (not_lt.2 hge)
    · exact absurd (lt_of_lt_of_le hsound hn) (not_lt.2 hge)

/-! ### Runs -/

theorem sum_map_set {α : Type} (f : α → Nat) {l : List α} {i : Nat} {a : α} (b : α) (h : l[i]? = some a) :
    ((l.set i b).map f).sum + f a = (l.map f).sum + f b := by
  induction l generalizing i with
  | nil => contradiction
  | cons x l ih =>
    cases i with
    | zero =>
      obtain rfl := Option.some.inj h
      simp only [List.set_cons_zero, List.map_cons, List.sum_cons]
      omega
    | succ i =>
      have hrest := ih h
      simp only [List.set_cons_succ, List.map_cons, List.sum_cons]
      omega

def IndexerState.pending (tx : Transaction) (op : Op) (mint : Text) (s : IndexerState) : Nat :=
  (s.workers.map (·.pending tx op mint)).sum

/-- The state of a countable transaction with `n` rows, from the database `db₀`. -/
structure Counting (tx : Transaction) (db₀ : Db) (n : Nat) (s : IndexerState) : Prop where
  le_length : n ≤ tx.events.length
  recorded : Recorded tx n s.store.db
  known : tx.Known s.store.db
  sound : ∀ w ∈ s.workers, w.Sound tx n
  idle : s.workers = [] → n = 0
  leader : s.workers ≠ [] → n < tx.events.length → ∃ w ∈ s.workers, w.Leads n
  totals : ∀ op mint c, db₀.stablecoins mint = some c → ∃ c', s.store.db.stablecoins mint = some c' ∧
    c'.total op + s.pending tx op mint = c.total op + movedBy op mint (tx.events.take n)

variable {s s' : IndexerState} {h : List IndexerLabel}

theorem movedBy_take_le (op : Op) (mint : Text) : movedBy op mint (tx.events.take n) ≤ movedBy op mint tx.events := by
  have hsplit : movedBy op mint tx.events =
      movedBy op mint (tx.events.take n) + movedBy op mint (tx.events.drop n) := by
    rw [movedBy, movedBy, movedBy, ← List.sum_append, ← List.map_append, List.take_append_drop]
  omega

namespace Counting

theorem initial (hfresh : db₀.of tx.signature = []) (hknown : tx.Known db₀) (hs : s.store.db = db₀ ∧ s.workers = []) :
    Counting tx db₀ 0 s := by
  obtain ⟨hdb, hworkers⟩ := hs
  refine ⟨Nat.zero_le _, ?_, hdb ▸ hknown, ?_, fun _ => rfl, fun hne => absurd hworkers hne, ?_⟩
  · rw [Recorded, hdb, hfresh]
    rfl
  · rw [hworkers]
    intro w hw
    contradiction
  · intro op mint c hc
    refine ⟨c, hdb ▸ hc, ?_⟩
    rw [IndexerState.pending, hworkers]
    rfl

theorem start (hs : Counting tx db₀ n s) (path : Path) (slot : Nat) :
    Counting tx db₀ n { s with workers := s.workers ++ [.start tx path slot] } := by
  have hsound : (Worker.start tx path slot).Sound tx n := by
    cases path with
    | websocket => exact .loop hs.le_length (Nat.zero_le n)
    | poller => exact ⟨Nat.zero_le n, rfl⟩
  refine ⟨hs.le_length, hs.recorded, hs.known, ?_, ?_, ?_, ?_⟩
  · intro w hw
    obtain hw | hw := List.mem_append.1 hw
    · exact hs.sound w hw
    · obtain rfl := List.mem_singleton.1 hw
      exact hsound
  · intro hnil
    exact absurd hnil (by simp)
  · intro _ hlt
    by_cases hworkers : s.workers = []
    · refine ⟨_, List.mem_append_right _ (List.mem_singleton_self _), ?_⟩
      rw [hs.idle hworkers] at hlt ⊢
      cases path with
      | websocket => exact .loop hlt rfl
      | poller => exact ⟨by simp [Worker.start], .inl rfl⟩
    · obtain ⟨w, hw, hl⟩ := hs.leader hworkers hlt
      exact ⟨w, List.mem_append_left _ hw, hl⟩
  · intro op mint c hc
    obtain ⟨c', hc', htotal⟩ := hs.totals op mint c hc
    have hzero : (Worker.start tx path slot).pending tx op mint = 0 := by
      cases path with
      | websocket => exact Worker.pending_loop op mint
      | poller => exact if_neg (by simp [Worker.start])
    refine ⟨c', hc', ?_⟩
    rw [IndexerState.pending, List.map_append, List.sum_append, List.map_singleton, List.sum_singleton, hzero]
    exact htotal

/-- A total with room for all the events has room for what is pending. -/
theorem fits (hs : Counting tx db₀ n s) (hc : Countable tx db₀) (hw : w ∈ s.workers) {e : ParsedEvent}
    (hknown : (db₀.stablecoins e.mintAddress).isSome) (hpc : w.pc = .update) (he : tx.events[w.index]? = some e)
    {c : Stablecoin} (hcoin : s.store.db.stablecoins e.mintAddress = some c) : (e.apply c).isSome := by
  obtain ⟨r, hr⟩ := Option.isSome_iff_exists.1 (hc.recorded e (List.mem_of_getElem? he))
  obtain ⟨c₀, hc₀⟩ := Option.isSome_iff_exists.1 hknown
  refine ParsedEvent.apply_isSome hr ?_
  intro op
  obtain ⟨c', hc', htotal⟩ := hs.totals op _ c₀ hc₀
  rw [hcoin] at hc'
  obtain rfl := Option.some.inj hc'
  have hpending : w.pending tx op e.mintAddress = e.moved op e.mintAddress := by
    rw [Worker.pending, if_pos hpc, he]
    rfl
  have hle : w.pending tx op e.mintAddress ≤ s.pending tx op e.mintAddress :=
    List.le_sum_of_mem (List.mem_map_of_mem (f := fun v => v.pending tx op e.mintAddress) hw)
  have htake : movedBy op e.mintAddress (tx.events.take n) ≤ _ := movedBy_take_le op e.mintAddress
  have hroom := hc.fits op _ c₀ hc₀
  omega

theorem step {i : Nat} (hs : Counting tx db₀ n s) (hc : Countable tx db₀) (hknown : tx.Known db₀)
    (hw : s.workers[i]? = some w) (hpc : w.pc ≠ .done) :
    ∃ m, Counting tx db₀ m ⟨(advance tx s.store w).1, s.workers.set i (advance tx s.store w).2⟩ := by
  have hmem := List.mem_of_getElem? hw
  have hne : s.workers ≠ [] := List.ne_nil_of_mem hmem
  obtain ⟨m, hx⟩ := (advance_called hpc).counts hc.alone hc.recorded hs.le_length hs.recorded hs.known (hs.sound w hmem)
    fun e c hupdate he hcoin => hs.fits hc hmem (hknown e (List.mem_of_getElem? he)) hupdate he hcoin
  have hself : (advance tx s.store w).2 ∈ s.workers.set i (advance tx s.store w).2 :=
    List.mem_set (List.getElem?_eq_some_iff.1 hw).1 _
  refine ⟨m, hx.le_length, hx.recorded, hx.known, ?_, ?_, ?_, ?_⟩
  · intro v hv
    obtain hv | rfl := List.mem_or_eq_of_mem_set hv
    · exact (hs.sound v hv).mono hx.le hx.le_length
    · exact hx.sound
  · intro hnil
    dsimp only at hnil
    rw [hnil] at hself
    contradiction
  · intro _ hlt
    obtain hnm | rfl := Nat.lt_or_eq_of_le hx.le
    · exact ⟨_, hself, hx.writes hnm hlt⟩
    obtain ⟨v, hv, hl⟩ := hs.leader hne hlt
    obtain ⟨j, hj⟩ := List.mem_iff_getElem?.1 hv
    -- the leader made the call, or is where it was
    by_cases hij : i = j
    · rw [hij] at hw
      obtain rfl := Option.some.inj (hw.symm.trans hj)
      exact ⟨_, hself, hx.leads hl hlt⟩
    · refine ⟨v, List.mem_of_getElem? (i := j) ?_, hl⟩
      rw [List.getElem?_set_ne hij, hj]
  · intro op mint c₀ hc₀
    obtain ⟨c, hcoin, htotal⟩ := hs.totals op mint c₀ hc₀
    obtain ⟨c', hc', hcall⟩ := hx.totals op mint c hcoin
    have hsum := sum_map_set (·.pending tx op mint) (advance tx s.store w).2 hw
    refine ⟨c', hc', ?_⟩
    simp only [IndexerState.pending] at htotal ⊢
    omega

/-- **Run.** -/
theorem of_run (hfresh : db₀.of tx.signature = []) (hknown : tx.Known db₀) (hc : Countable tx db₀)
    (r : (indexing tx db₀).Run h s) : ∃ n, Counting tx db₀ n s := by
  refine r.invariant (I := fun _ s => ∃ n, Counting tx db₀ n s) ?_ ?_
  · exact fun s hs => ⟨0, initial hfresh hknown hs⟩
  · intro h s e s' _ ⟨n, hs⟩ hstep
    cases hstep with
    | start path slot => exact ⟨n, hs.start path slot⟩
    | step hw hpc => exact hs.step hc hknown hw hpc

/-- When all workers are done, everything is counted. -/
theorem counted (hs : Counting tx db₀ n s) (hne : s.workers ≠ []) (hdone : ∀ w ∈ s.workers, w.pc = .done) :
    Counted tx db₀ s.store.db := by
  have hall : n = tx.events.length := by
    refine (Nat.lt_or_eq_of_le hs.le_length).resolve_left ?_
    intro hlt
    obtain ⟨w, hw, hl⟩ := hs.leader hne hlt
    exact hl.1 (hdone w hw)
  have hpending : ∀ op mint, s.pending tx op mint = 0 := by
    intro op mint
    refine List.sum_eq_zero_iff_forall_eq_nat.2 ?_
    intro x hx
    obtain ⟨w, hw, rfl⟩ := List.mem_map.1 hx
    exact w.pending_of_ne (by rw [hdone w hw]; decide) op mint
  refine ⟨?_, ?_⟩
  · have hrows := hs.recorded
    rw [Recorded, hall, List.take_length] at hrows
    rw [hrows]
  · intro op mint c hc
    obtain ⟨c', hc', htotal⟩ := hs.totals op mint c hc
    rw [hpending, hall, List.take_length, Nat.add_zero] at htotal
    exact ⟨c', hc', htotal⟩

end Counting

end ThawGate.Backend
