import ThawGate.Backend.Counting

/-!
# Each event once

`counted_iff`: after any run in which every worker is done, a transaction is `Counted` exactly when it was
`Countable`. What is not countable fails whatever the order of the calls: a kind or an amount that is not
written has no row, a second row of one table is refused, and behind an event that is no burn every check of
every worker finds the signature (`Worker.Behind`), so no row is written there.
-/

namespace ThawGate.Backend

open Function
open Logs (Text)

variable {tx : Transaction} {db db' db₀ : Db} {st st' : Store} {w w' : Worker} {k : Nat} {s s' : IndexerState}
  {h : List IndexerLabel}

/-! ### Behind an event that is no burn -/

/-- What `writeEventToDb` looks for. -/
def Db.Seen (db : Db) (signature : Text) : Prop :=
  db.has .mintOperation signature = true ∨ db.has .complianceEvent signature = true

/-- A worker behind the event `k` is past the checks of no event. -/
structure Worker.Behind (tx : Transaction) (k : Nat) (db : Db) (w : Worker) : Prop where
  found : w.pc = .findCompliance true → db.has .mintOperation tx.signature = true
  seen : k < w.index ∨ w.index = k ∧ w.pc = .update → db.Seen tx.signature
  checks : k < w.index → w.pc = .findCompliance false → db.has .complianceEvent tx.signature = true
  stops : k < w.index → w.pc ∉ [.findStablecoin, .insert, .update]
  knows : w.pc ≠ .createStablecoin

/-- The database while no row is of an event behind `k`. -/
structure Db.UpTo (tx : Transaction) (k : Nat) (db : Db) : Prop where
  rows : ∀ row ∈ db.of tx.signature, ∃ i ≤ k, ∃ e, tx.events[i]? = some e ∧ e.record = some row.record
  tables : (db.of tx.signature).Pairwise fun row row' => row.record.table ≠ row'.record.table
  known : tx.Known db
  fits : ∀ op mint c, db.stablecoins mint = some c → c.total op < columnBound

/-- `k` is the place of an event that is recorded and no burn, or behind all events. -/
def Transaction.Ends (tx : Transaction) (k : Nat) : Prop :=
  ∀ e, tx.events[k]? = some e → ∃ r, e.record = some r ∧ r.table ≠ .burnOperation

theorem Db.Seen.of_row {table : Table} (hhas : db.has table tx.signature = true) (ht : table ≠ .burnOperation) :
    db.Seen tx.signature := by
  cases table with
  | mintOperation => exact .inl hhas
  | complianceEvent => exact .inr hhas
  | burnOperation => contradiction

theorem Db.Seen.mono (hmono : ∀ t, db.has t tx.signature = true → db'.has t tx.signature = true)
    (hs : db.Seen tx.signature) : db'.Seen tx.signature := hs.imp (hmono _) (hmono _)

theorem Worker.Behind.mono (hw : w.Behind tx k db)
    (hmono : ∀ t, db.has t tx.signature = true → db'.has t tx.signature = true) : w.Behind tx k db' where
  found h := hmono _ (hw.found h)
  seen h := (hw.seen h).mono hmono
  checks hk h := hmono _ (hw.checks hk h)
  stops := hw.stops
  knows := hw.knows

theorem Worker.Behind.loop (hseen : k < w.index → db.Seen tx.signature) : (w.loop tx).Behind tx k db := by
  have hindex := @loop_index tx w
  obtain ⟨hpc, -⟩ | ⟨hpc | hpc, -⟩ := @loop_pc tx w <;> refine ⟨?_, ?_, ?_, ?_, ?_⟩ <;> simp_all

/-- A worker that goes on with the same event. -/
theorem Worker.Behind.goto {pc : Pc} (hw : w.Behind tx k db)
    (hfound : pc = .findCompliance true → db.has .mintOperation tx.signature = true)
    (hupdate : pc = .update → w.index = k → db.Seen tx.signature)
    (hchecks : k < w.index → pc = .findCompliance false → db.has .complianceEvent tx.signature = true)
    (hstops : k < w.index → pc ∉ [.findStablecoin, .insert, .update]) (hknows : pc ≠ .createStablecoin) :
    (w.goto pc).Behind tx k db := by
  refine ⟨hfound, ?_, hchecks, hstops, hknows⟩
  intro hat
  obtain hlt | ⟨heq, hpc⟩ := hat
  · exact hw.seen (.inl hlt)
  · exact hupdate hpc heq

/-- Passing the event `k` takes a row that is seen. -/
theorem Worker.Behind.nextEvent (hseen : k ≤ w.index → db.Seen tx.signature) : (w.nextEvent tx).Behind tx k db :=
  .loop fun h => hseen (Nat.le_of_lt_succ h)

/-! ### One call -/

/-- A new row, if `k` is not behind it. -/
theorem Db.UpTo.insert (hdb : db.UpTo tx k) {e : ParsedEvent} {r : Record} {i slot : Nat} (hi : i ≤ k)
    (he : tx.events[i]? = some e) (hr : e.record = some r) (hnew : db.has r.table tx.signature = false) :
    Db.UpTo tx k { db with rows := db.rows ++ [⟨tx.signature, slot, r⟩] } := by
  refine ⟨?_, ?_, hdb.known, hdb.fits⟩
  · rw [Db.of_append rfl]
    intro row hrow
    obtain hrow | hrow := List.mem_append.1 hrow
    · exact hdb.rows row hrow
    · obtain rfl := List.mem_singleton.1 hrow
      exact ⟨i, hi, e, he, hr⟩
  · rw [Db.of_append rfl]
    refine List.pairwise_append.2 ⟨hdb.tables, List.pairwise_singleton .., ?_⟩
    intro row hrow row' hrow' ht
    obtain rfl := List.mem_singleton.1 hrow'
    rw [Db.has_iff.2 ⟨row, hrow, ht⟩] at hnew
    contradiction

theorem Db.UpTo.setStablecoin (hdb : db.UpTo tx k) {mint : Text} {c : Stablecoin}
    (hfits : ∀ op, c.total op < columnBound) : (db.setStablecoin mint c).UpTo tx k := by
  refine ⟨hdb.rows, hdb.tables, hdb.known.setStablecoin, ?_⟩
  intro op mint' c' hc'
  by_cases hm : mint' = mint
  · rw [hm, Db.setStablecoin_self] at hc'
    obtain rfl := Option.some.inj hc'
    exact hfits op
  · rw [Db.setStablecoin_of_ne hm] at hc'
    exact hdb.fits op mint' c' hc'

/-- **Step.** -/
theorem Called.behind (hx : Called tx st w st' w') (hends : tx.Ends k) (hw : w.Behind tx k st.db)
    (hdb : st.db.UpTo tx k) : w'.Behind tx k st'.db ∧ st'.db.UpTo tx k ∧
      ∀ t, st.db.has t tx.signature = true → st'.db.has t tx.signature = true := by
  cases hx with
  | knownMint hpc | knownBurn hpc | known hpc | refused hpc | overflown hpc =>
    refine ⟨hw.goto ?_ ?_ ?_ ?_ ?_, hdb, fun _ h => h⟩ <;> simp
  | unknown hpc h => exact ⟨.loop fun hk => hw.seen (.inl hk), hdb, fun _ h => h⟩
  | findMint hpc =>
    refine ⟨hw.goto ?_ ?_ ?_ ?_ ?_, hdb, fun _ h => h⟩
    · exact fun h => Pc.findCompliance.inj h
    · simp
    · intro hk h
      have hmint : st.db.has .mintOperation tx.signature = false := Pc.findCompliance.inj h
      obtain hseen | hseen := hw.seen (.inl hk)
      · rw [hmint] at hseen
        contradiction
      · exact hseen
    · simp
    · simp
  | @skipped found hpc h =>
    refine ⟨.nextEvent fun _ => ?_, hdb, fun _ h => h⟩
    obtain rfl | h := Bool.or_eq_true_iff.1 h
    · exact .inl (hw.found hpc)
    · exact .inr h
  | @notFound found hpc h =>
    obtain ⟨rfl, hcompliance⟩ := Bool.or_eq_false_iff.1 h
    refine ⟨hw.goto (by simp) (by simp) (by simp) ?_ (by simp), hdb, fun _ h => h⟩
    intro hk
    rw [hw.checks hk hpc] at hcompliance
    contradiction
  | stablecoin hpc he hc =>
    refine ⟨hw.goto (by simp) (by simp) (by simp) ?_ (by simp), hdb, fun _ h => h⟩
    intro hk
    exact absurd (by simp [hpc]) (hw.stops hk)
  | noStablecoin hpc he hc =>
    have hsome := hdb.known _ (List.mem_of_getElem? he)
    rw [hc] at hsome
    contradiction
  | createStablecoin hpc => exact absurd hpc hw.knows
  | unhandled hpc he hhandled =>
    refine ⟨.nextEvent fun hk => ?_, hdb, fun _ h => h⟩
    obtain hk | rfl := Nat.lt_or_eq_of_le hk
    · exact absurd (by simp [hpc]) (hw.stops hk)
    · obtain ⟨r, hr, -⟩ := hends _ he
      exact absurd (ParsedEvent.handled_of_record hr) hhandled
  | @inserted e r st' w' hpc he hr hnew hst hw' =>
    have hi : w.index ≤ k := by
      refine not_lt.1 fun hk => ?_
      exact absurd (by simp [hpc]) (hw.stops hk)
    have hmono : ∀ t, st.db.has t tx.signature = true → st'.db.has t tx.signature = true := by
      intro t h
      rw [hst]
      rw [Db.has_append rfl, h, Bool.true_or]
    have hseen : w.index = k → st'.db.Seen tx.signature := by
      intro heq
      obtain ⟨r', hr', ht⟩ := hends e (heq ▸ he)
      rw [hr] at hr'
      obtain rfl := Option.some.inj hr'
      refine .of_row (Db.has_iff.2 ⟨⟨tx.signature, w.slot, r⟩, ?_, rfl⟩) ht
      rw [hst]
      simp [Db.of]
    refine ⟨?_, ?_, hmono⟩
    · rw [hw']
      split_ifs
      · refine (hw.mono hmono).goto (by simp) (fun _ => hseen) (by simp) ?_ (by simp)
        intro hk
        omega
      · exact .nextEvent fun hk => hseen (Nat.le_antisymm hi hk)
    · rw [hst]
      exact hdb.insert hi he hr hnew
  | @updated e c c' st' hpc he hc hc' hst =>
    have hmono : ∀ t, st.db.has t tx.signature = true → st'.db.has t tx.signature = true := by
      intro t h
      rw [hst]
      exact h
    refine ⟨.nextEvent fun hk => ?_, ?_, hmono⟩
    · refine Db.Seen.mono hmono (hw.seen ?_)
      obtain hk | rfl := Nat.lt_or_eq_of_le hk
      · exact .inl hk
      · exact .inr ⟨rfl, hpc⟩
    · rw [hst]
      exact hdb.setStablecoin (ParsedEvent.apply_fits hc' fun op => hdb.fits op _ c hc)
  | @indexerState st' hpc hst =>
    have hmono : ∀ t, st.db.has t tx.signature = true → st'.db.has t tx.signature = true := by
      intro t h
      rw [hst]
      exact h
    refine ⟨(hw.mono hmono).goto (by simp) (by simp) (by simp) (by simp) (by simp), ?_, hmono⟩
    rw [hst]
    exact ⟨hdb.rows, hdb.tables, hdb.known, hdb.fits⟩
  | stray hpc hevent he =>
    exact ⟨hw.goto (by simp) (by simp) (by simp) (by simp) (by simp), hdb, fun _ h => h⟩

/-! ### Runs -/

/-- **Run.** -/
theorem behind_of_run (hfresh : db₀.of tx.signature = []) (hknown : tx.Known db₀)
    (hfits : ∀ op mint c, db₀.stablecoins mint = some c → c.total op < columnBound) (hends : tx.Ends k)
    (r : (indexing tx db₀).Run h s) : s.store.db.UpTo tx k ∧ ∀ w ∈ s.workers, w.Behind tx k s.store.db := by
  refine r.invariant (I := fun _ s => s.store.db.UpTo tx k ∧ ∀ w ∈ s.workers, w.Behind tx k s.store.db) ?_ ?_
  · intro s ⟨hdb, hworkers⟩
    rw [hdb, hworkers]
    refine ⟨⟨?_, ?_, hknown, hfits⟩, fun w hw => absurd hw List.not_mem_nil⟩
    · rw [hfresh]
      intro row hrow
      contradiction
    · rw [hfresh]
      exact .nil
  · intro h s label s' _ ⟨hdb, hworkers⟩ hstep
    cases hstep with
    | start path slot =>
      refine ⟨hdb, ?_⟩
      intro w hw
      obtain hw | hw := List.mem_append.1 hw
      · exact hworkers w hw
      · obtain rfl := List.mem_singleton.1 hw
        cases path with
        | websocket => exact .loop fun hk => absurd hk (Nat.not_lt_zero k)
        | poller => refine ⟨?_, ?_, ?_, ?_, ?_⟩ <;> simp [Worker.start]
    | @step i w hw hpc =>
      obtain ⟨hw', hdb', hmono⟩ := (advance_called hpc).behind hends (hworkers w (List.mem_of_getElem? hw)) hdb
      refine ⟨hdb', ?_⟩
      intro v hv
      obtain hv | rfl := List.mem_or_eq_of_mem_set hv
      · exact (hworkers v hv).mono hmono
      · exact hw'

/-- No order of the calls counts what is not countable. -/
theorem Counted.countable (hc : Counted tx db₀ s.store.db) (hfresh : db₀.of tx.signature = [])
    (hknown : tx.Known db₀) (hfits : ∀ op mint c, db₀.stablecoins mint = some c → c.total op < columnBound)
    (r : (indexing tx db₀).Run h s) : Countable tx db₀ := by
  have hrecorded : ∀ e ∈ tx.events, ∃ row ∈ s.store.db.of tx.signature, e.record = some row.record := by
    intro e he
    obtain ⟨row, hrow, hr⟩ := List.mem_map.1 (hc.rows.mem_iff.2 (List.mem_map_of_mem (f := ParsedEvent.record) he))
    exact ⟨row, hrow, hr.symm⟩
  have hdistinct : ∀ {i j : Nat} {e e' : ParsedEvent} {x x' : Record}, i < j → tx.events[i]? = some e →
      tx.events[j]? = some e' → e.record = some x → e'.record = some x' → x.table ≠ x'.table := by
    intro i j e e' x x' hij he he' hr hr' ht
    have hends : tx.Ends tx.events.length := fun e he => absurd he (by simp)
    have htables := (behind_of_run hfresh hknown hfits hends r).1.tables
    have hpairs : (tx.events.map ParsedEvent.record).Pairwise fun a b => a.map Record.table ≠ b.map Record.table := by
      refine (hc.rows.pairwise_iff fun h => h.symm).1 (List.pairwise_map.2 (htables.imp ?_))
      intro row row' hne heq
      exact hne (Option.some.inj heq)
    obtain ⟨hi, rfl⟩ := List.getElem?_eq_some_iff.1 he
    obtain ⟨hj, rfl⟩ := List.getElem?_eq_some_iff.1 he'
    have hne := List.pairwise_iff_getElem.1 (List.pairwise_map.1 hpairs) i j hi hj hij
    rw [hr, hr'] at hne
    exact hne (congrArg some ht)
  have hlast : ∀ {i : Nat} {e : ParsedEvent}, tx.events[i]? = some e → e.name ≠ .tokensBurned →
      tx.events.length ≤ i + 1 := by
    intro i e he hname
    obtain ⟨row, -, hr⟩ := hrecorded e (List.mem_of_getElem? he)
    have hends : tx.Ends i := by
      intro e' he'
      rw [he] at he'
      obtain rfl := Option.some.inj he'
      exact ⟨row.record, hr, fun ht => hname ((ParsedEvent.table_burn_iff hr).1 ht)⟩
    by_contra hlt
    -- the row of the next event is one of an event up to `i`
    have he₁ := List.getElem?_eq_getElem (not_le.1 hlt)
    obtain ⟨row₁, hrow₁, hr₁⟩ := hrecorded _ (List.mem_of_getElem? he₁)
    obtain ⟨j, hj, e', he', hr'⟩ := (behind_of_run hfresh hknown hfits hends r).1.rows row₁ hrow₁
    exact hdistinct (Nat.lt_succ_of_le hj) he' he₁ hr' hr₁ rfl
  have hburns : ∀ {i j : Nat} {e e' : ParsedEvent}, i < j → tx.events[i]? = some e → tx.events[j]? = some e' →
      e.name = .tokensBurned → e'.name ≠ .tokensBurned := by
    intro i j e e' hij he he' hname hname'
    obtain ⟨row, -, hr⟩ := hrecorded e (List.mem_of_getElem? he)
    obtain ⟨row', -, hr'⟩ := hrecorded e' (List.mem_of_getElem? he')
    exact hdistinct hij he he' hr hr' (((ParsedEvent.table_burn_iff hr).2 hname).trans
      ((ParsedEvent.table_burn_iff hr').2 hname').symm)
  refine ⟨?_, ?_, ?_⟩
  · match hevents : tx.events with
    | [] | [_] => trivial
    | [e, e'] =>
      rw [hevents] at hlast hburns
      have hname : e.name = .tokensBurned := by
        by_contra hname
        exact absurd (@hlast 0 e rfl hname) (by simp)
      exact ⟨hname, @hburns 0 1 e e' Nat.zero_lt_one rfl rfl hname⟩
    | e :: e' :: _ :: rest =>
      rw [hevents] at hlast hburns
      have hname : e.name = .tokensBurned := by
        by_contra hname
        exact absurd (@hlast 0 e rfl hname) (by simp)
      exact absurd (@hlast 1 e' rfl (@hburns 0 1 e e' Nat.zero_lt_one rfl rfl hname)) (by simp)
  · intro e he
    obtain ⟨row, -, hr⟩ := hrecorded e he
    rw [hr, Option.isSome_some]
  · intro op mint c hcoin
    obtain ⟨c', hc', htotal⟩ := hc.totals op mint c hcoin
    have hends : tx.Ends tx.events.length := fun e he => absurd he (by simp)
    have hfit := (behind_of_run hfresh hknown hfits hends r).1.fits op mint c' hc'
    omega

/-- **Each event once.** After any run in which the handler and the poller processed a transaction, and are done
with it, it is counted exactly when it was countable. -/
theorem counted_iff (hfresh : db₀.of tx.signature = []) (hknown : tx.Known db₀)
    (hfits : ∀ op mint c, db₀.stablecoins mint = some c → c.total op < columnBound)
    (r : (indexing tx db₀).Run h s) (hworked : s.workers ≠ []) (hdone : ∀ w ∈ s.workers, w.pc = .done) :
    Counted tx db₀ s.store.db ↔ Countable tx db₀ := by
  constructor
  · exact fun hc => hc.countable hfresh hknown hfits r
  · intro hc
    obtain ⟨n, hs⟩ := Counting.of_run hfresh hknown hc r
    exact hs.counted hworked hdone

/-! ### Samples -/

def sampleMint : Text := List.replicate 43 'A'

def sampleStablecoin : Stablecoin := ⟨"USD".toList, "USD".toList, 6, ParsedEvent.unknown, false, 5, 0⟩

/-- A database with one stablecoin and no rows. -/
def sampleDb : Db := Db.setStablecoin ⟨fun _ => none, [], none⟩ sampleMint sampleStablecoin

def sampleLine (text : String) : Text := text.toList ++ " mint: ".toList ++ sampleMint

theorem sampleDb_known (hmint : tx.events.all fun e => e.mintAddress = sampleMint) : tx.Known sampleDb := by
  intro e he
  rw [of_decide_eq_true (List.all_eq_true.1 hmint e he)]
  exact congrArg Option.isSome Db.setStablecoin_self

theorem sampleDb_stablecoin {mint : Text} {c : Stablecoin} (hc : sampleDb.stablecoins mint = some c) :
    mint = sampleMint ∧ c = sampleStablecoin := by
  by_cases hm : mint = sampleMint
  · subst hm
    exact ⟨rfl, (Option.some.inj (Db.setStablecoin_self.symm.trans hc)).symm⟩
  · have hnone : sampleDb.stablecoins mint = none := Db.setStablecoin_of_ne hm
    rw [hnone] at hc
    contradiction

theorem sampleDb_fits (op : Op) (mint : Text) (c : Stablecoin) (hc : sampleDb.stablecoins mint = some c) :
    c.total op < columnBound := by
  obtain ⟨-, rfl⟩ := sampleDb_stablecoin hc
  cases op <;> decide

def sampleState : IndexerState := ⟨⟨sampleDb, 0, 0⟩, []⟩

theorem sampleState_run {labels : List IndexerLabel} (hs : labels.foldlM (IndexerState.next tx) sampleState = some s) :
    (indexing tx sampleDb).Run labels.reverse s := by
  have r := Lts.Run.of_foldlM (L := indexing tx sampleDb) (fun _ _ _ => IndexerState.next_step) hs (.start ⟨rfl, rfl⟩)
  rwa [List.append_nil] at r

def sampleTx : Transaction := .ofLogs "signature".toList [sampleLine "Program log: TokensMinted"]

/-- The handler and the poller make their calls in turn. -/
def sampleLabels : List IndexerLabel :=
  [.start .websocket 9, .start .poller 9] ++ List.flatten (List.replicate 5 [.step 1, .step 0]) ++
    [.step 1, .step 0, .step 1]

theorem counted_iff_sample :
    ∃ h s, (indexing sampleTx sampleDb).Run h s ∧ s.workers.length = 2 ∧ Counted sampleTx sampleDb s.store.db := by
  have hrun : (sampleLabels.foldlM (IndexerState.next sampleTx) sampleState).any
      fun s => s.workers.length = 2 ∧ s.workers.all fun w => w.pc = .done := by decide +kernel
  obtain ⟨s, hs, hdone⟩ := (Option.any_eq_true _ _).1 hrun
  obtain ⟨hlength, hdone⟩ := of_decide_eq_true hdone
  have hne : s.workers ≠ [] := by
    intro hnil
    rw [hnil] at hlength
    contradiction
  have hcountable : Countable sampleTx sampleDb := by
    have hmoved : sampleTx.events.all fun e => e.amount = some 0 := by decide +kernel
    refine ⟨?_, ?_, ?_⟩
    · have hone : sampleTx.events.length = 1 := by decide +kernel
      obtain ⟨e, he⟩ := List.length_eq_one_iff.1 hone
      rw [he]
      trivial
    · have hall : sampleTx.events.all fun e => e.record.isSome := by decide +kernel
      exact List.all_eq_true.1 hall
    · intro op mint c hc
      have hzero : movedBy op mint sampleTx.events = 0 := by
        refine List.sum_eq_zero_iff_forall_eq_nat.2 ?_
        intro x hx
        obtain ⟨e, he, rfl⟩ := List.mem_map.1 hx
        rw [ParsedEvent.moved, of_decide_eq_true (List.all_eq_true.1 hmoved e he)]
        exact ite_self 0
      rw [hzero]
      exact sampleDb_fits op mint c hc
  refine ⟨_, s, sampleState_run hs, hlength, ?_⟩
  exact (counted_iff rfl (sampleDb_known (by decide +kernel)) sampleDb_fits (sampleState_run hs) hne fun w hw =>
    of_decide_eq_true (List.all_eq_true.1 hdone w hw)).2 hcountable

/-- A transaction that mints twice. -/
def sampleTwice : Transaction :=
  .ofLogs "signature".toList [sampleLine "Program log: TokensMinted", sampleLine "Program log: TokensMinted"]

def sampleCalls : List IndexerLabel := .start .websocket 9 :: List.replicate 8 (.step 0)

/-- The second event finds the row of the first. -/
theorem second_event_dropped :
    sampleTwice.Known sampleDb ∧ sampleTwice.events.length = 2 ∧ ∃ h s, (indexing sampleTwice sampleDb).Run h s ∧
      s.workers ≠ [] ∧ (∀ w ∈ s.workers, w.pc = .done) ∧ (s.store.db.of sampleTwice.signature).length = 1 ∧
      ¬Counted sampleTwice sampleDb s.store.db := by
  have hrun : (sampleCalls.foldlM (IndexerState.next sampleTwice) sampleState).any
      fun s => s.workers.length = 1 ∧ (s.workers.all fun w => w.pc = .done) ∧
        (s.store.db.of sampleTwice.signature).length = 1 := by decide +kernel
  have htwo : sampleTwice.events.length = 2 := by decide +kernel
  obtain ⟨s, hs, hdone⟩ := (Option.any_eq_true _ _).1 hrun
  obtain ⟨hlength, hdone, hrows⟩ := of_decide_eq_true hdone
  refine ⟨sampleDb_known (by decide +kernel), htwo, _, s, sampleState_run hs, ?_, ?_, hrows, ?_⟩
  · intro hnil
    rw [hnil] at hlength
    contradiction
  · exact fun w hw => of_decide_eq_true (List.all_eq_true.1 hdone w hw)
  · intro hc
    have heq := hc.rows.length_eq
    rw [List.length_map, List.length_map, hrows, htwo] at heq
    contradiction

end ThawGate.Backend
