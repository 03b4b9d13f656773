import ThawGate.Backend.Indexer

/-!
# What a call of the indexer does

`Called` lists the calls, each with what it found and what it left, and `advance_called` says that these are all.
The invariants of the indexer are proved by its cases.
-/

namespace ThawGate.Backend

open Function
open Logs (Text)

section called

variable (tx : Transaction) (st : Store) (w : Worker)

inductive Called : Store → Worker → Prop
  | knownMint (hpc : w.pc = .knownMint) :
    Called st (w.goto (.knownBurn (st.db.has .mintOperation tx.signature)))
  | knownBurn {known : Bool} (hpc : w.pc = .knownBurn known) :
    Called st (w.goto (.knownCompliance (known || st.db.has .burnOperation tx.signature)))
  | known {known : Bool} (hpc : w.pc = .knownCompliance known)
    (h : (known || st.db.has .complianceEvent tx.signature) = true) : Called st (w.goto .done)
  | unknown {known : Bool} (hpc : w.pc = .knownCompliance known)
    (h : (known || st.db.has .complianceEvent tx.signature) = false) : Called st (w.loop tx)
  | findMint (hpc : w.pc = .findMint) : Called st (w.goto (.findCompliance (st.db.has .mintOperation tx.signature)))
  /-- The signature was processed before. -/
  | skipped {found : Bool} (hpc : w.pc = .findCompliance found)
    (h : (found || st.db.has .complianceEvent tx.signature) = true) : Called st (w.nextEvent tx)
  | notFound {found : Bool} (hpc : w.pc = .findCompliance found)
    (h : (found || st.db.has .complianceEvent tx.signature) = false) : Called st (w.goto .findStablecoin)
  | stablecoin {e : ParsedEvent} (hpc : w.pc = .findStablecoin) (he : tx.events[w.index]? = some e)
    (hc : (st.db.stablecoins e.mintAddress).isSome) : Called st (w.goto .insert)
  | noStablecoin {e : ParsedEvent} {w' : Worker} (hpc : w.pc = .findStablecoin) (he : tx.events[w.index]? = some e)
    (hc : st.db.stablecoins e.mintAddress = none) (hw : w' = w.nextEvent tx ∨ w' = w.goto .createStablecoin) :
    Called st w'
  | createStablecoin {e : ParsedEvent} {st' : Store} {w' : Worker} (hpc : w.pc = .createStablecoin)
    (he : tx.events[w.index]? = some e) : Called st' w'
  | unhandled {e : ParsedEvent} (hpc : w.pc = .insert) (he : tx.events[w.index]? = some e) (hhandled : ¬e.handled) :
    Called st.count (w.nextEvent tx)
  /-- The amount cannot be read, or the table has a row with the signature. -/
  | refused {e : ParsedEvent} (hpc : w.pc = .insert) (he : tx.events[w.index]? = some e)
    (h : ∀ r, e.record = some r → st.db.has r.table tx.signature = true) : Called st (w.goto .done)
  | inserted {e : ParsedEvent} {r : Record} {st' : Store} {w' : Worker} (hpc : w.pc = .insert)
    (he : tx.events[w.index]? = some e) (hr : e.record = some r) (hnew : st.db.has r.table tx.signature = false)
    (hst : st'.db = { st.db with rows := st.db.rows ++ [⟨tx.signature, w.slot, r⟩] })
    (hw : w' = if e.updates then w.goto .update else w.nextEvent tx) : Called st' w'
  | updated {e : ParsedEvent} {c c' : Stablecoin} {st' : Store} (hpc : w.pc = .update)
    (he : tx.events[w.index]? = some e) (hc : st.db.stablecoins e.mintAddress = some c) (hc' : e.apply c = some c')
    (hst : st'.db = st.db.setStablecoin e.mintAddress c') : Called st' (w.nextEvent tx)
  | overflown {e : ParsedEvent} (hpc : w.pc = .update) (he : tx.events[w.index]? = some e)
    (h : ∀ c, st.db.stablecoins e.mintAddress = some c → e.apply c = none) : Called st (w.goto .done)
  | indexerState {st' : Store} (hpc : w.pc = .indexerState)
    (hst : st'.db = { st.db with indexerState := some (w.slot, tx.signature) }) : Called st' (w.goto .done)
  | stray {pc : Pc} (hpc : w.pc = pc) (hevent : pc ∈ [.findStablecoin, .createStablecoin, .insert, .update])
    (he : tx.events[w.index]? = none) : Called st (w.goto .done)

end called

variable {tx : Transaction} {st : Store} {w : Worker} {e : ParsedEvent}

theorem findStablecoin_called (hpc : w.pc = .findStablecoin) (he : tx.events[w.index]? = some e) :
    Called tx st w (findStablecoin tx st w e).1 (findStablecoin tx st w e).2 := by
  unfold findStablecoin
  cases hc : st.db.stablecoins e.mintAddress with
  | some c => exact .stablecoin hpc he (by rw [hc, Option.isSome_some])
  | none =>
    refine .noStablecoin hpc he hc ?_
    dsimp only
    split_ifs
    · exact .inl rfl
    · exact .inr rfl

theorem insertRow_called (hpc : w.pc = .insert) (he : tx.events[w.index]? = some e) :
    Called tx st w (insertRow tx st w e).1 (insertRow tx st w e).2 := by
  unfold insertRow
  by_cases hhandled : e.handled
  swap
  · rw [if_pos hhandled]
    exact .unhandled hpc he hhandled
  rw [if_neg (not_not.2 hhandled)]
  cases hr : e.record with
  | none => exact .refused hpc he (by simp [hr])
  | some r =>
    rw [Option.bind_some]
    cases hdb : st.db.create ⟨tx.signature, w.slot, r⟩ with
    | none =>
      refine .refused hpc he ?_
      intro r' hr'
      rw [hr] at hr'
      obtain rfl := Option.some.inj hr'
      unfold Db.create at hdb
      split_ifs at hdb with hhas
      exact hhas
    | some db =>
      obtain ⟨hnew, rfl⟩ := Db.create_eq_some.1 hdb
      dsimp only
      split_ifs with hupdates
      · exact .inserted hpc he hr hnew rfl (by rw [if_pos hupdates])
      · exact .inserted hpc he hr hnew rfl (by rw [if_neg hupdates])

theorem updateStablecoin_called (hpc : w.pc = .update) (he : tx.events[w.index]? = some e) :
    Called tx st w (updateStablecoin tx st w e).1 (updateStablecoin tx st w e).2 := by
  unfold updateStablecoin
  cases hdb : st.db.updateStablecoin e.mintAddress e.apply with
  | some db =>
    obtain ⟨c, c', hc, hc', rfl⟩ := Db.updateStablecoin_eq_some.1 hdb
    exact .updated hpc he hc hc' rfl
  | none =>
    refine .overflown hpc he ?_
    intro c hc
    cases hc' : e.apply c with
    | none => rfl
    | some c' =>
      rw [Db.updateStablecoin_eq_some.2 ⟨c, c', hc, hc', rfl⟩] at hdb
      contradiction

theorem advance_called (hpc : w.pc ≠ .done) : Called tx st w (advance tx st w).1 (advance tx st w).2 := by
  cases h : w.pc with
  | done => contradiction
  | knownMint =>
    simp only [advance, h]
    exact .knownMint h
  | knownBurn known =>
    simp only [advance, h]
    exact .knownBurn h
  | knownCompliance known =>
    simp only [advance, h]
    split_ifs with hknown
    · exact .known h hknown
    · exact .unknown h (Bool.eq_false_iff.2 hknown)
  | findMint =>
    simp only [advance, h]
    exact .findMint h
  | findCompliance found =>
    simp only [advance, h]
    split_ifs with hfound
    · exact .skipped h hfound
    · exact .notFound h (Bool.eq_false_iff.2 hfound)
  | indexerState =>
    simp only [advance, h]
    exact .indexerState h rfl
  | findStablecoin | createStablecoin | insert | update =>
    cases he : tx.events[w.index]? with
    | none =>
      simp only [advance, h, he]
      exact .stray h (by simp) he
    | some e =>
      simp only [advance, h, he]
      first
        | exact findStablecoin_called h he
        | exact insertRow_called h he
        | exact updateStablecoin_called h he
        | exact .createStablecoin h he

end ThawGate.Backend
