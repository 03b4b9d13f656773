import ThawGate.Backend.Calls

/-!
# A transaction processed by one worker

A worker alone comes to its end (`exists_processes`). It passes over the events without a mint and those of kinds that
are not written, and goes on behind a burn; behind the first other event it finds the row it wrote and skips the rest.
So this event alone changes a paused flag (`Processes.pausedFlag`).
-/

namespace ThawGate.Backend

open Logs (Text)

/-- A worker alone, from its next call to its end. -/
inductive Processes (tx : Transaction) : Store → Worker → Store → Prop
  | done {st : Store} {w : Worker} (hpc : w.pc = .done) : Processes tx st w st
  | step {st st' : Store} {w : Worker} (hpc : w.pc ≠ .done)
    (h : Processes tx (advance tx st w).1 (advance tx st w).2 st') : Processes tx st w st'

/-- The row of the mint says it is paused. -/
def Db.pausedFlag (db : Db) (mint : Text) : Bool := (db.stablecoins mint).any (·.paused)

/-- What the event makes of the mint's flag. -/
def ParsedEvent.pauses (e : ParsedEvent) (mint : Text) : Option Bool :=
  if e.mintAddress = mint then
    match e.name with
    | .tokenPaused => some true
    | .tokenUnpaused => some false
    | _ => none
  else none

namespace Db

def burnedTotal (db : Db) (mint : Text) : Nat := (db.stablecoins mint).elim 0 (·.totalBurned)

/-- Whether the burn can be read, and counted. -/
def canBurn (db : Db) (e : ParsedEvent) : Bool :=
  e.amount.any fun amount => db.burnedTotal e.mintAddress + amount < columnBound

/-- The first event that is not passed over: one of a mint, of a kind that is written, and no burn, unless it is the
second or cannot be counted. `burned` says that a burn came before. -/
def heard (db : Db) : Bool → List ParsedEvent → Option ParsedEvent
  | _, [] => none
  | burned, e :: events =>
    if e.mintAddress = ParsedEvent.unknown ∧ db.stablecoins ParsedEvent.unknown = none ∨ ¬e.handled then
      db.heard burned events
    else if e.name = .tokensBurned ∧ burned = false ∧ db.canBurn e then db.heard true events
    else some e

/-- The mint's flag behind the events. -/
def flagAfter (db : Db) (burned : Bool) (events : List ParsedEvent) (mint : Text) : Bool :=
  ((db.heard burned events).bind (·.pauses mint)).getD (db.pausedFlag mint)

variable {db db' : Db} {burned : Bool} {events : List ParsedEvent} {e : ParsedEvent}

theorem mem_of_heard (h : db.heard burned events = some e) : e ∈ events := by
  induction events generalizing burned with
  | nil => contradiction
  | cons e' events ih =>
    rw [heard] at h
    split_ifs at h
    · exact .tail _ (ih h)
    · exact .tail _ (ih h)
    · obtain rfl := Option.some.inj h
      exact .head _

theorem flagAfter_congr {mint : Text} (hflag : db'.pausedFlag mint = db.pausedFlag mint)
    (hheard : db'.heard burned events = db.heard burned events) :
    db'.flagAfter burned events mint = db.flagAfter burned events mint := by
  rw [flagAfter, flagAfter, hflag, hheard]

theorem heard_congr (hunknown : db'.stablecoins ParsedEvent.unknown = none ↔ db.stablecoins ParsedEvent.unknown = none)
    (hburned : burned = false → ∀ mint, db'.burnedTotal mint = db.burnedTotal mint) :
    db'.heard burned events = db.heard burned events := by
  induction events generalizing burned with
  | nil => rfl
  | cons e events ih =>
    have htrue : db'.heard true events = db.heard true events := ih nofun
    rw [heard, heard, ih hburned, htrue]
    cases burned with
    | false => simp only [hunknown, canBurn, hburned rfl]
    | true => simp only [hunknown, Bool.true_eq_false, false_and, and_false]

end Db

/-! ### Events and rows -/

namespace ParsedEvent

variable {e : ParsedEvent} {mint : Text}

/-- An event that changes a flag is written as a compliance event. -/
theorem pauses_eq_some {b : Bool} (h : e.pauses mint = some b) : e.updates = true ∧
    (∃ r, e.record = some r ∧ r.table = .complianceEvent) ∧ ∀ c, e.apply c = some { c with paused := b } := by
  unfold pauses at h
  split_ifs at h with hmint
  cases hname : e.name <;> simp only [hname, Option.some.injEq, reduceCtorEq] at h
  case tokenPaused | tokenUnpaused =>
    subst h
    exact ⟨by simp [updates, hname], ⟨_, by rw [record, hname], rfl⟩, by simp [apply, hname]⟩

theorem paused_apply {c c' : Stablecoin} (hc : e.apply c = some c') :
    c'.paused = (e.pauses e.mintAddress).getD c.paused := by
  unfold apply Stablecoin.mintedMore Stablecoin.burnedMore at hc
  unfold pauses
  cases hname : e.name <;> simp only [hname, Option.bind_eq_some_iff, Option.map_eq_some_iff, Option.some.injEq] at hc
  case tokensMinted | tokensBurned =>
    obtain ⟨_, -, _, -, rfl⟩ := hc
    simp
  all_goals
    subst hc
    simp

end ParsedEvent

namespace Db

variable {db : Db} {e : ParsedEvent} {c : Stablecoin} {mint : Text}

theorem pausedFlag_setStablecoin {c' : Stablecoin} (hc : db.stablecoins e.mintAddress = some c)
    (hc' : e.apply c = some c') :
    (db.setStablecoin e.mintAddress c').pausedFlag mint = (e.pauses mint).getD (db.pausedFlag mint) := by
  by_cases hmint : e.mintAddress = mint
  · subst hmint
    rw [pausedFlag, setStablecoin_self, pausedFlag, hc]
    exact ParsedEvent.paused_apply hc'
  · rw [pausedFlag, setStablecoin_of_ne (Ne.symm hmint), ParsedEvent.pauses, if_neg hmint]
    rfl

theorem apply_burn (hname : e.name = .tokensBurned) (hc : db.stablecoins e.mintAddress = some c) :
    (e.apply c).isSome = db.canBurn e := by
  rw [ParsedEvent.apply, hname, canBurn, burnedTotal, hc]
  cases e.amount with
  | none => rfl
  | some amount =>
    dsimp only [Option.bind_some, Stablecoin.burnedMore, increment, Option.elim_some, Option.any_some]
    split_ifs with hroom <;> simp [hroom]

/-- The database once the event's mint has a row. -/
def ensure (db : Db) (e : ParsedEvent) : Db :=
  if (db.stablecoins e.mintAddress).isSome then db else db.setStablecoin e.mintAddress e.newStablecoin

theorem ensure_has {table : Table} {signature : Text} : (db.ensure e).has table signature = db.has table signature := by
  unfold ensure
  split_ifs <;> rfl

theorem exists_ensure (db : Db) (e : ParsedEvent) : ∃ c, (db.ensure e).stablecoins e.mintAddress = some c := by
  unfold ensure
  split_ifs with h
  · exact Option.isSome_iff_exists.1 h
  · exact ⟨_, setStablecoin_self⟩

/-- A new row says what no row says. -/
theorem apply_ensure {α : Type} {f : Option Stablecoin → α} (hnew : f (some e.newStablecoin) = f none) (mint : Text) :
    f ((db.ensure e).stablecoins mint) = f (db.stablecoins mint) := by
  unfold ensure
  split_ifs with h
  · rfl
  · by_cases hmint : mint = e.mintAddress
    · rw [hmint, setStablecoin_self, Option.not_isSome_iff_eq_none.1 h]
      exact hnew
    · rw [setStablecoin_of_ne hmint]

theorem ensure_pausedFlag : (db.ensure e).pausedFlag mint = db.pausedFlag mint :=
  @apply_ensure db e Bool (Option.any Stablecoin.paused) rfl mint

theorem ensure_burnedTotal : (db.ensure e).burnedTotal mint = db.burnedTotal mint :=
  @apply_ensure db e Nat (·.elim 0 (·.totalBurned)) rfl mint

theorem setStablecoin_eq_none {mint' : Text} (hc : db.stablecoins mint = some c) {c' : Stablecoin} :
    (db.setStablecoin mint c').stablecoins mint' = none ↔ db.stablecoins mint' = none := by
  by_cases hmint : mint' = mint
  · rw [hmint, setStablecoin_self, hc]
    simp
  · rw [setStablecoin_of_ne hmint]

theorem ensure_eq_none (hmint : ¬(e.mintAddress = ParsedEvent.unknown ∧ db.stablecoins ParsedEvent.unknown = none)) :
    (db.ensure e).stablecoins ParsedEvent.unknown = none ↔ db.stablecoins ParsedEvent.unknown = none := by
  unfold ensure
  split_ifs with h
  · rfl
  · rw [setStablecoin_of_ne]
    rintro heq
    rw [← heq] at hmint h
    exact hmint ⟨rfl, Option.not_isSome_iff_eq_none.1 h⟩

end Db

section processes

variable {tx : Transaction} {st st' : Store} {w : Worker} {e : ParsedEvent} {burned : Bool} {mint : Text}

theorem Processes.next {st₁ : Store} {w₁ : Worker} (h : Processes tx st w st') (hpc : w.pc ≠ .done)
    (heq : advance tx st w = (st₁, w₁)) : Processes tx st₁ w₁ st' := by
  cases h with
  | done hdone => contradiction
  | step _ h => rwa [heq] at h

theorem Processes.invariant {I : Store → Worker → Prop} (h : Processes tx st w st')
    (hstep : ∀ st w, w.pc ≠ .done → I st w → I (advance tx st w).1 (advance tx st w).2) (hI : I st w) :
    ∃ w', I st' w' := by
  induction h with
  | done => exact ⟨_, hI⟩
  | step hpc _ ih => exact ih (hstep _ _ hpc hI)

theorem Processes.of_done (h : Processes tx st w st') (hpc : w.pc = .done) : st' = st := by
  cases h with
  | done => rfl
  | step hne => contradiction

/-! A worker alone comes to its end. -/

def Pc.rank : Pc → Nat
  | .knownMint => 10
  | .knownBurn _ => 9
  | .knownCompliance _ => 8
  | .findMint => 7
  | .findCompliance _ => 6
  | .findStablecoin => 5
  | .createStablecoin => 4
  | .insert => 3
  | .update => 2
  | .indexerState => 1
  | .done => 0

/-- The calls that are left, at most. -/
def Worker.rank (tx : Transaction) (w : Worker) : Nat := 8 * (tx.events.length - w.index) + w.pc.rank

theorem rank_goto {pc : Pc} (h : pc.rank < w.pc.rank) : (w.goto pc).rank tx < w.rank tx :=
  Nat.add_lt_add_left h _

theorem rank_nextEvent (hpc : 1 < w.pc.rank) : (w.nextEvent tx).rank tx < w.rank tx := by
  have hgoto (pc : Pc) : ({ w with index := w.index + 1 }.goto pc).rank tx =
      8 * (tx.events.length - (w.index + 1)) + pc.rank := rfl
  have hrank : w.rank tx = 8 * (tx.events.length - w.index) + w.pc.rank := rfl
  rw [Worker.nextEvent, Worker.loop]
  split_ifs with hindex
  · have hlt : w.index + 1 < tx.events.length := hindex
    rw [hgoto, hrank, show Pc.findMint.rank = 7 from rfl]
    omega
  · rw [hgoto, hrank, show Pc.indexerState.rank = 1 from rfl]
    omega
  · rw [hgoto, hrank, show Pc.done.rank = 0 from rfl]
    omega

theorem rank_loop (hpc : 7 < w.pc.rank) : (w.loop tx).rank tx < w.rank tx := by
  rw [Worker.loop]
  split_ifs
  · exact rank_goto hpc
  · exact rank_goto (Nat.lt_trans (by decide) hpc)
  · exact rank_goto (Nat.lt_trans (by decide) hpc)

theorem advance_rank (hpc : w.pc ≠ .done) : (advance tx st w).2.rank tx < w.rank tx := by
  have hgoto {pc pc' : Pc} (h : w.pc = pc) (hlt : pc'.rank < pc.rank) : (w.goto pc').rank tx < w.rank tx :=
    rank_goto (h ▸ hlt)
  have hnext {pc : Pc} (h : w.pc = pc) (hlt : 1 < pc.rank) : (w.nextEvent tx).rank tx < w.rank tx :=
    rank_nextEvent (h ▸ hlt)
  cases h : w.pc with
  | done => contradiction
  | knownMint | knownBurn _ | findMint | indexerState =>
    simp only [advance, h]
    exact hgoto h (by simp [Pc.rank])
  | knownCompliance known =>
    simp only [advance, h]
    split_ifs
    · exact hgoto h (by simp [Pc.rank])
    · exact rank_loop (by simp [h, Pc.rank])
  | findCompliance found =>
    simp only [advance, h]
    split_ifs
    · exact hnext h (by simp [Pc.rank])
    · exact hgoto h (by simp [Pc.rank])
  | findStablecoin | createStablecoin | insert | update =>
    cases he : tx.events[w.index]? with
    | none =>
      simp only [advance, h, he]
      exact hgoto h (by simp [Pc.rank])
    | some e =>
      simp only [advance, h, he, findStablecoin, createStablecoin, insertRow, updateStablecoin]
      repeat' split
      all_goals
        first
        | exact hnext h (by simp [Pc.rank])
        | exact hgoto h (by simp [Pc.rank])

theorem exists_processes (tx : Transaction) (st : Store) (w : Worker) : ∃ st', Processes tx st w st' := by
  induction hn : w.rank tx using Nat.strongRecOn generalizing st w with
  | ind n ih =>
    by_cases hpc : w.pc = .done
    · exact ⟨st, .done hpc⟩
    · obtain ⟨st', h⟩ := ih _ (hn ▸ advance_rank hpc) (advance tx st w).1 (advance tx st w).2 rfl
      exact ⟨st', .step hpc h⟩

/-! ### The rest is skipped -/

/-- The signature has a row that ends the processing. -/
def Db.Settled (db : Db) (signature : Text) : Prop :=
  (db.has .mintOperation signature || db.has .complianceEvent signature) = true

/-- The calls behind such a row: they write no more than the indexer's state. -/
def Worker.Skips (tx : Transaction) (db : Db) (w : Worker) : Prop :=
  match w.pc with
  | .findMint | .indexerState | .done => True
  | .findCompliance found => (found || db.has .complianceEvent tx.signature) = true
  | _ => False

theorem Worker.skips_loop (db : Db) : (w.loop tx).Skips tx db := by
  unfold loop
  split_ifs <;> trivial

theorem Processes.skipped (h : Processes tx st (w.loop tx) st') (hsettled : st.db.Settled tx.signature) :
    st'.db.stablecoins = st.db.stablecoins := by
  let I (st₁ : Store) (w₁ : Worker) : Prop :=
    w₁.Skips tx st₁.db ∧ st₁.db.Settled tx.signature ∧ st₁.db.stablecoins = st.db.stablecoins
  have hstep : ∀ st₁ w₁, w₁.pc ≠ .done → I st₁ w₁ → I (advance tx st₁ w₁).1 (advance tx st₁ w₁).2 := by
    rintro st₁ w₁ hdone ⟨hskips, hsettled, hsame⟩
    unfold Worker.Skips at hskips
    cases hpc : w₁.pc with
    | findMint =>
      simp only [advance, hpc]
      exact ⟨hsettled, hsettled, hsame⟩
    | findCompliance found =>
      rw [hpc] at hskips
      simp only [advance, hpc]
      rw [if_pos hskips]
      exact ⟨Worker.skips_loop _, hsettled, hsame⟩
    | indexerState =>
      simp only [advance, hpc]
      exact ⟨trivial, hsettled, hsame⟩
    | done => contradiction
    | _ =>
      rw [hpc] at hskips
      exact hskips.elim
  obtain ⟨w', -, -, hsame⟩ := h.invariant hstep ⟨Worker.skips_loop _, hsettled, rfl⟩
  exact hsame

/-! ### One event -/

/-- The signature has no row but that of a burn, if `burned`. -/
structure Db.Undecided (db : Db) (signature : Text) (burned : Bool) : Prop where
  mint : db.has .mintOperation signature = false
  compliance : db.has .complianceEvent signature = false
  burn : db.has .burnOperation signature = burned

theorem Processes.findMint (h : Processes tx st w st') (hpc : w.pc = .findMint)
    (hopen : st.db.Undecided tx.signature burned) : Processes tx st (w.goto .findStablecoin) st' := by
  have hfind : advance tx st w = (st, w.goto (.findCompliance false)) := by
    simp only [advance, hpc, hopen.mint]
  have hcompliance : advance tx st (w.goto (.findCompliance false)) = (st, w.goto .findStablecoin) := by
    simp only [advance, Worker.goto, hopen.compliance, Bool.or_false, Bool.false_eq_true, if_false]
  exact (h.next (by simp [hpc]) hfind).next (by simp [Worker.goto]) hcompliance

theorem Processes.passed (h : Processes tx st w st') (hpc : w.pc = .findStablecoin) (he : tx.events[w.index]? = some e)
    (hmint : e.mintAddress = ParsedEvent.unknown ∧ st.db.stablecoins ParsedEvent.unknown = none) :
    Processes tx st (w.nextEvent tx) st' := by
  have hc : st.db.stablecoins e.mintAddress = none := hmint.1 ▸ hmint.2
  refine h.next (by simp [hpc]) ?_
  simp only [advance, hpc, he, findStablecoin, hc, if_pos hmint.1]

/-- The event's mint has a row, or gets one. -/
theorem Processes.ensured (h : Processes tx st w st') (hpc : w.pc = .findStablecoin) (he : tx.events[w.index]? = some e)
    (hmint : ¬(e.mintAddress = ParsedEvent.unknown ∧ st.db.stablecoins ParsedEvent.unknown = none)) :
    ∃ st₁, st₁.db = st.db.ensure e ∧ Processes tx st₁ (w.goto .insert) st' := by
  unfold Db.ensure
  cases hc : st.db.stablecoins e.mintAddress with
  | some c =>
    have hfound : advance tx st w = (st, w.goto .insert) := by
      simp only [advance, hpc, he, findStablecoin, hc]
    exact ⟨st, rfl, h.next (by simp [hpc]) hfound⟩
  | none =>
    have hname : e.mintAddress ≠ ParsedEvent.unknown := fun heq => hmint ⟨heq, heq ▸ hc⟩
    have hnone : advance tx st w = (st, w.goto .createStablecoin) := by
      simp only [advance, hpc, he, findStablecoin, hc, if_neg hname]
    have hmade : advance tx st (w.goto .createStablecoin) =
        (st.setDb (st.db.setStablecoin e.mintAddress e.newStablecoin), w.goto .insert) := by
      simp only [advance, Worker.goto, he, createStablecoin, Db.createStablecoin, hc]
    exact ⟨_, rfl, (h.next (by simp [hpc]) hnone).next (by simp [Worker.goto]) hmade⟩

theorem Processes.unhandled (h : Processes tx st w st') (hpc : w.pc = .insert) (he : tx.events[w.index]? = some e)
    (hhandled : ¬e.handled) : Processes tx st.count (w.nextEvent tx) st' := by
  refine h.next (by simp [hpc]) ?_
  simp only [advance, hpc, he, insertRow, if_pos hhandled]

/-- The row is refused, or written. -/
theorem Processes.insert (h : Processes tx st w st') (hpc : w.pc = .insert) (he : tx.events[w.index]? = some e)
    (hhandled : e.handled) :
    (st' = st ∧ ∀ r, e.record = some r → st.db.has r.table tx.signature = true) ∨
    ∃ r st₁, e.record = some r ∧ st.db.has r.table tx.signature = false ∧
      st₁.db = { st.db with rows := st.db.rows ++ [⟨tx.signature, w.slot, r⟩] } ∧
      Processes tx st₁ (if e.updates then w.goto .update else w.nextEvent tx) st' := by
  cases hr : e.record with
  | none =>
    have hrefused : advance tx st w = (st, w.goto .done) := by
      simp only [advance, hpc, he, insertRow, if_neg (not_not.2 hhandled), hr, Option.bind_none]
    exact .inl ⟨(h.next (by simp [hpc]) hrefused).of_done rfl, by simp⟩
  | some r =>
    by_cases hhas : st.db.has r.table tx.signature = true
    · have hcreate : st.db.create ⟨tx.signature, w.slot, r⟩ = none := if_pos hhas
      have hrefused : advance tx st w = (st, w.goto .done) := by
        simp only [advance, hpc, he, insertRow, if_neg (not_not.2 hhandled), hr, Option.bind_some, hcreate]
      refine .inl ⟨(h.next (by simp [hpc]) hrefused).of_done rfl, ?_⟩
      rintro _ ⟨⟩
      exact hhas
    · have hcreate : st.db.create ⟨tx.signature, w.slot, r⟩ =
          some { st.db with rows := st.db.rows ++ [⟨tx.signature, w.slot, r⟩] } := if_neg hhas
      have hnew := Bool.eq_false_iff.2 hhas
      by_cases hupdates : e.updates
      · have hinserted : advance tx st w =
            (st.setDb { st.db with rows := st.db.rows ++ [⟨tx.signature, w.slot, r⟩] }, w.goto .update) := by
          simp only [advance, hpc, he, insertRow, if_neg (not_not.2 hhandled), hr, Option.bind_some, hcreate,
            if_pos hupdates]
        exact .inr ⟨r, _, rfl, hnew, rfl, by rw [if_pos hupdates]; exact h.next (by simp [hpc]) hinserted⟩
      · have hinserted : advance tx st w =
            ((st.setDb { st.db with rows := st.db.rows ++ [⟨tx.signature, w.slot, r⟩] }).count, w.nextEvent tx) := by
          simp only [advance, hpc, he, insertRow, if_neg (not_not.2 hhandled), hr, Option.bind_some, hcreate,
            if_neg hupdates]
        exact .inr ⟨r, _, rfl, hnew, rfl, by rw [if_neg hupdates]; exact h.next (by simp [hpc]) hinserted⟩

theorem Processes.update (h : Processes tx st w st') (hpc : w.pc = .update) (he : tx.events[w.index]? = some e)
    {c : Stablecoin} (hc : st.db.stablecoins e.mintAddress = some c) :
    (st' = st ∧ e.apply c = none) ∨
    ∃ c' st₁, e.apply c = some c' ∧ st₁.db = st.db.setStablecoin e.mintAddress c' ∧
      Processes tx st₁ (w.nextEvent tx) st' := by
  cases hc' : e.apply c with
  | none =>
    have hnone : st.db.updateStablecoin e.mintAddress e.apply = none := by
      simp [Db.updateStablecoin, hc, hc']
    have hoverflown : advance tx st w = (st, w.goto .done) := by
      simp only [advance, hpc, he, updateStablecoin, hnone]
    exact .inl ⟨(h.next (by simp [hpc]) hoverflown).of_done rfl, rfl⟩
  | some c' =>
    have hsome := Db.updateStablecoin_eq_some.2 ⟨c, c', hc, hc', rfl⟩
    have hupdated : advance tx st w = ((st.setDb (st.db.setStablecoin e.mintAddress c')).count, w.nextEvent tx) := by
      simp only [advance, hpc, he, updateStablecoin, hsome]
    exact .inr ⟨c', _, rfl, rfl, h.next (by simp [hpc]) hupdated⟩

/-- An event that is not passed over: what it says of the mint's flag is done, or it says nothing. -/
theorem Processes.decided (h : Processes tx st w st') (hpc : w.pc = .insert) (he : tx.events[w.index]? = some e)
    (hopen : st.db.Undecided tx.signature burned) (hhandled : e.handled)
    (hburn : ¬(e.name = .tokensBurned ∧ burned = false ∧ st.db.canBurn e = true)) {c : Stablecoin}
    (hc : st.db.stablecoins e.mintAddress = some c) :
    st'.db.pausedFlag mint = (e.pauses mint).getD (st.db.pausedFlag mint) := by
  rcases h.insert hpc he hhandled with ⟨rfl, hrefused⟩ | ⟨r, st₁, hr, hnew, hst₁, h⟩
  · cases hp : e.pauses mint with
    | none => rfl
    | some b =>
      obtain ⟨-, ⟨r, hr, htable⟩, -⟩ := ParsedEvent.pauses_eq_some hp
      have hhas := hrefused r hr
      rw [htable, hopen.compliance] at hhas
      contradiction
  · have hcoins : st₁.db.stablecoins = st.db.stablecoins := by rw [hst₁]
    have hflag : st₁.db.pausedFlag mint = st.db.pausedFlag mint := by rw [Db.pausedFlag, hcoins, Db.pausedFlag]
    -- the row, unless it is a burn's, settles the signature
    have hsettled (hname : e.name ≠ .tokensBurned) : st₁.db.Settled tx.signature := by
      have htable : r.table ≠ .burnOperation := (ParsedEvent.table_burn_iff hr).not.2 hname
      rw [Db.Settled, hst₁, Db.has_append rfl, Db.has_append rfl]
      cases hrow : r.table with
      | burnOperation => contradiction
      | mintOperation => simp
      | complianceEvent => simp
    split_ifs at h with hupdates
    · rcases h.update rfl he (hcoins ▸ hc) with ⟨rfl, hoverflown⟩ | ⟨c', st₂, hc', hst₂, h⟩
      · cases hp : e.pauses mint with
        | none => exact hflag
        | some b =>
          obtain ⟨-, -, happly⟩ := ParsedEvent.pauses_eq_some hp
          rw [happly] at hoverflown
          contradiction
      · have hname : e.name ≠ .tokensBurned := by
          intro hname
          have hcan := Db.apply_burn hname hc
          rw [hc', Option.isSome_some] at hcan
          rw [(ParsedEvent.table_burn_iff hr).2 hname, hopen.burn] at hnew
          exact hburn ⟨hname, hnew, hcan.symm⟩
        have hsettled₂ : st₂.db.Settled tx.signature := by
          rw [hst₂]
          exact hsettled hname
        rw [Db.pausedFlag, h.skipped hsettled₂, ← Db.pausedFlag, hst₂,
          Db.pausedFlag_setStablecoin (hcoins ▸ hc) hc', hflag]
    · have hname : e.name ≠ .tokensBurned := by
        intro hname
        exact hupdates (by simp [ParsedEvent.updates, hname])
      cases hp : e.pauses mint with
      | none => rw [Db.pausedFlag, h.skipped (hsettled hname), ← Db.pausedFlag, hflag, Option.getD_none]
      | some b => exact absurd (ParsedEvent.pauses_eq_some hp).1 hupdates

/-- A burn that is counted; the next event is looked at. -/
theorem Processes.burn (h : Processes tx st w st') (hpc : w.pc = .insert) (he : tx.events[w.index]? = some e)
    (hopen : st.db.Undecided tx.signature false) (hname : e.name = .tokensBurned) (hcan : st.db.canBurn e = true)
    {c : Stablecoin} (hc : st.db.stablecoins e.mintAddress = some c) :
    ∃ c' st₁, e.apply c = some c' ∧ st₁.db.Undecided tx.signature true ∧
      st₁.db.stablecoins = (st.db.setStablecoin e.mintAddress c').stablecoins ∧
      Processes tx st₁ (w.nextEvent tx) st' := by
  have happly := Db.apply_burn hname hc
  rw [hcan] at happly
  obtain ⟨amount, hamount, -⟩ := (Option.any_eq_true _ _).1 hcan
  have hr : e.record = some (.burnOperation e.mintAddress ((e.field "burner").getD ParsedEvent.unknown) amount) := by
    simp [ParsedEvent.record, hname, hamount]
  rcases h.insert hpc he (ParsedEvent.handled_of_record hr) with ⟨-, hrefused⟩ | ⟨r, st₁, hr', -, hst₁, h⟩
  · have hhas := hrefused _ hr
    rw [Record.table, hopen.burn] at hhas
    contradiction
  · obtain rfl := Option.some.inj (hr.symm.trans hr')
    rw [if_pos (by simp [ParsedEvent.updates, hname])] at h
    have hcoins : st₁.db.stablecoins = st.db.stablecoins := by rw [hst₁]
    rcases h.update rfl he (hcoins ▸ hc) with ⟨-, hoverflown⟩ | ⟨c', st₂, hc', hst₂, h⟩
    · rw [hoverflown] at happly
      contradiction
    · refine ⟨c', st₂, hc', ?_, ?_, h⟩
      · have hhas (table : Table) : st₂.db.has table tx.signature =
            (st.db.has table tx.signature || decide (Table.burnOperation = table)) := by
          rw [hst₂]
          change st₁.db.has _ _ = _
          rw [hst₁, Db.has_append rfl]
          rfl
        exact ⟨by rw [hhas, hopen.mint]; rfl, by rw [hhas, hopen.compliance]; rfl, by rw [hhas, hopen.burn]; rfl⟩
      · rw [hst₂, Db.setStablecoin, Db.setStablecoin, hcoins]

/-! ### All events -/

theorem Processes.pausedFlag_loop {events : List ParsedEvent} (h : Processes tx st (w.loop tx) st')
    (hevents : tx.events.drop w.index = events) (hopen : st.db.Undecided tx.signature burned) :
    st'.db.pausedFlag mint = st.db.flagAfter burned events mint := by
  induction events generalizing st w burned with
  | nil =>
    have hindex : ¬w.index < tx.events.length := Nat.not_lt.2 (List.drop_eq_nil_iff.1 hevents)
    rw [Worker.loop, if_neg hindex] at h
    split_ifs at h with hwebsocket
    · have hstate : advance tx st (w.goto .indexerState) =
          (⟨{ st.db with indexerState := some (w.slot, tx.signature) }, st.eventsProcessed, w.slot⟩, w.goto .done) := rfl
      rw [(h.next (by simp [Worker.goto]) hstate).of_done rfl]
      rfl
    · rw [h.of_done rfl]
      rfl
  | cons e events ih =>
    have he : tx.events[w.index]? = some e := by
      rw [← List.head?_drop, hevents]
      rfl
    have hrest : tx.events.drop (w.index + 1) = events := by
      rw [← List.tail_drop, hevents]
      rfl
    rw [Worker.loop, if_pos (List.getElem?_eq_some_iff.1 he).1] at h
    have hfound := h.findMint rfl hopen
    rw [Db.flagAfter, Db.heard]
    by_cases hmint : e.mintAddress = ParsedEvent.unknown ∧ st.db.stablecoins ParsedEvent.unknown = none
    · rw [if_pos (.inl hmint)]
      exact ih (hfound.passed rfl he hmint) hrest hopen
    obtain ⟨st₁, hst₁, hensured⟩ := hfound.ensured rfl he hmint
    have hopen₁ : st₁.db.Undecided tx.signature burned := by
      rw [hst₁]
      exact ⟨Db.ensure_has.trans hopen.mint, Db.ensure_has.trans hopen.compliance, Db.ensure_has.trans hopen.burn⟩
    have hflag : st₁.db.pausedFlag mint = st.db.pausedFlag mint := by rw [hst₁, Db.ensure_pausedFlag]
    have hburned (mint : Text) : st₁.db.burnedTotal mint = st.db.burnedTotal mint := by rw [hst₁, Db.ensure_burnedTotal]
    have hunknown : st₁.db.stablecoins ParsedEvent.unknown = none ↔ st.db.stablecoins ParsedEvent.unknown = none := by
      rw [hst₁, Db.ensure_eq_none hmint]
    obtain ⟨c, hc⟩ : ∃ c, st₁.db.stablecoins e.mintAddress = some c := hst₁ ▸ Db.exists_ensure st.db e
    by_cases hhandled : e.handled
    swap
    · rw [if_pos (.inr hhandled), ← Db.flagAfter]
      refine (ih (hensured.unhandled rfl he hhandled) hrest hopen₁).trans ?_
      exact Db.flagAfter_congr hflag (Db.heard_congr hunknown fun _ => hburned)
    rw [if_neg (not_or.2 ⟨hmint, not_not.2 hhandled⟩)]
    have hcan : st₁.db.canBurn e = st.db.canBurn e := by rw [Db.canBurn, hburned, Db.canBurn]
    by_cases hburn : e.name = .tokensBurned ∧ burned = false ∧ st.db.canBurn e
    · rw [if_pos hburn, ← Db.flagAfter]
      obtain ⟨hname, rfl, hburn⟩ := hburn
      obtain ⟨c', st₂, hc', hopen₂, hcoins, hnext⟩ := hensured.burn rfl he hopen₁ hname (hcan.trans hburn) hc
      have hsilent : e.pauses mint = none := by simp [ParsedEvent.pauses, hname]
      have hflag₂ : st₂.db.pausedFlag mint = st.db.pausedFlag mint := by
        rw [Db.pausedFlag, hcoins, ← Db.pausedFlag, Db.pausedFlag_setStablecoin hc hc', hsilent, Option.getD_none, hflag]
      have hunknown₂ : st₂.db.stablecoins ParsedEvent.unknown = none ↔ st.db.stablecoins ParsedEvent.unknown = none := by
        rw [hcoins, Db.setStablecoin_eq_none hc, hunknown]
      exact (ih hnext hrest hopen₂).trans (Db.flagAfter_congr hflag₂ (Db.heard_congr hunknown₂ nofun))
    · rw [if_neg hburn, hensured.decided rfl he hopen₁ hhandled (by rwa [hcan]) hc, hflag]
      rfl

/-- The signature is new to the poller. -/
theorem Processes.start {path : Path} {slot : Nat} (h : Processes tx st (.start tx path slot) st')
    (hopen : st.db.Undecided tx.signature false) : ∃ w : Worker, w.index = 0 ∧ Processes tx st (w.loop tx) st' := by
  cases path with
  | websocket => exact ⟨⟨.websocket, slot, 0, .done⟩, rfl, h⟩
  | poller =>
    let w : Worker := ⟨.poller, slot, 0, .knownMint⟩
    have hmint : advance tx st w = (st, w.goto (.knownBurn false)) := by
      simp only [advance, w, hopen.mint]
    have hburn : advance tx st (w.goto (.knownBurn false)) = (st, w.goto (.knownCompliance false)) := by
      simp only [advance, Worker.goto, hopen.burn, Bool.or_false]
    have hcompliance : advance tx st (w.goto (.knownCompliance false)) =
        (st, (w.goto (.knownCompliance false)).loop tx) := by
      simp only [advance, Worker.goto, hopen.compliance, Bool.or_false, Bool.false_eq_true, if_false]
    refine ⟨w.goto (.knownCompliance false), rfl, ?_⟩
    have hknown := @Processes.next _ _ _ w _ _ h (by simp [w]) hmint
    exact (hknown.next (by simp [Worker.goto]) hburn).next (by simp [Worker.goto]) hcompliance

theorem Db.undecided_of_fresh {db : Db} {signature : Text} (h : db.of signature = []) : db.Undecided signature false := by
  have hnone (table : Table) : db.has table signature = false := by
    rw [Bool.eq_false_iff, Ne, Db.has_iff, h]
    simp
  exact ⟨hnone _, hnone _, hnone _⟩

/-- **What processing a transaction does to a flag**: what the event says that is heard. -/
theorem Processes.pausedFlag {path : Path} {slot : Nat} (h : Processes tx st (.start tx path slot) st')
    (hfresh : st.db.of tx.signature = []) : st'.db.pausedFlag mint = st.db.flagAfter false tx.events mint := by
  have hopen := Db.undecided_of_fresh hfresh
  obtain ⟨w, hindex, h⟩ := h.start hopen
  exact h.pausedFlag_loop (by rw [hindex, List.drop_zero]) hopen

end processes

end ThawGate.Backend
