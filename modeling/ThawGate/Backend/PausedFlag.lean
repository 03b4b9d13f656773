import Mathlib.Data.List.Infix
import ThawGate.Backend.Processing

/-!
# The paused flag

Anchor logs the instructions as `Instruction: Pause` and `Instruction: Unpause`. The indexer looks for `pause` and
`unpause`, in the case of the Rust names: it sees no pause, and it sees an unpause, like every other line with `pause`
in it, as a pause, since `unpause` contains that too. So a transaction may set the flag, and nothing ever clears it
(`Processes.pausedFlag_iff`). Where the lines name the mint and have no texts of other events, it sets the flag
exactly if a line says `pause` (`LoggedTransaction.Plain.heard_iff`), and `flag_mirrors_iff` gives the transactions
after which the flag is right.
-/

namespace ThawGate.Backend

open Logs (Text)

/-! ### What a transaction logs -/

/-- The other instructions of sss-token, as Anchor logs them. -/
def otherInstructions : List String :=
  ["Initialize", "MintTokens", "BurnTokens", "FreezeAccount", "ThawAccount", "UpdateMinter", "UpdateRoles",
    "TransferAuthority", "AddToBlacklist", "RemoveFromBlacklist", "Seize", "EnableTokenAcl", "SetReserveAttestor",
    "AttestReserves", "AddToAllowlistV3", "RemoveFromAllowlistV3", "ConfigureConfidentialAccount",
    "ApplyPendingBalance"]

inductive Instruction where
  | pause
  | unpause
  | other (name : String) (h : name ∈ otherInstructions)
  deriving DecidableEq

def Instruction.name : Instruction → String
  | pause => "Pause"
  | unpause => "Unpause"
  | other name _ => name

/-- A line is Anchor's for an instruction, or any other. -/
inductive LogLine where
  | instruction (i : Instruction)
  | other (line : Text)
  deriving DecidableEq

def LogLine.text : LogLine → Text
  | instruction i => ("Program log: Instruction: " ++ i.name).toList
  | other line => line

/-- Whether it pauses or unpauses. -/
def LogLine.pauses : LogLine → Option Bool
  | instruction .pause => some true
  | instruction .unpause => some false
  | _ => none

/-- It has one of the texts of a `TokenPaused`, and not the text that is looked for next to them. -/
def saysPaused (line : Text) : Bool :=
  (includes line "TokenPaused".toList || includes line "pause".toList) && !includes line "unpause".toList

/-- A successful transaction, and the worker that it is processed by. -/
structure LoggedTransaction where
  signature : Text
  lines : List LogLine
  path : Path
  slot : Nat
  deriving DecidableEq

namespace LoggedTransaction

def logs (t : LoggedTransaction) : List Text := t.lines.map (·.text)

def transaction (t : LoggedTransaction) : Transaction := .ofLogs t.signature t.logs

/-- Its pauses and unpauses, in their order. -/
def pauses (t : LoggedTransaction) : List Bool := t.lines.filterMap (·.pauses)

def saysPaused (t : LoggedTransaction) : Bool := t.logs.any Backend.saysPaused

/-- The indexer hears it pause the mint. -/
def Heard (t : LoggedTransaction) (db : Db) (mint : Text) : Prop :=
  ∃ e, db.heard false t.transaction.events = some e ∧ e.name = .tokenPaused ∧ e.mintAddress = mint

/-- The lines name the mint around every pause, unpause and other `pause`, and the lines besides Anchor's have none of
the texts of other events. -/
structure Plain (t : LoggedTransaction) (mint : Text) : Prop where
  names : ∀ l ∈ t.lines.zipIdx, l.1.pauses.isSome ∨ Backend.saysPaused l.1.text = true →
    let e : ParsedEvent := ⟨.tokenPaused, extractLogContext t.logs l.2⟩
    (e.field "mint").or (e.field "mintaddress") = some mint
  quiet : ∀ line, .other line ∈ t.lines →
    eventName line = if Backend.saysPaused line then some .tokenPaused else none

end LoggedTransaction

/-! ### What the indexer reads -/

theorem includes_iff {line pattern : Text} : includes line pattern = true ↔ pattern <:+: line := by
  rw [includes, List.any_eq_true, List.infix_iff_prefix_suffix]
  simp only [List.mem_tails, List.isPrefixOf_iff_prefix, and_comm]

/-- What says `TokenUnpaused` or `unpause` says `pause`, which is looked for before. -/
theorem eventName_ne_tokenUnpaused (line : Text) : eventName line ≠ some .tokenUnpaused := by
  have hpause {pattern : Text} (hpattern : "pause".toList <:+: pattern) (h : includes line pattern = true) :
      includes line "pause".toList = true := includes_iff.2 (hpattern.trans (includes_iff.1 h))
  have hne {c : Prop} [Decidable c] {a b x : Option EventName} (ha : a ≠ x) (hb : ¬c → b ≠ x) :
      (if c then a else b) ≠ x := by
    split_ifs with h
    · exact ha
    · exact hb h
  refine hne nofun fun _ => hne nofun fun _ => hne nofun fun _ => hne nofun fun _ => hne nofun fun _ =>
    hne nofun fun _ => hne nofun fun _ => hne (hne nofun fun _ => nofun) fun hpaused => ?_
  rw [Bool.or_eq_true] at hpaused
  rw [if_neg]
  · exact hne nofun fun _ => hne nofun fun _ => nofun
  · rw [Bool.or_eq_true]
    rintro (h | h)
    · exact hpaused (.inr (hpause (by decide +kernel) h))
    · exact hpaused (.inr (hpause (by decide +kernel) h))

theorem saysPaused_unpause : saysPaused (LogLine.instruction .unpause).text = true := by decide +kernel

theorem eventName_other : ∀ name ∈ otherInstructions, eventName ("Program log: Instruction: " ++ name).toList =
    if saysPaused ("Program log: Instruction: " ++ name).toList then some .tokenPaused else none := by
  decide +kernel

/-- Of Anchor's lines only an unpause is read, and as a pause. -/
theorem eventName_instruction (i : Instruction) : eventName (LogLine.instruction i).text =
    if saysPaused (LogLine.instruction i).text then some .tokenPaused else none := by
  cases i with
  | pause => decide +kernel
  | unpause => decide +kernel
  | other name h => exact eventName_other name h

theorem mem_extractEventsFromLogs {logs : List Text} {e : ParsedEvent} : e ∈ extractEventsFromLogs logs ↔
    ∃ i line, logs[i]? = some line ∧ eventName line = some e.name ∧ e.data = extractLogContext logs i := by
  simp only [extractEventsFromLogs, List.mem_filterMap, Prod.exists, List.mem_zipIdx_iff_getElem?,
    Option.map_eq_some_iff]
  constructor
  · rintro ⟨line, i, hline, name, hname, rfl⟩
    exact ⟨i, line, hline, hname, rfl⟩
  · rintro ⟨i, line, hline, hname, hdata⟩
    exact ⟨line, i, hline, e.name, hname, by rw [← hdata]⟩

/-! A value in the context of a line has 32 characters. -/

theorem pair_length {line key value : Text} (h : pair line = some (key, value)) : 32 ≤ value.length := by
  obtain ⟨l, -, hl⟩ := List.exists_of_findSome?_eq_some h
  unfold pairHere at hl
  split at hl
  · dsimp only at hl
    split_ifs at hl with hlength
    rw [← (Prod.mk.inj (Option.some.inj hl)).2]
    exact hlength
  · contradiction

theorem context_length {logs : List Text} {i : Nat} {name : EventName} {key : String} {value : Text}
    (h : (ParsedEvent.mk name (extractLogContext logs i)).field key = some value) : 32 ≤ value.length := by
  obtain ⟨l₁, l₂, hdata, -⟩ := List.lookup_eq_some_iff.1 (Option.filter_eq_some_iff.1 h).1
  have hmem : (key.toList, value) ∈ extractLogContext logs i := by
    rw [show extractLogContext logs i = l₁ ++ (key.toList, value) :: l₂ from hdata]
    simp
  simp only [extractLogContext, List.mem_map, List.mem_reverse, List.mem_filterMap, Prod.exists, Prod.mk.injEq] at hmem
  obtain ⟨_, _, ⟨line, -, hpair⟩, -, rfl⟩ := hmem
  exact pair_length hpair

namespace LoggedTransaction.Plain

variable {t : LoggedTransaction} {mint : Text}

theorem eventName_text (h : t.Plain mint) {l : LogLine} (hl : l ∈ t.lines) :
    eventName l.text = if Backend.saysPaused l.text then some .tokenPaused else none := by
  cases l with
  | instruction i => exact eventName_instruction i
  | other line => exact h.quiet line hl

/-- **What a transaction parses to**: a `TokenPaused` of the mint for each line that says `pause`. -/
theorem events (h : t.Plain mint) {e : ParsedEvent} (he : e ∈ t.transaction.events) :
    e.name = .tokenPaused ∧ e.mintAddress = mint ∧ mint ≠ ParsedEvent.unknown := by
  obtain ⟨i, line, hline, hname, hdata⟩ := mem_extractEventsFromLogs.1 he
  rw [logs, List.getElem?_map] at hline
  obtain ⟨l, hl, rfl⟩ := Option.map_eq_some_iff.1 hline
  rw [h.eventName_text (List.mem_of_getElem? hl)] at hname
  split_ifs at hname with hsays
  have hmint := h.names (l, i) (List.mem_zipIdx_iff_getElem?.2 hl) (.inr hsays)
  have heq : e = ⟨.tokenPaused, extractLogContext t.logs i⟩ := by rw [← hdata, Option.some.inj hname]
  dsimp only at hmint
  rw [← heq] at hmint
  refine ⟨(Option.some.inj hname).symm, by rw [ParsedEvent.mintAddress, hmint]; rfl, ?_⟩
  rintro rfl
  have hlength : 32 ≤ ParsedEvent.unknown.length := by
    obtain hfield | ⟨-, hfield⟩ := Option.or_eq_some_iff.1 hmint
    · exact context_length (heq ▸ hfield)
    · exact context_length (heq ▸ hfield)
  exact absurd hlength (by decide)

theorem exists_event_iff (h : t.Plain mint) : (∃ e, e ∈ t.transaction.events) ↔ t.saysPaused = true := by
  rw [saysPaused, logs, List.any_map, List.any_eq_true]
  constructor
  · rintro ⟨e, he⟩
    obtain ⟨i, line, hline, hname, -⟩ := mem_extractEventsFromLogs.1 he
    rw [logs, List.getElem?_map] at hline
    obtain ⟨l, hl, rfl⟩ := Option.map_eq_some_iff.1 hline
    rw [h.eventName_text (List.mem_of_getElem? hl)] at hname
    split_ifs at hname with hsays
    exact ⟨l, List.mem_of_getElem? hl, hsays⟩
  · rintro ⟨l, hl, hsays⟩
    obtain ⟨i, hi⟩ := List.mem_iff_getElem?.1 hl
    refine ⟨⟨.tokenPaused, extractLogContext t.logs i⟩, mem_extractEventsFromLogs.2 ⟨i, l.text, ?_, ?_, rfl⟩⟩
    · rw [logs, List.getElem?_map, hi, Option.map_some]
    · rw [h.eventName_text hl]
      exact if_pos hsays

/-- A transaction with such logs is heard to pause the mint exactly if a line says `pause`. -/
theorem heard_iff (h : t.Plain mint) (db : Db) : t.Heard db mint ↔ t.saysPaused = true := by
  rw [← h.exists_event_iff]
  constructor
  · rintro ⟨e, he, -⟩
    exact ⟨e, Db.mem_of_heard he⟩
  · rintro ⟨e, he⟩
    cases hevents : t.transaction.events with
    | nil => simp [hevents] at he
    | cons e' rest =>
      obtain ⟨hname, hmint, hunknown⟩ := h.events (hevents ▸ List.mem_cons_self : e' ∈ t.transaction.events)
      refine ⟨e', ?_, hname, hmint⟩
      have hhandled : e'.handled := by simp [ParsedEvent.handled, hname]
      rw [hevents, Db.heard, if_neg, if_neg]
      · rw [hname]
        exact fun hburn => EventName.noConfusion hburn.1
      · rw [hmint]
        exact not_or.2 ⟨fun hnone => hunknown hnone.1, not_not.2 hhandled⟩

end LoggedTransaction.Plain

/-- **What processing a transaction does to the flag**: it is set if a pause is heard, and never cleared. -/
theorem Processes.pausedFlag_iff {t : LoggedTransaction} {mint : Text} {st st' : Store}
    (h : Processes t.transaction st (.start t.transaction t.path t.slot) st') (hfresh : st.db.of t.signature = []) :
    st'.db.pausedFlag mint = true ↔ st.db.pausedFlag mint = true ∨ t.Heard st.db mint := by
  rw [h.pausedFlag hfresh, Db.flagAfter, LoggedTransaction.Heard]
  cases hheard : st.db.heard false t.transaction.events with
  | none => simp
  | some e =>
    obtain ⟨i, line, -, hname, -⟩ := mem_extractEventsFromLogs.1 (Db.mem_of_heard hheard)
    have hunpaused : e.name ≠ .tokenUnpaused := fun heq => eventName_ne_tokenUnpaused line (heq ▸ hname)
    rw [Option.bind_some, ParsedEvent.pauses]
    by_cases hmint : e.mintAddress = mint
    · cases hpaused : e.name <;> simp_all
    · simp [hmint]

/-! ### The flag over time -/

/-- The indexer, and whether the last instruction to pause or unpause was a pause. -/
structure Indexed where
  store : Store
  paused : Bool

def LoggedTransaction.pausedAfter (t : LoggedTransaction) (paused : Bool) : Bool := t.pauses.getLast?.getD paused

inductive IndexedStep : Indexed → LoggedTransaction → Indexed → Prop
  | processed {s : Indexed} {t : LoggedTransaction} {st' : Store} (hfresh : s.store.db.of t.signature = [])
    (h : Processes t.transaction s.store (.start t.transaction t.path t.slot) st') :
    IndexedStep s t ⟨st', t.pausedAfter s.paused⟩

/-- Transactions one after the other, from before the first that pauses or unpauses the mint. -/
def indexed (mint : Text) : Lts Indexed LoggedTransaction where
  start s := s.store.db.pausedFlag mint = false ∧ s.paused = false
  step := IndexedStep

def Indexed.Mirrors (s : Indexed) (mint : Text) : Prop := s.store.db.pausedFlag mint = s.paused

/-- Where it pauses or unpauses, the last is a pause, and a line says `pause` or the mint was paused before; where it
does neither, no line says `pause`, unless the mint was paused before. -/
def LoggedTransaction.Agrees (t : LoggedTransaction) (paused : Bool) : Prop :=
  match t.pauses.getLast? with
  | some pause => pause = true ∧ (t.saysPaused = true ∨ paused = true)
  | none => t.saysPaused = true → paused = true

theorem LoggedTransaction.saysPaused_of_unpause {t : LoggedTransaction} (h : false ∈ t.pauses) :
    t.saysPaused = true := by
  obtain ⟨l, hl, hpauses⟩ := List.mem_filterMap.1 h
  refine List.any_eq_true.2 ⟨l.text, List.mem_map_of_mem hl, ?_⟩
  cases l with
  | instruction i =>
    cases i with
    | pause => cases hpauses
    | unpause => exact saysPaused_unpause
    | other name h => cases hpauses
  | other line => cases hpauses

/-- **Step.** -/
theorem mirrors_step {mint : Text} {s s' : Indexed} {t : LoggedTransaction} (hplain : t.Plain mint)
    (hs : s.Mirrors mint) (h : IndexedStep s t s') : s'.Mirrors mint ↔ t.Agrees s.paused := by
  cases h with
  | processed hfresh h =>
    rw [Indexed.Mirrors, Bool.eq_iff_iff, h.pausedFlag_iff hfresh, hs, hplain.heard_iff,
      LoggedTransaction.pausedAfter, LoggedTransaction.Agrees]
    cases hlast : t.pauses.getLast? with
    | none =>
      rw [Option.getD_none, or_iff_left_iff_imp]
    | some pause =>
      rw [Option.getD_some, or_comm]
      cases pause with
      | true => exact ⟨fun h => ⟨rfl, h.2 rfl⟩, fun h => ⟨fun _ => rfl, fun _ => h.2⟩⟩
      | false =>
        -- an unpause says `pause`, and sets the flag
        have hsays := t.saysPaused_of_unpause (List.mem_of_getLast? hlast)
        exact ⟨fun h => ⟨h.1 (.inl hsays), .inl hsays⟩, fun h => absurd h.1 Bool.false_ne_true⟩

/-- **Run.** The flag is right after every transaction of a run exactly when every transaction of the run agrees with
what the indexer reads in its lines. -/
theorem flag_mirrors_iff (mint : Text) (h : List LoggedTransaction) (hplain : ∀ t ∈ h, t.Plain mint) (s : Indexed) :
    ((indexed mint).restrict fun _ _ s' => s'.Mirrors mint).Run h s ↔
      ((indexed mint).restrict fun s t _ => t.Agrees s.paused).Run h s := by
  have hmirrors {h s} (r : ((indexed mint).restrict fun _ _ s' => s'.Mirrors mint).Run h s) : s.Mirrors mint := by
    cases r with
    | start hs => exact hs.1.trans hs.2.symm
    | step _ hs => exact hs.1
  exact Lts.Run.restrict_congr fun _ _ _ t ht r _ hs => mirrors_step (hplain t ht) (hmirrors r) hs

/-! ### Samples -/

def sampleMintText : Text := "So11111111111111111111111111111111111111112".toList

def sampleMintLine : LogLine := .other ("Program log: mint: ".toList ++ sampleMintText)

def samplePause : LoggedTransaction := ⟨['p'], [.instruction .pause, sampleMintLine], .websocket, 7⟩

def samplePauseUnpause : LoggedTransaction :=
  ⟨['u'], [.instruction .pause, sampleMintLine, .instruction .unpause], .websocket, 8⟩

/-- The transfer hook logs what it checks. -/
def sampleHookTransfer : LoggedTransaction :=
  ⟨['t'], [.other ("Program log: Evaluating pause state: mint=".toList ++ sampleMintText ++
    ", paused=false, at=0, by=".toList ++ sampleMintText ++ ", bump=255".toList), sampleMintLine], .poller, 9⟩

/-- The mint is paused for good, and the indexer takes the unpause for a pause. -/
def sampleUnpausePause : LoggedTransaction :=
  ⟨['r'], [.instruction .unpause, sampleMintLine, .instruction .pause], .websocket, 7⟩

theorem LoggedTransaction.Plain.of_lines {t : LoggedTransaction} {mint : Text}
    (hnames : ∀ l ∈ t.lines.zipIdx, l.1.pauses.isSome ∨ Backend.saysPaused l.1.text = true →
      let e : ParsedEvent := ⟨.tokenPaused, extractLogContext t.logs l.2⟩
      (e.field "mint").or (e.field "mintaddress") = some mint)
    (hquiet : ∀ l ∈ t.lines, eventName l.text = if Backend.saysPaused l.text then some .tokenPaused else none) :
    t.Plain mint :=
  ⟨hnames, fun line hline => hquiet (.other line) hline⟩

theorem samplePause_plain : samplePause.Plain sampleMintText := .of_lines (by decide +kernel) (by decide +kernel)

theorem samplePauseUnpause_plain : samplePauseUnpause.Plain sampleMintText :=
  .of_lines (by decide +kernel) (by decide +kernel)

theorem sampleHookTransfer_plain : sampleHookTransfer.Plain sampleMintText :=
  .of_lines (by decide +kernel) (by decide +kernel)

theorem sampleUnpausePause_plain : sampleUnpausePause.Plain sampleMintText :=
  .of_lines (by decide +kernel) (by decide +kernel)

def sampleIndexed : Indexed := ⟨⟨⟨fun _ => none, [], none⟩, 0, 0⟩, false⟩

theorem indexed_sample (t : LoggedTransaction) :
    ∃ s, (indexed sampleMintText).Run [t] s ∧ s.paused = t.pausedAfter false ∧
      s.store.db.pausedFlag sampleMintText =
        sampleIndexed.store.db.flagAfter false t.transaction.events sampleMintText := by
  obtain ⟨st', h⟩ := exists_processes t.transaction sampleIndexed.store (.start t.transaction t.path t.slot)
  exact ⟨⟨st', _⟩, (Lts.Run.start (L := indexed sampleMintText) ⟨rfl, rfl⟩).step (.processed rfl h), rfl,
    h.pausedFlag rfl⟩

theorem flag_mirrors_iff_unpausePause : ∃ s : Indexed,
    ((indexed sampleMintText).restrict fun _ _ s' => s'.Mirrors sampleMintText).Run [sampleUnpausePause] s ∧
      s.paused = true := by
  obtain ⟨s, r, hpaused, -⟩ := indexed_sample sampleUnpausePause
  have hplain : ∀ t ∈ [sampleUnpausePause], t.Plain sampleMintText := fun t ht =>
    List.mem_singleton.1 ht ▸ sampleUnpausePause_plain
  refine ⟨s, (flag_mirrors_iff sampleMintText [sampleUnpausePause] hplain s).2 ?_, hpaused⟩
  cases r with
  | step r hs =>
    cases r with
    | start h₀ =>
      refine (Lts.Run.start (L := (indexed sampleMintText).restrict _) h₀).step_restrict hs ?_
      have hsays : sampleUnpausePause.saysPaused = true := by decide +kernel
      exact ⟨rfl, .inl hsays⟩

/-- A pause is missed, a pause and unpause leave the flag set, and so does a transfer of a mint that is not paused. -/
theorem pause_missed :
    (samplePause.Plain sampleMintText ∧ ∃ s, (indexed sampleMintText).Run [samplePause] s ∧ s.paused = true ∧
      s.store.db.pausedFlag sampleMintText = false) ∧
    (samplePauseUnpause.Plain sampleMintText ∧ ∃ s, (indexed sampleMintText).Run [samplePauseUnpause] s ∧
      s.paused = false ∧ s.store.db.pausedFlag sampleMintText = true) ∧
    sampleHookTransfer.Plain sampleMintText ∧ ∃ s, (indexed sampleMintText).Run [sampleHookTransfer] s ∧
      s.paused = false ∧ s.store.db.pausedFlag sampleMintText = true := by
  obtain ⟨s, hrun, hpaused, hflag⟩ := indexed_sample samplePause
  obtain ⟨s', hrun', hpaused', hflag'⟩ := indexed_sample samplePauseUnpause
  obtain ⟨s₁, hrun₁, hpaused₁, hflag₁⟩ := indexed_sample sampleHookTransfer
  exact ⟨⟨samplePause_plain, s, hrun, hpaused, hflag.trans (by decide +kernel)⟩,
    ⟨samplePauseUnpause_plain, s', hrun', hpaused', hflag'.trans (by decide +kernel)⟩,
    sampleHookTransfer_plain, s₁, hrun₁, hpaused₁, hflag₁.trans (by decide +kernel)⟩

end ThawGate.Backend
