import ThawGate.Sdk.Reasons
import ThawGate.Keeper.EventLogs

/-!
# Whose line is it

What `parseGateLogs` and `programDataLogs` return on a transcript, against the frames its lines were
written in. The expressions for a frame's lines match by the words of a line, and `Program log: ` is
followed by a text of the program's choice: the text `success` reads as the end of a frame of a program named
`log:`. `attributed_iff` gives the lines that are misread, for each reader: as long as no program writes one, the
stack is that of the open frames, the decision is the gate's first reason line, the failure is that of the first
frame that failed, and the payloads are those of the program's own frames; and as soon as one is written, a later
line is attributed to a wrong frame. A data line of several slices is one text with blanks between them, of which
Node reads no further than the first padding.
-/

namespace ThawGate.Logs

/-! ### What was logged -/

/-- The reason in a line of a frame of the gate. -/
def reasonIn (gate : ProgramId) : Entry × List ProgramId → Option (Sdk.DecisionKind × Text)
  | (.line (.log text), program :: _) => if program = gate then Sdk.reasonOf text else none
  | _ => none

/-- The program and the message of a frame that failed. -/
def Entry.failed : Entry → Option (Text × Text)
  | exit program (some message) => some (program.text, message.text)
  | _ => none

def Entry.invokes (gate : ProgramId) : Entry → Bool
  | invoke program _ => program = gate
  | _ => false

/-- The slices of a data line of a frame of `program`. -/
def dataIn (program : ProgramId) : Entry × List ProgramId → Option (List (List UInt8))
  | (.line (.data slices), p :: _) => if p = program then some slices else none
  | _ => none

/-- The payloads that the frames of `program` logged: a line's slices, one after the other. -/
def Transcript.payloads (t : Transcript) (program : ProgramId) : List (List UInt8) :=
  (t.entries.filterMap (dataIn program)).map List.flatten

def innerLine : Entry × List ProgramId → Option Line
  | (.line l, _) => some l
  | _ => none

/-- The lines inside the frames. -/
def Transcript.inner (t : Transcript) : List Line := t.entries.filterMap innerLine

/-- `parseGateLogs` attributes every line to the frame it was written in, and returns the gate's first reason line
and the first frame that failed. -/
structure GateLogsAttributed (gate : ProgramId) (t : Transcript) : Prop where
  frames : ∀ before e path after, t.entries = before ++ (e, path) :: after →
    (Sdk.scanGateLogs (before.map (·.1.text)) gate.text).stack = path.map ProgramId.text
  decision : (Sdk.parseGateLogs t.lines gate.text).decision = t.entries.findSome? (reasonIn gate)
  failure : (Sdk.parseGateLogs t.lines gate.text).failure = t.entries.findSome? (·.1.failed)

/-- `programDataLogs` attributes every line to the frame it was written in, and returns the payloads of the program's
frames. -/
structure DataLogsAttributed (program : ProgramId) (t : Transcript) : Prop where
  frames : ∀ before e path after, t.entries = before ++ (e, path) :: after →
    (Keeper.scanProgramData (before.map (·.1.text)) program.text).stack = path.map ProgramId.text
  payloads : Keeper.programDataLogs t.lines program.text = t.payloads program

/-! ### Which lines are misread -/

/-- The SDK reads no line inside a frame as that of a frame, but for the texts `success`, `failed: …` of one line
and `invoke [<digits>]`. -/
def Line.plainToSdk : Line → Bool
  | log text => !(text == "success".toList || (Sdk.failedTail text).isSome || isInvokeTail text)
  | _ => true

/-- The keeper takes any `success…` and `failed…` for the end of a frame, also as base64 text and as the address
in a line about return data. -/
def Line.plainToKeeper : Line → Bool
  | log text => !(Keeper.startsExit text || isInvokeTail text)
  | data slices => !Keeper.startsExit (dataText slices)
  | returned program _ => !Keeper.startsExit program.text
  | _ => true

/-- No byte stands behind a slice that Base64 pads. -/
def readWhole : List (List UInt8) → Bool
  | [] => true
  | bytes :: slices => if bytes.length % 3 = 0 then readWhole slices else slices.all List.isEmpty

theorem isWord_log : IsWord "log:".toList := ⟨by decide, by decide⟩

theorem isWord_data : IsWord "data:".toList := ⟨by decide, by decide⟩

theorem isWord_consumption : IsWord "consumption:".toList := ⟨by decide, by decide⟩

theorem isWord_return : IsWord "return:".toList := ⟨by decide, by decide⟩

/-- The runtime's own words hold no colon and no bracket. -/
structure Tame (text : Text) : Prop where
  colon : ':' ∉ text
  bracket : '[' ∉ text

theorem Tame.append {a b : Text} (ha : Tame a) (hb : Tame b) : Tame (a ++ b) :=
  ⟨fun h => (List.mem_append.1 h).elim ha.colon hb.colon, fun h => (List.mem_append.1 h).elim ha.bracket hb.bracket⟩

theorem tame_blank : Tame [' '] := ⟨by decide, by decide⟩

theorem tame_digits (n : Nat) : Tame (Nat.toDigits 10 n) := by
  have hdigit {c : Char} (h : c ∈ Nat.toDigits 10 n) : c.isDigit = true :=
    Nat.isDigit_of_mem_toDigits (by decide) (by decide) h
  exact ⟨fun h => absurd (hdigit h) (by decide), fun h => absurd (hdigit h) (by decide)⟩

theorem tame_base58 (program : ProgramId) : Tame program.text :=
  ⟨fun h => absurd (program.mem_base58 h) (by decide), fun h => absurd (program.mem_base58 h) (by decide)⟩

theorem tame_base64 (bytes : List UInt8) : Tame (Base64.encode bytes) := by
  constructor
  · intro h
    rcases Base64.mem_encode h with h | h
    · exact absurd h (by decide)
    · cases h
  · intro h
    rcases Base64.mem_encode h with h | h
    · exact absurd h (by decide)
    · cases h

theorem tame_dataText (slices : List (List UInt8)) : Tame (dataText slices) := by
  induction slices with
  | nil => exact ⟨List.not_mem_nil, List.not_mem_nil⟩
  | cons a slices ih =>
    cases slices with
    | nil =>
      rw [dataText_one]
      exact tame_base64 a
    | cons b slices =>
      rw [dataText_cons]
      exact (tame_base64 a).append (tame_blank.append ih)

theorem tame_remaining (units : Nat) : Tame (Nat.toDigits 10 units ++ " units remaining".toList) :=
  (tame_digits units).append ⟨by decide, by decide⟩

theorem tame_consumed (units budget : Nat) : Tame ("consumed ".toList ++ Nat.toDigits 10 units ++
    " of ".toList ++ Nat.toDigits 10 budget ++ " compute units".toList) := by
  have hconsumed : Tame "consumed ".toList := ⟨by decide, by decide⟩
  have hof : Tame " of ".toList := ⟨by decide, by decide⟩
  exact (((hconsumed.append (tame_digits units)).append hof).append (tame_digits budget)).append
    ⟨by decide, by decide⟩

theorem tame_returned (program : ProgramId) (bytes : List UInt8) :
    Tame (program.text ++ ' ' :: Base64.encode bytes) :=
  (tame_base58 program).append (tame_blank.append (tame_base64 bytes))

theorem dataText_ne_success (slices : List (List UInt8)) : dataText slices ≠ "success".toList := by
  intro h
  match slices with
  | [] => cases h
  | [bytes] =>
    -- seven characters are no whole number of groups
    have hlength := Base64.length_encode bytes
    rw [dataText_one] at h
    rw [h] at hlength
    cases hlength
  | a :: b :: slices =>
    have hblank : ' ' ∈ dataText (a :: b :: slices) := by
      rw [dataText_cons]
      exact List.mem_append_right _ List.mem_cons_self
    rw [h] at hblank
    exact absurd hblank (by decide)

/-- Node reads the slices up to the first padding. -/
theorem decode_dataText (slices : List (List UInt8)) :
    Base64.decode (dataText slices) = slices.flatten ↔ readWhole slices = true := by
  induction slices with
  | nil => exact iff_of_true rfl rfl
  | cons a slices ih =>
    cases slices with
    | nil =>
      rw [dataText_one, Base64.decode_encode, readWhole, readWhole, List.all_nil, ite_self, List.flatten_singleton]
      exact iff_of_true rfl rfl
    | cons b slices =>
      rw [dataText_cons, Base64.decode_append, List.flatten_cons, readWhole,
        Base64.decode_skip (by decide) (by decide)]
      by_cases h : a.length % 3 = 0
      · rw [if_pos h, if_pos h, List.append_cancel_left_eq]
        exact ih
      · rw [if_neg h, if_neg h, List.self_eq_append_right, List.flatten_eq_nil_iff, List.all_eq_true]
        simp only [List.isEmpty_iff]

/-! ### The SDK -/

theorem failedTail_of_tame {tail : Text} (h : Tame tail) : Sdk.failedTail tail = none := by
  rw [Sdk.failedTail]
  cases hrest : tail.dropPrefix? "failed: ".toList with
  | none => rfl
  | some rest =>
    rw [dropPrefix?_eq_some] at hrest
    exact absurd (by rw [hrest]; exact List.mem_append_left _ (by decide)) h.colon

theorem quiet_of_tame {word tail : Text} (hword : IsWord word) (h : Tame tail) (hne : tail ≠ "success".toList) :
    Quiet Sdk.exitLine (programText word tail) := by
  refine ⟨?_, ?_⟩
  · rw [invokeLine_text hword, isInvokeTail_of_not_mem h.bracket]
    rfl
  · rw [Sdk.exitLine_text hword, failedTail_of_tame h, beq_false_of_ne hne]
    rfl

theorem ne_success_of_blank {tail : Text} (h : ' ' ∈ tail) : tail ≠ "success".toList := by
  rintro rfl
  exact absurd h (by decide)

theorem programLine_note (n : Note) : programLine n.text = none := by
  rw [programLine, n.other, Option.bind_none]

theorem invokeLine_note (n : Note) : invokeLine n.text = none := by
  rw [invokeLine, programLine_note, Option.bind_none]

theorem dropPrefix?_note (n : Note) (word : Text) : n.text.dropPrefix? (programPrefix ++ word) = none := by
  cases hrest : n.text.dropPrefix? (programPrefix ++ word) with
  | none => rfl
  | some rest =>
    rw [dropPrefix?_eq_some, List.append_assoc] at hrest
    have hother := n.other
    rw [hrest, dropPrefix?_append] at hother
    cases hother

theorem quiet_sdk (l : Line) : Quiet Sdk.exitLine l.text ↔ l.plainToSdk = true := by
  cases l with
  | log text =>
    rw [Line.text, Quiet, invokeLine_text isWord_log, Sdk.exitLine_text isWord_log, Line.plainToSdk]
    cases isInvokeTail text <;> simp
  | data slices =>
    exact ⟨fun _ => rfl, fun _ => quiet_of_tame isWord_data (tame_dataText slices) (dataText_ne_success slices)⟩
  | remaining units =>
    refine ⟨fun _ => rfl, fun _ => quiet_of_tame isWord_consumption (tame_remaining units) (ne_success_of_blank ?_)⟩
    exact List.mem_append_right _ (by decide)
  | consumed program units budget =>
    refine ⟨fun _ => rfl, fun _ => quiet_of_tame (isWord_base58 program) (tame_consumed units budget) ?_⟩
    exact ne_success_of_blank (List.mem_append_right _ (by decide))
  | returned program bytes =>
    refine ⟨fun _ => rfl, fun _ => quiet_of_tame isWord_return (tame_returned program bytes) ?_⟩
    exact ne_success_of_blank (List.mem_append_right _ List.mem_cons_self)
  | note n =>
    refine ⟨fun _ => rfl, fun _ => ⟨invokeLine_note n, ?_⟩⟩
    rw [Line.text, Sdk.exitLine, programLine_note, Option.any_none]

theorem readsExits_sdk : ReadsExits Sdk.exitLine := by
  intro program failure
  cases failure with
  | none =>
    rw [Entry.text, Sdk.exitLine_text (isWord_base58 program)]
    rfl
  | some message =>
    rw [Entry.text, Sdk.exitLine_text (isWord_base58 program), Sdk.failedTail, dropPrefix?_append, Option.bind_some,
      if_pos message.oneLine, Option.isSome_some, Bool.or_true]

theorem failedTail_message (m : Message) : Sdk.failedTail ("failed: ".toList ++ m.text) = some m.text := by
  rw [Sdk.failedTail, dropPrefix?_append, Option.bind_some, if_pos m.oneLine]

theorem failedLine_exit (program : ProgramId) (failure : Option Message) :
    Sdk.failedLine (Entry.exit program failure).text = (Entry.exit program failure).failed := by
  cases failure with
  | none =>
    rw [Entry.text, Sdk.failedLine_text (isWord_base58 program)]
    rfl
  | some message =>
    rw [Entry.text, Sdk.failedLine_text (isWord_base58 program), failedTail_message]
    rfl

theorem tgLine_line (l : Line) : Sdk.tgLine l.text = match l with
    | .log text => Sdk.reasonOf text
    | _ => none := by
  have hother {word tail : Text} (h : IsWord word) (hne : word ≠ "log:".toList) :
      Sdk.tgLine (programText word tail) = none := by
    rw [Sdk.tgLine_text h, if_neg hne]
  cases l with
  | log text => rw [Line.text, Sdk.tgLine_text isWord_log, if_pos rfl]
  | data slices => exact hother isWord_data (by decide)
  | remaining units => exact hother isWord_consumption (by decide)
  | consumed program units budget =>
    refine hother (isWord_base58 program) fun h => (tame_base58 program).colon ?_
    rw [h]
    decide
  | returned program bytes => exact hother isWord_return (by decide)
  | note n =>
    have hnone : n.text.dropPrefix? "Program log: ".toList = none := dropPrefix?_note n "log: ".toList
    rw [Line.text, Sdk.tgLine, hnone, Option.bind_none]

/-! ### The keeper -/

theorem quiet_keeper (l : Line) : Quiet Keeper.exitLine l.text ↔ l.plainToKeeper = true := by
  have htame {word tail : Text} (hword : IsWord word) (h : Tame tail) :
      Quiet Keeper.exitLine (programText word tail) ↔ (!Keeper.startsExit tail) = true := by
    rw [Quiet, invokeLine_text hword, isInvokeTail_of_not_mem h.bracket, Keeper.exitLine_text hword, Bool.not_eq_true']
    exact and_iff_right rfl
  cases l with
  | log text =>
    rw [Line.text, Quiet, invokeLine_text isWord_log, Keeper.exitLine_text isWord_log, Line.plainToKeeper]
    cases isInvokeTail text <;> simp
  | data slices => exact htame isWord_data (tame_dataText slices)
  | remaining units =>
    rw [Line.text, htame isWord_consumption (tame_remaining units)]
    obtain ⟨c, digits, hc⟩ := List.exists_cons_of_ne_nil (Nat.toDigits_ne_nil (b := 10) (n := units))
    have hmem : c ∈ Nat.toDigits 10 units := by
      rw [hc]
      exact List.mem_cons_self
    have hdigit : c.isDigit = true := Nat.isDigit_of_mem_toDigits (by decide) (by decide) hmem
    rw [hc, List.cons_append, Keeper.startsExit_cons]
    · exact iff_of_true rfl rfl
    · rintro rfl
      cases hdigit
    · rintro rfl
      cases hdigit
  | consumed program units budget =>
    rw [Line.text, htame (isWord_base58 program) (tame_consumed units budget)]
    exact iff_of_true (congrArg _ (Keeper.startsExit_cons (by decide) (by decide) _)) rfl
  | returned program bytes =>
    rw [Line.text, htame isWord_return (tame_returned program bytes), Keeper.startsExit_blank, Line.plainToKeeper]
  | note n =>
    refine iff_of_true ⟨invokeLine_note n, ?_⟩ rfl
    rw [Line.text, Keeper.exitLine, programLine_note, Option.any_none]

theorem readsExits_keeper : ReadsExits Keeper.exitLine := by
  intro program failure
  cases failure with
  | none =>
    rw [Entry.text, Keeper.exitLine_text (isWord_base58 program)]
    rfl
  | some message =>
    rw [Entry.text, Keeper.exitLine_text (isWord_base58 program)]
    rfl

theorem dataLine_line (l : Line) : Keeper.dataLine l.text = match l with
    | .data slices => some (Base64.decode (dataText slices))
    | _ => none := by
  have hother {word tail : Text} (h : IsWord word) (hne : word ≠ "data:".toList) :
      Keeper.dataLine (programText word tail) = none := by
    rw [Keeper.dataLine_text h, if_neg hne]
  cases l with
  | log text => exact hother isWord_log (by decide)
  | data slices => rw [Line.text, Keeper.dataLine_text isWord_data, if_pos rfl]
  | remaining units => exact hother isWord_consumption (by decide)
  | consumed program units budget =>
    refine hother (isWord_base58 program) fun h => (tame_base58 program).colon ?_
    rw [h]
    decide
  | returned program bytes => exact hother isWord_return (by decide)
  | note n =>
    have hnone : n.text.dropPrefix? "Program data: ".toList = none := dropPrefix?_note n "data: ".toList
    rw [Line.text, Keeper.dataLine, hnone, Option.map_none]

/-! ### The scans -/

section scan

variable {gate program : ProgramId} {path : List ProgramId} {es : List (Entry × List ProgramId)}

theorem read_invoke (gateId : Text) (s : Sdk.GateScan) (program : ProgramId) (depth : Nat) :
    s.read gateId (Entry.invoke program depth).text = { s with
      stack := program.text :: s.stack, gateInvoked := s.gateInvoked || program.text == gateId } := by
  rw [Sdk.GateScan.read, invokeLine_invoke]

theorem read_exit (gateId : Text) (s : Sdk.GateScan) (program : ProgramId) (failure : Option Message) :
    s.read gateId (Entry.exit program failure).text = { s with
      stack := s.stack.tail, failure := s.failure.or (Entry.exit program failure).failed } := by
  rw [Sdk.GateScan.read, invokeLine_exit]
  dsimp only
  rw [if_pos (readsExits_sdk program failure), failedLine_exit]

theorem text_beq (program gate : ProgramId) : (program.text == gate.text) = decide (program = gate) := by
  by_cases h : program = gate
  · rw [h, beq_self_eq_true, decide_eq_true rfl]
  · rw [beq_false_of_ne (mt ProgramId.ext_text h), decide_eq_false h]

/-- The text of a line inside the gate's frame is read for a reason as long as there is none. -/
theorem decision_line (decision : Option (Sdk.DecisionKind × Text)) (l : Line) (hpath : path ≠ []) :
    (if decision = none ∧ (path.map ProgramId.text).head? = some gate.text then Sdk.tgLine l.text else decision) =
      decision.or (reasonIn gate (.line l, path)) := by
  obtain ⟨p, path, rfl⟩ := List.exists_cons_of_ne_nil hpath
  cases decision with
  | some d => rw [if_neg (fun h => nomatch h.1), Option.some_or]
  | none =>
    rw [Option.none_or, tgLine_line]
    by_cases hgate : p = gate
    · subst hgate
      rw [if_pos ⟨rfl, rfl⟩]
      cases l with
      | log text => exact (if_pos rfl).symm
      | _ => rfl
    · have htop : ¬((p :: path).map ProgramId.text).head? = some gate.text :=
        fun h => hgate (ProgramId.ext_text (Option.some.inj h))
      rw [if_neg (mt And.right htop)]
      cases l with
      | log text => exact (if_neg hgate).symm
      | _ => rfl

theorem quiet_tail {exit : Text → Bool} {e : Entry × List ProgramId}
    (hplain : ∀ l p, (.line l, p) ∈ e :: es → Quiet exit l.text) (l : Line) (p : List ProgramId)
    (hmem : (.line l, p) ∈ es) : Quiet exit l.text := hplain l p (List.mem_cons_of_mem _ hmem)

/-- The scan of lines that are all read for what they are. -/
theorem scan_eq (h : Tracks path es) (hplain : ∀ l p, (.line l, p) ∈ es → Quiet Sdk.exitLine l.text)
    (s : Sdk.GateScan) (hs : s.stack = path.map ProgramId.text) :
    (es.map (·.1.text)).foldl (Sdk.GateScan.read gate.text) s =
      ⟨⟨s.gateInvoked || es.any (·.1.invokes gate), s.decision.or (es.findSome? (reasonIn gate)),
        s.failure.or (es.findSome? (·.1.failed))⟩, []⟩ := by
  induction h generalizing s with
  | done =>
    obtain ⟨⟨_, _, _⟩, _⟩ := s
    cases hs
    simp
  | @invoke program depth path rest _ ih =>
    rw [List.map_cons, List.foldl_cons, read_invoke, ih (quiet_tail hplain) _ (by rw [hs]; rfl)]
    simp only [List.any_cons, List.findSome?_cons, Entry.invokes, reasonIn, Entry.failed, text_beq, Bool.or_assoc]
  | @exit program failure path rest _ ih =>
    rw [List.map_cons, List.foldl_cons, read_exit, ih (quiet_tail hplain) _ (by rw [hs]; rfl)]
    simp only [List.any_cons, List.findSome?_cons, Entry.invokes, reasonIn, Bool.false_or, Option.or_assoc]
    cases failure <;> simp [Entry.failed]
  | @line l path rest hpath _ ih =>
    have hline : s.read gate.text l.text = { s with decision := s.decision.or (reasonIn gate (.line l, path)) } := by
      rw [Sdk.GateScan.read_quiet (hplain l path List.mem_cons_self), hs, decision_line s.decision l hpath]
    rw [List.map_cons, List.foldl_cons, Entry.text, hline, ih (quiet_tail hplain) _ (by exact hs)]
    simp only [List.any_cons, List.findSome?_cons, Entry.invokes, Entry.failed, Bool.false_or, Option.or_assoc]
    cases reasonIn gate (.line l, path) <;> simp

/-- The bytes that are read of a data line inside the program's frame. -/
theorem out_line (l : Line) (hpath : path ≠ []) :
    (if (path.map ProgramId.text).head? = some program.text then (Keeper.dataLine l.text).toList else []) =
      ((dataIn program (.line l, path)).map fun slices => Base64.decode (dataText slices)).toList := by
  obtain ⟨p, path, rfl⟩ := List.exists_cons_of_ne_nil hpath
  rw [dataLine_line]
  by_cases hprogram : p = program
  · subst hprogram
    have htop : ((p :: path).map ProgramId.text).head? = some p.text := rfl
    rw [if_pos htop]
    cases l with
    | data slices =>
      have hdata : dataIn p (.line (.data slices), p :: path) = some slices := if_pos rfl
      rw [hdata, Option.map_some]
    | _ => rfl
  · have htop : ¬((p :: path).map ProgramId.text).head? = some program.text :=
      fun h => hprogram (ProgramId.ext_text (Option.some.inj h))
    rw [if_neg htop]
    cases l with
    | data slices =>
      have hdata : dataIn program (.line (.data slices), p :: path) = none := if_neg hprogram
      rw [hdata, Option.map_none, Option.toList_none]
    | _ => rfl

theorem data_eq (h : Tracks path es) (hplain : ∀ l p, (.line l, p) ∈ es → Quiet Keeper.exitLine l.text)
    (s : Keeper.DataScan) (hs : s.stack = path.map ProgramId.text) :
    ((es.map (·.1.text)).foldl (Keeper.DataScan.read program.text) s).out =
      s.out ++ (es.filterMap (dataIn program)).map fun slices => Base64.decode (dataText slices) := by
  induction h generalizing s with
  | done => exact (List.append_nil _).symm
  | @invoke p depth path rest _ ih =>
    rw [List.map_cons, List.foldl_cons, Keeper.DataScan.read, invokeLine_invoke]
    exact ih (quiet_tail hplain) _ (congrArg (p.text :: ·) hs)
  | @exit p failure path rest _ ih =>
    rw [List.map_cons, List.foldl_cons, Keeper.DataScan.read, invokeLine_exit]
    dsimp only
    rw [if_pos (readsExits_keeper p failure)]
    exact ih (quiet_tail hplain) _ (congrArg List.tail hs)
  | @line l path rest hpath _ ih =>
    rw [List.map_cons, List.foldl_cons, Entry.text, Keeper.DataScan.read_quiet (hplain l path List.mem_cons_self),
      ih (quiet_tail hplain) _ (by exact hs)]
    rw [hs, out_line l hpath, List.append_assoc]
    cases hdata : dataIn program (.line l, path) with
    | none => rw [List.filterMap_cons_none hdata, Option.map_none, Option.toList_none, List.nil_append]
    | some slices =>
      rw [List.filterMap_cons_some hdata, Option.map_some, Option.toList_some, List.singleton_append, List.map_cons]

end scan

/-! ### Attribution -/

theorem Transcript.mem_inner {t : Transcript} {l : Line} :
    l ∈ t.inner ↔ ∃ path, (.line l, path) ∈ t.entries := by
  rw [Transcript.inner, List.mem_filterMap]
  constructor
  · rintro ⟨⟨e, path⟩, hmem, h⟩
    cases e with
    | line l' =>
      cases h
      exact ⟨path, hmem⟩
    | _ => cases h
  · rintro ⟨path, hmem⟩
    exact ⟨_, hmem, rfl⟩

/-- A reader's stack is that of the open frames, before every line, exactly when the lines inside the frames are
quiet. -/
theorem Transcript.frames_iff (t : Transcript) {exit : Text → Bool} (hexit : ReadsExits exit) :
    (∀ before e path after, t.entries = before ++ (e, path) :: after →
      (before.map (·.1.text)).foldl (fun stack line => stackAfter exit line stack) [] = path.map ProgramId.text) ↔
    ∀ l ∈ t.inner, Quiet exit l.text := by
  have hquiet := follows_iff_quiet hexit t.tracks
  rw [List.map_nil, follows_iff] at hquiet
  simp only [List.foldl_map]
  rw [hquiet]
  constructor
  · intro h l hl
    obtain ⟨path, hmem⟩ := mem_inner.1 hl
    exact h l path hmem
  · exact fun h l path hmem => h l (mem_inner.2 ⟨path, hmem⟩)

/-- Once every line has its frame, the payloads are right if Node reads the program's data lines to their end. -/
theorem payloads_iff {t : Transcript} {program : ProgramId} (hplain : ∀ l ∈ t.inner, l.plainToKeeper = true) :
    Keeper.programDataLogs t.lines program.text = t.payloads program ↔
      ∀ slices ∈ t.entries.filterMap (dataIn program), readWhole slices = true := by
  have hquiet : ∀ l p, (.line l, p) ∈ t.entries → Quiet Keeper.exitLine l.text := fun l p hmem =>
    (quiet_keeper l).2 (hplain l (Transcript.mem_inner.2 ⟨p, hmem⟩))
  have hread : Keeper.programDataLogs t.lines program.text =
      (t.entries.filterMap (dataIn program)).map fun slices => Base64.decode (dataText slices) :=
    data_eq t.tracks hquiet ⟨[], []⟩ rfl
  rw [hread, Transcript.payloads, List.map_inj_left]
  simp only [decode_dataText]

def sampleGate : ProgramId := ⟨Sdk.thawgateGateId, by decide +kernel, by decide +kernel⟩

def sampleCallee : ProgramId :=
  ⟨"TokenzQdBNbLqP5VEhdkAS6EPFLC1PHnBqCXEpPxuEb".toList, by decide +kernel, by decide +kernel⟩

/-- The gate calls a program that logs `text`. Then the gate logs its reason and an event, and fails. -/
def sampleTranscript (text : Text) : Transcript :=
  [⟨sampleGate,
    .call sampleCallee (.line (.log text) .done) none <|
      .line (.log "TG:DENY:BLACKLISTED".toList) <| .line (.data [[1, 2, 3, 4]]) .done,
    some ⟨"custom program error: 0x177e".toList, by decide⟩⟩]

example : Sdk.parseGateLogs (sampleTranscript "hello".toList).lines sampleGate.text =
    ⟨true, some (.deny, "BLACKLISTED".toList), some (sampleGate.text, "custom program error: 0x177e".toList)⟩ := by
  decide +kernel

def slicedTranscript : Transcript := [⟨sampleGate, .line (.data [[1], [2, 3]]) .done, none⟩]

/-- The second slice of a data line is lost behind the padding of the first. -/
example : Keeper.programDataLogs slicedTranscript.lines sampleGate.text = [[1]] ∧
    slicedTranscript.payloads sampleGate = [[1, 2, 3]] := by
  decide +kernel

def forgedTranscript : Transcript := sampleTranscript "failed: x".toList

end ThawGate.Logs
