import ThawGate.Lib.Base64
import ThawGate.Logs.Lines

/-!
# Transcripts

What the runtime writes for the calls of a transaction. Each frame begins with an `invoke` line, holds
what its program logs and the frames of the programs it calls, and ends with a `success` or a `failed`
line. A program chooses the text of its `Program log:` lines, the bytes of its `Program data:` lines and its
return data; the rest of each line is the runtime's. The limit on a transaction's log bytes is not modelled: the
lines are all there.

`Transcript.entries` lists the lines, each with the frames that are open when it is written, and `Tracks` says of
such a list that its frames open and close as they should.
-/

namespace ThawGate.Logs

def base58 : Text := "123456789ABCDEFGHJKLMNPQRSTUVWXYZabcdefghijkmnopqrstuvwxyz".toList

/-- A program address in base58. -/
structure ProgramId where
  text : Text
  ne_nil : text ≠ []
  base58 : text.all (base58.contains ·) = true
  deriving DecidableEq

/-- The runtime's message of an error. -/
structure Message where
  text : Text
  oneLine : oneLine text = true
  deriving DecidableEq

/-- What a builtin program reports in words of its own, such as `Transfer: insufficient lamports 0, need 1`. -/
structure Note where
  text : Text
  other : text.dropPrefix? programPrefix = none

/-- A line inside a frame. -/
inductive Line
  | log (text : Text)
  | data (slices : List (List UInt8))
  | remaining (units : Nat)
  | consumed (program : ProgramId) (units budget : Nat)
  | returned (program : ProgramId) (bytes : List UInt8)
  | note (n : Note)

inductive Entry
  | invoke (program : ProgramId) (depth : Nat)
  | line (l : Line)
  | exit (program : ProgramId) (failure : Option Message)

/-- The slices of one `sol_log_data` call, as one text. -/
def dataText (slices : List (List UInt8)) : Text := List.intercalate [' '] (slices.map Base64.encode)

@[simp] theorem dataText_one (bytes : List UInt8) : dataText [bytes] = Base64.encode bytes := by
  simp [dataText, List.intercalate]

theorem dataText_cons (a b : List UInt8) (slices : List (List UInt8)) :
    dataText (a :: b :: slices) = Base64.encode a ++ ' ' :: dataText (b :: slices) := by
  simp [dataText, List.intercalate]

def Line.text : Line → Text
  | log text => programText "log:".toList text
  | data slices => programText "data:".toList (dataText slices)
  | remaining units => programText "consumption:".toList (Nat.toDigits 10 units ++ " units remaining".toList)
  | consumed program units budget => programText program.text ("consumed ".toList ++ Nat.toDigits 10 units ++
      " of ".toList ++ Nat.toDigits 10 budget ++ " compute units".toList)
  | returned program bytes => programText "return:".toList (program.text ++ ' ' :: Base64.encode bytes)
  | note n => n.text

def Entry.text : Entry → Text
  | invoke program depth => programText program.text ("invoke [".toList ++ (Nat.toDigits 10 depth ++ [']']))
  | line l => l.text
  | exit program none => programText program.text "success".toList
  | exit program (some message) => programText program.text ("failed: ".toList ++ message.text)

/-- What a program does inside its frame. -/
inductive Body
  | done
  | line (l : Line) (rest : Body)
  | call (program : ProgramId) (body : Body) (failure : Option Message) (rest : Body)

/-- The frame of a top-level instruction. -/
structure Frame where
  program : ProgramId
  body : Body
  failure : Option Message

abbrev Transcript := List Frame

/-- The lines of a body, each with the open frames, innermost first. -/
def Body.entries (path : List ProgramId) : Body → List (Entry × List ProgramId)
  | done => []
  | line l rest => (.line l, path) :: rest.entries path
  | call program body failure rest =>
    (.invoke program (path.length + 1), path) :: (body.entries (program :: path) ++
      (.exit program failure, program :: path) :: rest.entries path)

def Frame.entries (f : Frame) : List (Entry × List ProgramId) :=
  (Body.call f.program f.body f.failure .done).entries []

def Transcript.entries (t : Transcript) : List (Entry × List ProgramId) := t.flatMap Frame.entries

/-- The log lines of a transaction. -/
def Transcript.lines (t : Transcript) : List Text := t.entries.map (·.1.text)

/-! ### Open frames -/

/-- From the open frames `path` on, the lines open and close frames in order, up to the end of the last. -/
inductive Tracks : List ProgramId → List (Entry × List ProgramId) → Prop
  | done : Tracks [] []
  | invoke {program depth path rest} :
    Tracks (program :: path) rest → Tracks path ((.invoke program depth, path) :: rest)
  | line {l path rest} : path ≠ [] → Tracks path rest → Tracks path ((.line l, path) :: rest)
  | exit {program failure path rest} :
    Tracks path rest → Tracks (program :: path) ((.exit program failure, program :: path) :: rest)

theorem Body.tracks {body : Body} {path : List ProgramId} {rest : List (Entry × List ProgramId)} (hpath : path ≠ [])
    (h : Tracks path rest) : Tracks path (body.entries path ++ rest) := by
  induction body generalizing path rest with
  | done => exact h
  | line l body ih => exact .line hpath (ih hpath h)
  | call program inner failure body ihi ih =>
    rw [Body.entries, List.cons_append, List.append_assoc]
    exact .invoke (ihi (List.cons_ne_nil _ _) (.exit (ih hpath h)))

theorem Frame.tracks (f : Frame) {rest : List (Entry × List ProgramId)} (h : Tracks [] rest) :
    Tracks [] (f.entries ++ rest) := by
  rw [Frame.entries, Body.entries, List.cons_append, List.append_assoc]
  exact .invoke (Body.tracks (List.cons_ne_nil _ _) (.exit h))

theorem Transcript.tracks (t : Transcript) : Tracks [] t.entries := by
  induction t with
  | nil => exact .done
  | cons f t ih => exact f.tracks ih

/-- The next line is written in the frames that are open, and at the end there are none. -/
theorem Tracks.next {path : List ProgramId} {es : List (Entry × List ProgramId)} (h : Tracks path es)
    (hpath : path ≠ []) : ∃ e rest, es = (e, path) :: rest := by
  cases h with
  | done => exact absurd rfl hpath
  | invoke h => exact ⟨_, _, rfl⟩
  | line _ h => exact ⟨_, _, rfl⟩
  | exit h => exact ⟨_, _, rfl⟩

/-! ### The runtime's words -/

theorem ProgramId.mem_base58 (program : ProgramId) {c : Char} (h : c ∈ program.text) : c ∈ Logs.base58 :=
  List.contains_iff_mem.1 (List.all_eq_true.1 program.base58 c h)

theorem isWord_base58 (program : ProgramId) : IsWord program.text := by
  have hall : base58.all (!isSpace ·) = true := by decide
  exact ⟨program.ne_nil, List.all_eq_true.2 fun c hc => List.all_eq_true.1 hall c (program.mem_base58 hc)⟩

theorem ProgramId.ext_text {p q : ProgramId} (h : p.text = q.text) : p = q := by
  cases p
  cases q
  congr

theorem invokeLine_invoke (program : ProgramId) (depth : Nat) :
    invokeLine (Entry.invoke program depth).text = some program.text := by
  rw [Entry.text, invokeLine_text (isWord_base58 program), isInvokeTail_depth, if_pos rfl]

end ThawGate.Logs
