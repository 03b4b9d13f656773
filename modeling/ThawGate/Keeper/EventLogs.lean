import ThawGate.Logs.Frames

/-!
# Event logs

`programDataLogs` of the keeper's `accounts.ts`. An Anchor `emit!` logs `Program data: <base64>` inside the
emitting program's frame.
-/

namespace ThawGate.Keeper

open Logs

/-- `(success|failed)`, with anything behind it. -/
def startsExit (tail : Text) : Bool := "success".toList.isPrefixOf tail || "failed".toList.isPrefixOf tail

/-- `/^Program \S+ (success|failed)/` -/
def exitLine (line : Text) : Bool := (programLine line).any fun (_, tail) => startsExit tail

/-- The bytes of a `Program data: ` line. -/
def dataLine (line : Text) : Option (List UInt8) := (line.dropPrefix? "Program data: ".toList).map Base64.decode

section lines

variable {word : Text} (h : IsWord word) (tail : Text)
include h

theorem exitLine_text : exitLine (programText word tail) = startsExit tail := by
  rw [exitLine, programLine_text h, Option.any_some]

theorem dataLine_text : dataLine (programText word tail) =
    if word = "data:".toList then some (Base64.decode tail) else none := by
  rw [dataLine, dropPrefix?_text h ⟨by decide, by decide⟩ (by decide : _ = programPrefix ++ ("data:".toList ++ [' ']))]
  by_cases hword : word = "data:".toList
  · rw [if_pos hword, if_pos hword, Option.map_some]
  · rw [if_neg hword, if_neg hword, Option.map_none]

end lines

theorem startsExit_cons {c : Char} (hs : c ≠ 's') (hf : c ≠ 'f') (tail : Text) : startsExit (c :: tail) = false := by
  have hsuccess : ("success".toList).isPrefixOf (c :: tail) = false := by
    show ('s' == c && _) = false
    rw [beq_false_of_ne hs.symm, Bool.false_and]
  have hfailed : ("failed".toList).isPrefixOf (c :: tail) = false := by
    show ('f' == c && _) = false
    rw [beq_false_of_ne hf.symm, Bool.false_and]
  rw [startsExit, hsuccess, hfailed]
  rfl

/-- A word without blanks is a prefix of a text only within the text's first word. -/
theorem isPrefixOf_blank {word : Text} (h : ' ' ∉ word) (first rest : Text) :
    word.isPrefixOf (first ++ ' ' :: rest) = word.isPrefixOf first := by
  induction word generalizing first with
  | nil => rfl
  | cons c word ih =>
    rw [List.mem_cons, not_or] at h
    cases first with
    | nil =>
      show (c == ' ' && _) = false
      rw [beq_false_of_ne (Ne.symm h.1), Bool.false_and]
    | cons d first =>
      show (c == d && word.isPrefixOf (first ++ ' ' :: rest)) = (c == d && word.isPrefixOf first)
      rw [ih h.2]

theorem startsExit_blank (first rest : Text) : startsExit (first ++ ' ' :: rest) = startsExit first := by
  rw [startsExit, isPrefixOf_blank (by decide), isPrefixOf_blank (by decide), startsExit]

/-- The loop's variables. -/
structure DataScan where
  stack : List Text
  out : List (List UInt8)
  deriving DecidableEq

/-- The loop's body. -/
def DataScan.read (program : Text) (s : DataScan) (line : Text) : DataScan :=
  match invokeLine line with
  | some invoked => { s with stack := invoked :: s.stack }
  | none =>
    if exitLine line then { s with stack := s.stack.tail }
    else
      match dataLine line with
      | some bytes => if s.stack.head? = some program then { s with out := s.out ++ [bytes] } else s
      | none => s

theorem DataScan.read_stack (program : Text) (s : DataScan) (line : Text) :
    (s.read program line).stack = stackAfter exitLine line s.stack := by
  rw [DataScan.read, stackAfter]
  cases invokeLine line with
  | some invoked => rfl
  | none =>
    dsimp only
    by_cases hexit : exitLine line = true
    · rw [if_pos hexit, if_pos hexit]
    · rw [if_neg hexit, if_neg hexit]
      cases dataLine line with
      | none => rfl
      | some bytes =>
        dsimp only
        rw [apply_ite DataScan.stack, ite_self]

theorem DataScan.read_quiet {program : Text} {s : DataScan} {line : Text} (h : Quiet exitLine line) :
    s.read program line = { s with
      out := s.out ++ if s.stack.head? = some program then (dataLine line).toList else [] } := by
  obtain ⟨hinvoke, hexit⟩ := h
  rw [DataScan.read, hinvoke]
  dsimp only
  rw [hexit, if_neg Bool.false_ne_true]
  by_cases htop : s.stack.head? = some program
  · cases dataLine line with
    | none => simp
    | some bytes =>
      dsimp only
      rw [if_pos htop, if_pos htop, Option.toList_some]
  · cases dataLine line with
    | none => simp
    | some bytes =>
      dsimp only
      rw [if_neg htop, if_neg htop, List.append_nil]

def scanProgramData (logs : List Text) (program : Text) : DataScan := logs.foldl (DataScan.read program) ⟨[], []⟩

theorem scanProgramData_stack (logs : List Text) (program : Text) :
    (scanProgramData logs program).stack = logs.foldl (fun stack line => stackAfter exitLine line stack) [] := by
  rw [scanProgramData]
  exact (List.foldl_hom DataScan.stack fun s line => (s.read_stack program line).symm).symm

/-- `Program data:` payloads logged inside `program`'s own frames (not its CPIs' frames). -/
def programDataLogs (logs : List Text) (program : Text) : List (List UInt8) := (scanProgramData logs program).out

end ThawGate.Keeper
