import Mathlib.Data.List.Basic

/-!
# Log lines and regular expressions

A log line is its list of characters. The readers of transaction logs match a line against
`^Program (\S+) …`: `\S+` has to end at the blank that follows it, so it is the longest run without
white space, and what stands behind the blank decides the rest of the match.
-/

namespace ThawGate.Logs

abbrev Text := List Char

/-- `\s` of a JavaScript regular expression. -/
def isSpace (c : Char) : Bool :=
  [0x9, 0xA, 0xB, 0xC, 0xD, 0x20, 0xA0, 0x1680, 0x2000, 0x2001, 0x2002, 0x2003, 0x2004, 0x2005, 0x2006,
    0x2007, 0x2008, 0x2009, 0x200A, 0x2028, 0x2029, 0x202F, 0x205F, 0x3000, 0xFEFF].contains c.toNat

/-- The characters that `.` does not match. -/
def isLineTerminator (c : Char) : Bool := [0xA, 0xD, 0x2028, 0x2029].contains c.toNat

/-- `.*$` matches the whole text. -/
def oneLine (text : Text) : Bool := text.all (!isLineTerminator ·)

def programPrefix : Text := "Program ".toList

/-- `^Program (\S+) (…)`: the word, and what stands behind the blank after it. -/
def programLine (line : Text) : Option (Text × Text) :=
  (line.dropPrefix? programPrefix).bind fun rest =>
    match rest.takeWhile (!isSpace ·), rest.dropWhile (!isSpace ·) with
    | c :: word, ' ' :: tail => some (c :: word, tail)
    | _, _ => none

/-- `invoke \[\d+\]$` -/
def isInvokeTail (tail : Text) : Bool :=
  (tail.dropPrefix? "invoke [".toList).any fun rest =>
    rest.takeWhile Char.isDigit != [] && rest.dropWhile Char.isDigit == [']']

/-- The expression `^Program (\S+) invoke \[\d+\]$` of both readers. -/
def invokeLine (line : Text) : Option Text :=
  (programLine line).bind fun (word, tail) => if isInvokeTail tail then some word else none

/-- The line `Program <word> <tail>`. -/
def programText (word tail : Text) : Text := programPrefix ++ (word ++ ' ' :: tail)

/-- A word of a program line. -/
def IsWord (word : Text) : Prop := word ≠ [] ∧ word.all (!isSpace ·) = true

theorem dropPrefix?_append (pre rest : Text) : (pre ++ rest).dropPrefix? pre = some rest :=
  List.dropPrefix?_eq_some_iff.2 ⟨pre, rfl, by simp⟩

theorem dropPrefix?_eq_some {text pre rest : Text} : text.dropPrefix? pre = some rest ↔ text = pre ++ rest := by
  rw [List.dropPrefix?_eq_some_iff]
  constructor
  · rintro ⟨pre', rfl, h⟩
    rw [beq_iff_eq.1 h]
  · rintro rfl
    exact ⟨pre, rfl, by simp⟩

theorem programLine_text {word : Text} (h : IsWord word) (tail : Text) :
    programLine (programText word tail) = some (word, tail) := by
  obtain ⟨hne, hspace⟩ := h
  have hword : ∀ c ∈ word, (!isSpace c) = true := List.all_eq_true.1 hspace
  have htake : (word ++ ' ' :: tail).takeWhile (!isSpace ·) = word := by
    rw [List.takeWhile_append_of_pos hword, List.takeWhile_cons_of_neg (by decide), List.append_nil]
  have hdrop : (word ++ ' ' :: tail).dropWhile (!isSpace ·) = ' ' :: tail := by
    rw [List.dropWhile_append_of_pos hword, List.dropWhile_cons_of_neg (by decide)]
  have hprefix : (programText word tail).dropPrefix? programPrefix = some (word ++ ' ' :: tail) :=
    dropPrefix?_append _ _
  rw [programLine, hprefix, Option.bind_some, htake, hdrop]
  cases word with
  | nil => exact absurd rfl hne
  | cons c word => rfl

theorem invokeLine_text {word : Text} (h : IsWord word) (tail : Text) :
    invokeLine (programText word tail) = if isInvokeTail tail then some word else none := by
  rw [invokeLine, programLine_text h, Option.bind_some]

/-- Only a line of the word `word₀` begins with `Program <word₀> `. -/
theorem dropPrefix?_text {word word₀ pre : Text} (h : IsWord word) (h₀ : IsWord word₀)
    (hpre : pre = programPrefix ++ (word₀ ++ [' '])) (tail : Text) :
    (programText word tail).dropPrefix? pre = if word = word₀ then some tail else none := by
  have htext (tail : Text) : programText word₀ tail = pre ++ tail := by
    rw [hpre, programText, List.append_assoc, List.append_assoc, List.singleton_append]
  by_cases hword : word = word₀
  · rw [if_pos hword, hword, htext, dropPrefix?_append]
  · rw [if_neg hword]
    cases hrest : (programText word tail).dropPrefix? pre with
    | none => rfl
    | some rest =>
      rw [dropPrefix?_eq_some, ← htext] at hrest
      have hsame := congrArg programLine hrest
      rw [programLine_text h, programLine_text h₀] at hsame
      exact absurd (congrArg Prod.fst (Option.some.inj hsame)) hword

/-- Decimal digits in brackets behind `invoke `. -/
theorem isInvokeTail_depth (n : Nat) : isInvokeTail ("invoke [".toList ++ (Nat.toDigits 10 n ++ [']'])) = true := by
  have hdigits : ∀ c ∈ Nat.toDigits 10 n, c.isDigit = true := fun c hc =>
    Nat.isDigit_of_mem_toDigits (by decide) (by decide) hc
  rw [isInvokeTail, dropPrefix?_append, Option.any_some, List.takeWhile_append_of_pos hdigits,
    List.dropWhile_append_of_pos hdigits]
  rw [List.takeWhile_cons_of_neg (by decide), List.append_nil, List.dropWhile_cons_of_neg (by decide)]
  simp [Nat.toDigits_ne_nil]

/-- A tail without a bracket is none of an invoke line. -/
theorem isInvokeTail_of_not_mem {tail : Text} (h : '[' ∉ tail) : isInvokeTail tail = false := by
  rw [isInvokeTail]
  cases hrest : tail.dropPrefix? "invoke [".toList with
  | none => rfl
  | some rest =>
    rw [dropPrefix?_eq_some] at hrest
    exact absurd (by rw [hrest]; exact List.mem_append_left _ (by decide)) h

end ThawGate.Logs
