import Mathlib.Data.List.Basic

/-!
# Base64

Encoding with padding, and decoding as Node's `Buffer.from(text, "base64")` does it: both alphabets
are read up to the first `=`, every other character is skipped, and a last group that is too short for a
byte is dropped.
-/

namespace Base64

def alphabet : List Char := "ABCDEFGHIJKLMNOPQRSTUVWXYZabcdefghijklmnopqrstuvwxyz0123456789+/".toList

def letter (n : Nat) : Char := alphabet.getD n 'A'

/-- The six bits of a letter of either alphabet. -/
def value (c : Char) : Option Nat :=
  if c = '-' then some 62 else if c = '_' then some 63 else alphabet.idxOf? c

def encode : List UInt8 → List Char
  | [] => []
  | [a] => [letter (a.toNat / 4), letter (a.toNat % 4 * 16), '=', '=']
  | [a, b] => [letter (a.toNat / 4), letter (a.toNat % 4 * 16 + b.toNat / 16), letter (b.toNat % 16 * 4), '=']
  | a :: b :: c :: rest =>
    letter (a.toNat / 4) :: letter (a.toNat % 4 * 16 + b.toNat / 16) ::
      letter (b.toNat % 16 * 4 + c.toNat / 64) :: letter (c.toNat % 64) :: encode rest

/-- Four groups of six bits are three bytes. -/
def bytesOf : List Nat → List UInt8
  | w :: x :: y :: z :: rest =>
    .ofNat (w * 4 + x / 16) :: .ofNat (x % 16 * 16 + y / 4) :: .ofNat (y % 4 * 64 + z) :: bytesOf rest
  | [w, x, y] => [.ofNat (w * 4 + x / 16), .ofNat (x % 16 * 16 + y / 4)]
  | [w, x] => [.ofNat (w * 4 + x / 16)]
  | _ => []

/-- The groups of six bits that are read: a `=` ends the text, also in its middle. -/
def groups (text : List Char) : List Nat := (text.takeWhile (· != '=')).filterMap value

def decode (text : List Char) : List UInt8 := bytesOf (groups text)

@[simp] theorem value_letter {n : Nat} (h : n < 64) : value (letter n) = some n := by
  have hall : ∀ k : Fin 64, value (letter k) = some k.1 := by decide +kernel
  exact hall ⟨n, h⟩

@[simp] theorem value_pad : value '=' = none := by decide

theorem letter_mem (n : Nat) : letter n ∈ alphabet := by
  rw [letter, List.getD_eq_getElem?_getD]
  cases h : alphabet[n]? with
  | none => decide
  | some c => exact List.mem_of_getElem? h

theorem mem_encode {bs : List UInt8} {c : Char} (h : c ∈ encode bs) : c ∈ alphabet ∨ c = '=' := by
  induction bs using encode.induct with
  | case1 => cases h
  | case2 a =>
    simp only [encode, List.mem_cons, List.not_mem_nil, or_false] at h
    rcases h with rfl | rfl | rfl | rfl
    exacts [.inl (letter_mem _), .inl (letter_mem _), .inr rfl, .inr rfl]
  | case3 a b =>
    simp only [encode, List.mem_cons, List.not_mem_nil, or_false] at h
    rcases h with rfl | rfl | rfl | rfl
    exacts [.inl (letter_mem _), .inl (letter_mem _), .inl (letter_mem _), .inr rfl]
  | case4 a b d rest ih =>
    simp only [encode, List.mem_cons] at h
    rcases h with rfl | rfl | rfl | rfl | h
    exacts [.inl (letter_mem _), .inl (letter_mem _), .inl (letter_mem _), .inl (letter_mem _), ih h]

theorem length_encode (bs : List UInt8) : (encode bs).length % 4 = 0 := by
  induction bs using encode.induct with
  | case1 => rfl
  | case2 a => simp only [encode, List.length_cons, List.length_nil]
  | case3 a b => simp only [encode, List.length_cons, List.length_nil]
  | case4 a b c rest ih =>
    simp only [encode, List.length_cons]
    omega

/-! ### Decoding what was encoded -/

theorem groups_letter {n : Nat} (h : n < 64) (rest : List Char) : groups (letter n :: rest) = n :: groups rest := by
  have hvalue := value_letter h
  have hpad : (letter n != '=') = true := by
    rw [bne_iff_ne]
    intro heq
    rw [heq, value_pad] at hvalue
    cases hvalue
  unfold groups
  rw [List.takeWhile_cons, if_pos hpad, List.filterMap_cons_some hvalue]

theorem groups_pad (rest : List Char) : groups ('=' :: rest) = [] := rfl

theorem groups_skip {c : Char} (hpad : c ≠ '=') (hvalue : value c = none) (rest : List Char) :
    groups (c :: rest) = groups rest := by
  unfold groups
  rw [List.takeWhile_cons, if_pos (bne_iff_ne.2 hpad), List.filterMap_cons_none hvalue]

/-- Behind bytes that need no padding the decoder reads on; padding is where it stops. -/
theorem decode_append (bs : List UInt8) (rest : List Char) :
    decode (encode bs ++ rest) = if bs.length % 3 = 0 then bs ++ decode rest else bs := by
  have hbyte {a : UInt8} {n : Nat} (h : n = a.toNat) : UInt8.ofNat n = a := by rw [h, UInt8.ofNat_toNat]
  induction bs using encode.induct with
  | case1 => rfl
  | case2 a =>
    have ha := a.toNat_lt
    have hlength : ¬[a].length % 3 = 0 := Nat.one_ne_zero
    rw [encode, if_neg hlength]
    simp only [decode, List.cons_append, List.nil_append]
    rw [groups_letter (by omega), groups_letter (by omega), groups_pad, bytesOf, hbyte (a := a) (by omega)]
  | case3 a b =>
    have ha := a.toNat_lt
    have hb := b.toNat_lt
    have hlength : ¬[a, b].length % 3 = 0 := Nat.succ_ne_zero 1
    rw [encode, if_neg hlength]
    simp only [decode, List.cons_append, List.nil_append]
    rw [groups_letter (by omega), groups_letter (by omega), groups_letter (by omega), groups_pad, bytesOf,
      hbyte (a := a) (by omega), hbyte (a := b) (by omega)]
  | case4 a b c bs ih =>
    have ha := a.toNat_lt
    have hb := b.toNat_lt
    have hc := c.toNat_lt
    have hlength : (a :: b :: c :: bs).length % 3 = bs.length % 3 := Nat.add_mod_right _ 3
    rw [encode, hlength]
    simp only [decode, List.cons_append] at ih ⊢
    rw [groups_letter (by omega), groups_letter (by omega), groups_letter (by omega), groups_letter (by omega),
      bytesOf, ih]
    rw [hbyte (a := a) (by omega), hbyte (a := b) (by omega), hbyte (a := c) (by omega)]
    by_cases h : bs.length % 3 = 0
    · rw [if_pos h, if_pos h]
    · rw [if_neg h, if_neg h]

theorem decode_encode (bs : List UInt8) : decode (encode bs) = bs := by
  have happend := decode_append bs []
  have hnil : decode [] = [] := rfl
  rwa [List.append_nil, hnil, List.append_nil, ite_self] at happend

theorem decode_skip {c : Char} (hpad : c ≠ '=') (hvalue : value c = none) (rest : List Char) :
    decode (c :: rest) = decode rest := congrArg bytesOf (groups_skip hpad hvalue rest)

end Base64
