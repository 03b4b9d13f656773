import ThawGate.Lib.Codec

/-!
# Strings of 16-bit units

A JavaScript string is a list of 16-bit units in which surrogates may stand alone. Writing it as UTF-8 reads
the units as characters, a lone surrogate as the replacement character; reading UTF-8 gives each character its units. So
a string is the same as what was written of it exactly when it has no lone surrogate (`eq_ofUtf8_iff`).
-/

namespace Utf16

open Borsh

abbrev JsString := List UInt16

def isHigh (u : UInt16) : Bool := decide (0xD800 ≤ u.toNat) && decide (u.toNat < 0xDC00)

def isLow (u : UInt16) : Bool := decide (0xDC00 ≤ u.toNat) && decide (u.toNat < 0xE000)

/-- The character of a unit by itself. -/
def unitChar (u : UInt16) : Char := if isHigh u || isLow u then '\uFFFD' else Char.ofNat u.toNat

/-- The character of a surrogate pair. -/
def pairChar (high low : UInt16) : Char := Char.ofNat (0x10000 + (high.toNat - 0xD800) * 0x400 + (low.toNat - 0xDC00))

def toChars : JsString → List Char
  | [] => []
  | [u] => [unitChar u]
  | u :: v :: rest => if isHigh u && isLow v then pairChar u v :: toChars rest else unitChar u :: toChars (v :: rest)

def ofChar (c : Char) : JsString :=
  if c.toNat < 0x10000 then [UInt16.ofNat c.toNat]
  else [UInt16.ofNat (0xD800 + (c.toNat - 0x10000) / 0x400), UInt16.ofNat (0xDC00 + (c.toNat - 0x10000) % 0x400)]

def ofChars (cs : List Char) : JsString := cs.flatMap ofChar

/-- The string with its lone surrogates replaced. -/
def toWellFormed (s : JsString) : JsString := ofChars (toChars s)

/-! ### Units and characters -/

theorem toNat_ofNat {n : Nat} (h : n < 0x10000) : (UInt16.ofNat n).toNat = n := UInt16.toNat_ofNat_of_lt' h

theorem char_range (c : Char) : c.toNat < 0xD800 ∨ 0xDFFF < c.toNat ∧ c.toNat < 0x110000 := c.valid

theorem toChars_cons {u : UInt16} (hu : isHigh u = false) (rest : JsString) :
    toChars (u :: rest) = unitChar u :: toChars rest := by
  cases rest with
  | nil => rfl
  | cons v rest =>
    rw [toChars, hu, Bool.false_and]
    exact if_neg Bool.false_ne_true

theorem toChars_ofChar_append (c : Char) (rest : JsString) : toChars (ofChar c ++ rest) = c :: toChars rest := by
  have hrange := char_range c
  rw [ofChar]
  by_cases hbasic : c.toNat < 0x10000
  · -- one unit, which is no surrogate
    have hunit := toNat_ofNat hbasic
    have hhigh : isHigh (UInt16.ofNat c.toNat) = false := by
      rw [isHigh, hunit, Bool.and_eq_false_iff, decide_eq_false_iff_not, decide_eq_false_iff_not]
      omega
    have hlow : isLow (UInt16.ofNat c.toNat) = false := by
      rw [isLow, hunit, Bool.and_eq_false_iff, decide_eq_false_iff_not, decide_eq_false_iff_not]
      omega
    rw [if_pos hbasic, List.singleton_append, toChars_cons hhigh, unitChar, hhigh, hlow, hunit]
    exact congrArg (· :: _) (Char.ofNat_toNat c)
  · have hhigh : (UInt16.ofNat (0xD800 + (c.toNat - 0x10000) / 0x400)).toNat = 0xD800 + (c.toNat - 0x10000) / 0x400 :=
      toNat_ofNat (by omega)
    have hlow : (UInt16.ofNat (0xDC00 + (c.toNat - 0x10000) % 0x400)).toNat = 0xDC00 + (c.toNat - 0x10000) % 0x400 :=
      toNat_ofNat (by omega)
    have hpair : (isHigh (UInt16.ofNat (0xD800 + (c.toNat - 0x10000) / 0x400)) &&
        isLow (UInt16.ofNat (0xDC00 + (c.toNat - 0x10000) % 0x400))) = true := by
      rw [isHigh, isLow, hhigh, hlow]
      simp only [Bool.and_eq_true, decide_eq_true_eq]
      omega
    have hvalue : 0x10000 + (0xD800 + (c.toNat - 0x10000) / 0x400 - 0xD800) * 0x400 +
        (0xDC00 + (c.toNat - 0x10000) % 0x400 - 0xDC00) = c.toNat := by omega
    rw [if_neg hbasic, List.cons_append, List.singleton_append, toChars, if_pos hpair, pairChar, hhigh, hlow, hvalue]
    exact congrArg (· :: _) (Char.ofNat_toNat c)

@[simp] theorem toChars_ofChars (cs : List Char) : toChars (ofChars cs) = cs := by
  induction cs with
  | nil => rfl
  | cons c cs ih => rw [ofChars, List.flatMap_cons, toChars_ofChar_append, ← ofChars, ih]

/-! ### UTF-8 -/

/-- The UTF-8 encoding of characters. -/
def encode (cs : List Char) : Bytes := cs.flatMap String.utf8EncodeChar

/-- The characters of a UTF-8 encoding. -/
def decode? (bytes : Bytes) : Option (List Char) := bytes.toByteArray.utf8Decode?.map Array.toList

/-- `Buffer.from(s, "utf8")` -/
def utf8 (s : JsString) : Bytes := encode (toChars s)

/-- `buffer.toString("utf8")`; `replaced` is what it gives for bytes that are no UTF-8. -/
def ofUtf8 (replaced : Bytes → JsString) (bytes : Bytes) : JsString :=
  match decode? bytes with
  | some cs => ofChars cs
  | none => replaced bytes

theorem decode?_encode (cs : List Char) : decode? (encode cs) = some cs := by
  have hcs : (encode cs).toByteArray.utf8Decode? = some cs.toArray := List.utf8Decode?_utf8Encode
  rw [decode?, hcs]
  rfl

theorem encode_injective {cs cs' : List Char} (h : encode cs = encode cs') : cs = cs' := by
  have hsame := decode?_encode cs
  rw [h, decode?_encode] at hsame
  exact (Option.some.inj hsame).symm

theorem validateUTF8_encode (cs : List Char) : (encode cs).toByteArray.validateUTF8 = true := by
  rw [ByteArray.validateUTF8_eq_true_iff]
  exact ⟨cs, rfl⟩

/-- A Rust string is the encoding of some characters. -/
theorem exists_encode (s : Str) : ∃ cs, s.bytes = encode cs := by
  obtain ⟨cs, hcs⟩ := ByteArray.validateUTF8_eq_true_iff.1 s.utf8
  have hdata : s.bytes.toByteArray.data.toList = cs.utf8Encode.data.toList := by rw [hcs]
  exact ⟨cs, by simpa [encode, List.utf8Encode] using hdata⟩

/-- A string is what a Rust string's bytes are read as, if it is written as these and has no lone surrogate. -/
theorem eq_ofUtf8_iff (replaced : Bytes → JsString) (t : Str) (s : JsString) :
    s = ofUtf8 replaced t.bytes ↔ utf8 s = t.bytes ∧ toWellFormed s = s := by
  obtain ⟨cs, hcs⟩ := exists_encode t
  rw [hcs, ofUtf8, decode?_encode, utf8, toWellFormed]
  constructor
  · rintro rfl
    rw [toChars_ofChars]
    exact ⟨rfl, rfl⟩
  · rintro ⟨hutf8, hs⟩
    rw [encode_injective hutf8] at hs
    exact hs.symm

end Utf16
