import Mathlib.Data.Nat.Digits.Defs
import Mathlib.Data.List.Basic
import Mathlib.Data.UInt

/-!
# Base58

The digits of the bytes as one number, most significant first, behind a `1` for each leading zero byte.
-/

namespace Base58

def alphabet : List Char := "123456789ABCDEFGHJKLMNPQRSTUVWXYZabcdefghijkmnopqrstuvwxyz".toList

def letter (n : Nat) : Char := alphabet.getD n '1'

/-- The bytes as a big-endian number. -/
def number (bytes : List UInt8) : Nat := Nat.ofDigits 256 (bytes.reverse.map UInt8.toNat)

def encode (bytes : List UInt8) : List Char :=
  (bytes.takeWhile (· = 0)).map (fun _ => '1') ++ (Nat.digits 58 (number bytes)).reverse.map letter

theorem letter_mem (n : Nat) : letter n ∈ alphabet := by
  rw [letter, List.getD_eq_getElem?_getD]
  cases h : alphabet[n]? with
  | none => decide
  | some c => exact List.mem_of_getElem? h

theorem mem_encode {bytes : List UInt8} {c : Char} (h : c ∈ encode bytes) : c ∈ alphabet := by
  rcases List.mem_append.1 h with h | h
  · obtain ⟨-, -, rfl⟩ := List.mem_map.1 h
    decide
  · obtain ⟨n, -, rfl⟩ := List.mem_map.1 h
    exact letter_mem n

theorem encode_ne_nil {bytes : List UInt8} (h : bytes ≠ []) : encode bytes ≠ [] := by
  obtain ⟨b, rest, rfl⟩ := List.exists_cons_of_ne_nil h
  intro hnil
  obtain ⟨hzeros, hdigits⟩ := List.append_eq_nil_iff.1 hnil
  by_cases hb : b = 0
  · rw [List.takeWhile_cons_of_pos (by simpa using hb)] at hzeros
    cases hzeros
  · have hnumber : number (b :: rest) = 0 := by
      rw [List.map_eq_nil_iff, List.reverse_eq_nil_iff] at hdigits
      exact Nat.digits_eq_nil_iff_eq_zero.1 hdigits
    rw [number, List.reverse_cons, List.map_append, Nat.ofDigits_append, Nat.add_eq_zero_iff] at hnumber
    have hfirst := hnumber.2
    simp only [List.map_cons, List.map_nil, Nat.ofDigits_singleton, Nat.mul_eq_zero] at hfirst
    rcases hfirst with hfirst | hfirst
    · exact absurd hfirst (Nat.pow_pos (by decide)).ne'
    · exact hb (UInt8.toNat_inj.1 hfirst)

end Base58
