import Mathlib.Data.Nat.Digits.Defs
import Mathlib.Tactic.Ring

/-!
# Byte strings

Slices of a byte string by offset, and little-endian numbers in both directions: `leNat` reads,
`leBytes` writes, and on strings of the right width they are inverse to each other.
-/

namespace Borsh

abbrev Bytes := List UInt8

/-! ### Slices -/

/-- The `n` bytes from offset `off` on; fewer when the string ends before. -/
def slice (data : Bytes) (off n : Nat) : Bytes := (data.drop off).take n

theorem slice_length {data : Bytes} {off n : Nat} (h : off + n ≤ data.length) :
    (slice data off n).length = n := by
  simp only [slice, List.length_take, List.length_drop]
  omega

theorem slice_append_drop (data : Bytes) (off n : Nat) :
    slice data off n ++ data.drop (off + n) = data.drop off := by
  rw [slice, ← List.drop_drop, List.take_append_drop]

/-- A slice that starts behind a prefix is a slice of the rest. -/
theorem getElem?_eq_slice {data : Bytes} {off : Nat} (h : off < data.length) :
    slice data off 1 = [data[off]] := by
  rw [slice, List.drop_eq_getElem_cons h]
  rfl

/-! ### Little-endian numbers -/

/-- The number a little-endian byte string spells. -/
def leNat (bs : Bytes) : Nat := Nat.ofDigits 256 (bs.map UInt8.toNat)

/-- The `w` low little-endian bytes of a number. -/
def leBytes : Nat → Nat → Bytes
  | 0, _ => []
  | w + 1, n => UInt8.ofNat n :: leBytes w (n / 256)

@[simp] theorem leNat_nil : leNat [] = 0 := rfl

@[simp] theorem leNat_cons (b : UInt8) (bs : Bytes) : leNat (b :: bs) = b.toNat + 256 * leNat bs := by
  simp [leNat, Nat.ofDigits_cons]

@[simp] theorem leBytes_length (w n : Nat) : (leBytes w n).length = w := by
  induction w generalizing n with
  | zero => rfl
  | succ w ih => simp [leBytes, ih]

theorem leNat_lt (bs : Bytes) : leNat bs < 256 ^ bs.length := by
  have h := Nat.ofDigits_lt_base_pow_length (b := 256) (l := bs.map UInt8.toNat) (by decide) (by
    intro x hx
    obtain ⟨b, -, rfl⟩ := List.mem_map.mp hx
    exact b.toNat_lt)
  simpa [leNat] using h

theorem leNat_leBytes {w n : Nat} (h : n < 256 ^ w) : leNat (leBytes w n) = n := by
  induction w generalizing n with
  | zero => simp only [pow_zero, Nat.lt_one_iff] at h; subst h; rfl
  | succ w ih =>
    have hdiv : n / 256 < 256 ^ w := by
      rw [pow_succ] at h
      omega
    rw [leBytes, leNat_cons, ih hdiv, UInt8.toNat_ofNat']
    omega

theorem leBytes_leNat (bs : Bytes) : leBytes bs.length (leNat bs) = bs := by
  induction bs with
  | nil => rfl
  | cons b bs ih =>
    have hb : b.toNat < 256 := b.toNat_lt
    have hdiv : (b.toNat + 256 * leNat bs) / 256 = leNat bs := by omega
    have hlow : UInt8.ofNat (b.toNat + 256 * leNat bs) = b := by
      apply UInt8.toNat_inj.mp
      rw [UInt8.toNat_ofNat']
      omega
    rw [List.length_cons, leBytes, leNat_cons, hdiv, ih, hlow]

end Borsh
