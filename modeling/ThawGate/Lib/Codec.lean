import ThawGate.Lib.Bytes

/-!
# Borsh codecs

A `Codec` is an encoder and a decoder with one law: decoding a string succeeds with `a` exactly
when the string is the encoding of `a` and a rest. Both round trips, and that no encoding is a
proper prefix of another, are read off that law. The Borsh types are built from `chunk` (a fixed
number of bytes) by `pmap` (a partial bijection) and `prod` (one field after the other), so the
law holds of a record's codec by construction.

The second half says what the decoders do at an offset of a string (`*_at`): this is how a
hand-written reader of the same layout, working with offsets, is compared with a decoder.
-/

namespace Borsh

/-- An encoding of the values of `α` as byte strings, and its decoder. -/
structure Codec (α : Type) where
  enc : α → Bytes
  dec : Bytes → Option (α × Bytes)
  dec_iff : ∀ bs a rest, dec bs = some (a, rest) ↔ bs = enc a ++ rest

namespace Codec

variable {α β : Type}

@[simp] theorem dec_enc (c : Codec α) (a : α) (rest : Bytes) :
    c.dec (c.enc a ++ rest) = some (a, rest) :=
  (c.dec_iff _ _ _).2 rfl

/-! ### Combinators -/

/-- The same bytes under a partial bijection. -/
def pmap (c : Codec α) (f : α → Option β) (g : β → α) (h : ∀ a b, f a = some b ↔ a = g b) :
    Codec β where
  enc b := c.enc (g b)
  dec bs := (c.dec bs).bind fun p => (f p.1).map fun b => (b, p.2)
  dec_iff bs b rest := by
    constructor
    · intro hdec
      obtain ⟨⟨a, r⟩, hc, hf⟩ := Option.bind_eq_some_iff.1 hdec
      obtain ⟨b', hb, heq⟩ := Option.map_eq_some_iff.1 hf
      obtain ⟨rfl, rfl⟩ := Prod.mk.inj heq
      obtain rfl : a = g b' := (h _ _).1 hb
      exact (c.dec_iff _ _ _).1 hc
    · rintro rfl
      simp [(h _ _).2 rfl]

/-- One value after the other. -/
def prod (c : Codec α) (d : Codec β) : Codec (α × β) where
  enc p := c.enc p.1 ++ d.enc p.2
  dec bs := (c.dec bs).bind fun p => (d.dec p.2).map fun q => ((p.1, q.1), q.2)
  dec_iff bs p rest := by
    constructor
    · intro hdec
      obtain ⟨⟨a, r⟩, hc, hd⟩ := Option.bind_eq_some_iff.1 hdec
      obtain ⟨⟨b, s⟩, hd', heq⟩ := Option.map_eq_some_iff.1 hd
      obtain ⟨rfl, rfl⟩ := Prod.mk.inj heq
      have hr : r = d.enc b ++ s := (d.dec_iff _ _ _).1 hd'
      rw [(c.dec_iff _ _ _).1 hc, hr, List.append_assoc]
    · rintro rfl
      simp

theorem pmap_dec_iff {c : Codec α} {f : α → Option β} {g : β → α}
    {h : ∀ a b, f a = some b ↔ a = g b} {bs : Bytes} {b : β} {rest : Bytes} :
    (c.pmap f g h).dec bs = some (b, rest) ↔ c.dec bs = some (g b, rest) := by
  rw [dec_iff, dec_iff]
  rfl

theorem prod_dec_iff {c : Codec α} {d : Codec β} {bs : Bytes} {a : α} {b : β} {rest : Bytes} :
    (c.prod d).dec bs = some ((a, b), rest) ↔
      ∃ mid, c.dec bs = some (a, mid) ∧ d.dec mid = some (b, rest) := by
  constructor
  · intro h
    refine ⟨d.enc b ++ rest, ?_, d.dec_enc b rest⟩
    rw [dec_iff] at h ⊢
    rw [h, prod, List.append_assoc]
  · rintro ⟨mid, hc, hd⟩
    rw [dec_iff] at hc hd ⊢
    rw [hc, hd, prod, List.append_assoc]

end Codec

/-! ### Primitive types -/

/-- A byte string of length `n`. -/
abbrev Chunk (n : Nat) := { bs : Bytes // bs.length = n }

/-- A Rust `String`: UTF-8 bytes, of a length Borsh can write. -/
structure Str where
  bytes : Bytes
  utf8 : bytes.toByteArray.validateUTF8 = true
  length_lt : bytes.length < 256 ^ 4
  deriving DecidableEq

/-- `String::new()`. -/
def Str.empty : Str := ⟨[], by decide, by decide⟩

namespace Codec

/-- `n` raw bytes, `[u8; n]`. -/
def chunk (n : Nat) : Codec (Chunk n) where
  enc c := c.1
  dec bs := if h : n ≤ bs.length then some (⟨bs.take n, by simp [h]⟩, bs.drop n) else none
  dec_iff bs c rest := by
    obtain ⟨c, hc⟩ := c
    constructor
    · intro h
      split_ifs at h with hn
      obtain ⟨h₁, h₂⟩ := Prod.mk.inj (Option.some.inj h)
      obtain rfl := Subtype.mk.inj h₁
      rw [← h₂, List.take_append_drop]
    · rintro rfl
      have hn : n ≤ (c ++ rest).length := by simp [hc]
      subst hc
      rw [dif_pos hn]
      simp

theorem one_byte (c : Chunk 1) : ∃ b, c = ⟨[b], rfl⟩ := by
  obtain ⟨bs, h⟩ := c
  match bs, h with
  | [b], _ => exact ⟨b, rfl⟩

/-- `u8`. -/
def u8 : Codec UInt8 :=
  (chunk 1).pmap (fun c => c.1.head?) (fun b => ⟨[b], rfl⟩) (by
    intro c b
    obtain ⟨d, rfl⟩ := one_byte c
    simp)

/-- `bool`: one byte, 0 or 1. -/
def bool : Codec Bool :=
  u8.pmap (fun b => if b = 0 then some false else if b = 1 then some true else none)
    (fun b => if b then 1 else 0) (by
      intro a b
      cases b <;> split_ifs <;> simp_all)

/-- A little-endian unsigned number of `w` bytes. -/
def le (w : Nat) : Codec { n : Nat // n < 256 ^ w } :=
  (chunk w).pmap (fun c => some ⟨leNat c.1, by simpa [c.2] using leNat_lt c.1⟩)
    (fun n => ⟨leBytes w n.1, leBytes_length w n.1⟩) (by
      rintro ⟨bs, rfl⟩ ⟨n, hn⟩
      simp only [Option.some.injEq, Subtype.mk.injEq]
      constructor
      · rintro rfl
        exact (leBytes_leNat bs).symm
      · intro h
        rw [h, leNat_leBytes hn])

/-- `u64`. -/
def u64 : Codec UInt64 :=
  (le 8).pmap (fun n => some (UInt64.ofNat n.1)) (fun n => ⟨n.toNat, n.toNat_lt⟩) (by
    rintro ⟨n, hn⟩ m
    simp only [Option.some.injEq, Subtype.mk.injEq]
    constructor
    · rintro rfl
      exact (UInt64.toNat_ofNat_of_lt' hn).symm
    · rintro rfl
      exact UInt64.ofNat_toNat)

/-- `i64`, two's complement. -/
def i64 : Codec Int64 :=
  u64.pmap (fun n => some n.toInt64) Int64.toUInt64 (by
    intro a b
    simp only [Option.some.injEq]
    constructor
    · rintro rfl
      exact (UInt64.toUInt64_toInt64 a).symm
    · rintro rfl
      exact Int64.toInt64_toUInt64 b)

/-- A `u32` length and that many bytes, `Vec<u8>`. -/
def vec : Codec { bs : Bytes // bs.length < 256 ^ 4 } where
  enc v := (le 4).enc ⟨v.1.length, v.2⟩ ++ v.1
  dec bs := ((le 4).dec bs).bind fun p =>
    ((chunk p.1.1).dec p.2).map fun q => (⟨q.1.1, by rw [q.1.2]; exact p.1.2⟩, q.2)
  dec_iff bs v rest := by
    obtain ⟨v, hv⟩ := v
    constructor
    · intro h
      obtain ⟨⟨n, mid⟩, hlen, h⟩ := Option.bind_eq_some_iff.1 h
      obtain ⟨⟨c, tail⟩, hchunk, h⟩ := Option.map_eq_some_iff.1 h
      obtain ⟨h₁, rfl⟩ := Prod.mk.inj h
      obtain rfl := Subtype.mk.inj h₁
      have hmid : mid = c.1 ++ tail := (dec_iff _ _ _ _).1 hchunk
      have hn : (le 4).enc n = (le 4).enc ⟨c.1.length, hv⟩ := congrArg _ (Subtype.ext c.2.symm)
      rw [(dec_iff _ _ _ _).1 hlen, hmid, hn, List.append_assoc]
    · rintro rfl
      have hchunk : (chunk v.length).dec (v ++ rest) = some (⟨v, rfl⟩, rest) :=
        (chunk v.length).dec_enc ⟨v, rfl⟩ rest
      simp [List.append_assoc, hchunk]

/-- `String`: a `Vec<u8>` that `String::from_utf8` accepts. -/
def str : Codec Str :=
  vec.pmap (fun v => if h : v.1.toByteArray.validateUTF8 = true then some ⟨v.1, h, v.2⟩ else none)
    (fun s => ⟨s.bytes, s.length_lt⟩) (by
      rintro ⟨v, hv⟩ ⟨s, hs, hlt⟩
      simp only [Option.dite_none_right_eq_some, Option.some.injEq, Str.mk.injEq, Subtype.mk.injEq,
        exists_prop, and_iff_right_iff_imp]
      rintro rfl
      exact hs)

/-! ### Fixed sizes -/

/-- Every value is encoded in `n` bytes. -/
def Sized {α : Type} (c : Codec α) (n : Nat) : Prop := ∀ a, (c.enc a).length = n

section sized

variable {α β : Type} {c : Codec α} {d : Codec β} {n m : Nat}

theorem Sized.pmap {f : α → Option β} {g : β → α} {h : ∀ a b, f a = some b ↔ a = g b}
    (hc : c.Sized n) : (c.pmap f g h).Sized n :=
  fun b => hc (g b)

theorem Sized.prod (hc : c.Sized n) (hd : d.Sized m) : (c.prod d).Sized (n + m) :=
  fun p => (List.length_append ..).trans (congrArg₂ _ (hc p.1) (hd p.2))

theorem chunk_sized (n : Nat) : (chunk n).Sized n := fun c => c.2

theorem u8_sized : u8.Sized 1 := (chunk_sized 1).pmap

theorem bool_sized : bool.Sized 1 := u8_sized.pmap

end sized

/-! ### Decoding at an offset -/

section offset

variable {data : Bytes} {off : Nat} {r : Bytes}

theorem chunk_at {n : Nat} (hn : 0 < n) {c : Chunk n} :
    (chunk n).dec (data.drop off) = some (c, r) ↔
      off + n ≤ data.length ∧ c.1 = slice data off n ∧ r = data.drop (off + n) := by
  obtain ⟨c, rfl⟩ := c
  rw [dec_iff]
  change data.drop off = c ++ r ↔ _
  constructor
  · intro h
    have hlen : data.length - off = c.length + r.length := by
      rw [← List.length_drop, h, List.length_append]
    refine ⟨by omega, ?_, ?_⟩
    · rw [slice, h, List.take_left]
    · rw [← List.drop_drop, h, List.drop_left]
  · rintro ⟨-, hc, rfl⟩
    rw [← slice_append_drop data off c.length]
    exact congrArg (· ++ _) hc.symm

theorem u8_at {b : UInt8} :
    u8.dec (data.drop off) = some (b, r) ↔ data[off]? = some b ∧ r = data.drop (off + 1) := by
  rw [u8, pmap_dec_iff, chunk_at Nat.one_pos]
  constructor
  · rintro ⟨hle, hb, rfl⟩
    rw [getElem?_eq_slice hle] at hb
    exact ⟨List.getElem?_eq_some_iff.2 ⟨hle, (List.singleton_inj.1 hb).symm⟩, rfl⟩
  · rintro ⟨hb, rfl⟩
    obtain ⟨hlt, rfl⟩ := List.getElem?_eq_some_iff.1 hb
    exact ⟨hlt, (getElem?_eq_slice hlt).symm, rfl⟩

theorem bool_at {b : Bool} :
    bool.dec (data.drop off) = some (b, r) ↔
      data[off]? = some (if b then 1 else 0) ∧ r = data.drop (off + 1) := by
  rw [bool, pmap_dec_iff, u8_at]

theorem le_at {w : Nat} (hw : 0 < w) {n : { n : Nat // n < 256 ^ w }} :
    (le w).dec (data.drop off) = some (n, r) ↔
      off + w ≤ data.length ∧ n.1 = leNat (slice data off w) ∧ r = data.drop (off + w) := by
  obtain ⟨n, hn⟩ := n
  rw [le, pmap_dec_iff, chunk_at hw]
  refine and_congr_right fun hle => and_congr_left fun _ => ?_
  constructor
  · intro h
    rw [← h]
    exact (leNat_leBytes hn).symm
  · rintro rfl
    have hlen := slice_length hle
    conv_rhs => rw [← leBytes_leNat (slice data off w), hlen]

theorem u64_at {n : UInt64} :
    u64.dec (data.drop off) = some (n, r) ↔
      off + 8 ≤ data.length ∧ n.toNat = leNat (slice data off 8) ∧ r = data.drop (off + 8) := by
  rw [u64, pmap_dec_iff, le_at (by decide)]

theorem i64_at {n : Int64} :
    i64.dec (data.drop off) = some (n, r) ↔
      off + 8 ≤ data.length ∧ n.toUInt64.toNat = leNat (slice data off 8) ∧
        r = data.drop (off + 8) := by
  rw [i64, pmap_dec_iff, u64_at]

theorem vec_at {v : { bs : Bytes // bs.length < 256 ^ 4 }} :
    vec.dec (data.drop off) = some (v, r) ↔
      off + 4 + v.1.length ≤ data.length ∧ v.1.length = leNat (slice data off 4) ∧
        v.1 = slice data (off + 4) v.1.length ∧ r = data.drop (off + 4 + v.1.length) := by
  obtain ⟨v, hv⟩ := v
  have hdec : vec.dec (data.drop off) = some (⟨v, hv⟩, r) ↔
      (le 4).dec (data.drop off) = some (⟨v.length, hv⟩, v ++ r) := by
    rw [dec_iff, dec_iff, vec, List.append_assoc]
  rw [hdec, le_at (by decide)]
  dsimp only
  constructor
  · rintro ⟨hle, hn, hr⟩
    have hlen : data.length - (off + 4) = v.length + r.length := by
      rw [← List.length_drop, ← hr, List.length_append]
    refine ⟨by omega, hn, ?_, ?_⟩
    · rw [slice, ← hr, List.take_left]
    · rw [← List.drop_drop, ← hr, List.drop_left]
  · rintro ⟨hle, hn, hv', rfl⟩
    refine ⟨by omega, hn, ?_⟩
    rw [← slice_append_drop data (off + 4) v.length]
    exact congrArg (· ++ _) hv'

theorem str_at {s : Str} :
    str.dec (data.drop off) = some (s, r) ↔
      off + 4 + s.bytes.length ≤ data.length ∧ s.bytes.length = leNat (slice data off 4) ∧
        s.bytes = slice data (off + 4) s.bytes.length ∧
        r = data.drop (off + 4 + s.bytes.length) := by
  rw [str, pmap_dec_iff, vec_at]

end offset

end Codec

/-! ### Accounts -/

/-- A type of account: the discriminator its data starts with, and the codec of its fields. -/
structure AccountType (α : Type) where
  discriminator : Bytes
  codec : Codec α

namespace AccountType

variable {α : Type} (t : AccountType α)

/-- What `try_serialize` writes. -/
def bytes (a : α) : Bytes := t.discriminator ++ t.codec.enc a

/-- `try_deserialize`: the discriminator, then the fields. Bytes after them are ignored. -/
def tryDeserialize (data : Bytes) : Option α :=
  if t.discriminator.isPrefixOf data then
    (t.codec.dec (data.drop t.discriminator.length)).map Prod.fst
  else none

theorem tryDeserialize_iff {data : Bytes} {a : α} :
    t.tryDeserialize data = some a ↔ ∃ tail, data = t.bytes a ++ tail := by
  rw [tryDeserialize, Option.ite_none_right_eq_some, List.isPrefixOf_iff_prefix,
    Option.map_eq_some_iff]
  constructor
  · rintro ⟨⟨rest, rfl⟩, ⟨b, tail⟩, hdec, rfl⟩
    refine ⟨tail, ?_⟩
    rw [List.drop_left, Codec.dec_iff] at hdec
    rw [hdec, bytes, List.append_assoc]
  · rintro ⟨tail, rfl⟩
    rw [bytes, List.append_assoc]
    refine ⟨⟨_, rfl⟩, (a, tail), ?_, rfl⟩
    rw [List.drop_left, Codec.dec_enc]

@[simp] theorem tryDeserialize_bytes (a : α) (tail : Bytes) :
    t.tryDeserialize (t.bytes a ++ tail) = some a :=
  t.tryDeserialize_iff.2 ⟨tail, rfl⟩

/-- The same reading in offsets: the first slice is the discriminator, the fields follow it. -/
theorem tryDeserialize_at {data : Bytes} {a : α} :
    t.tryDeserialize data = some a ↔
      slice data 0 t.discriminator.length = t.discriminator ∧
        ∃ r, t.codec.dec (data.drop t.discriminator.length) = some (a, r) := by
  rw [tryDeserialize, Option.ite_none_right_eq_some, List.isPrefixOf_iff_prefix,
    List.prefix_iff_eq_take, Option.map_eq_some_iff, slice, List.drop_zero,
    eq_comm (a := t.discriminator)]
  simp only [Prod.exists, exists_eq_right, exists_and_right]

/-! ### Writing -/

/-- What `try_serialize` leaves in an account's buffer: the encoding over its first bytes, and behind it
whatever was there. It fails where the encoding does not fit. -/
def store (buffer : Bytes) (a : α) : Option Bytes :=
  if (t.bytes a).length ≤ buffer.length then some (t.bytes a ++ buffer.drop (t.bytes a).length) else none

/-- Stale bytes behind the encoding change neither the account's size nor what is read back. -/
theorem store_of_fits {buffer : Bytes} {a : α} (h : (t.bytes a).length ≤ buffer.length) :
    ∃ data, t.store buffer a = some data ∧ t.tryDeserialize data = some a ∧ data.length = buffer.length := by
  refine ⟨t.bytes a ++ buffer.drop (t.bytes a).length, if_pos h, t.tryDeserialize_bytes a _, ?_⟩
  rw [List.length_append, List.length_drop]
  omega

/-- Types with different discriminators do not read each other's accounts. -/
theorem tryDeserialize_other {β : Type} {t : AccountType α} {u : AccountType β} {data : Bytes} {a : α}
    (hlen : u.discriminator.length = t.discriminator.length) (hne : u.discriminator ≠ t.discriminator)
    (h : t.tryDeserialize data = some a) : u.tryDeserialize data = none := by
  obtain ⟨tail, rfl⟩ := t.tryDeserialize_iff.1 h
  rw [tryDeserialize, if_neg]
  intro hprefix
  obtain ⟨rest, hrest⟩ := List.isPrefixOf_iff_prefix.1 hprefix
  rw [bytes, List.append_assoc] at hrest
  exact hne (List.append_inj hrest hlen).1

end AccountType

end Borsh
