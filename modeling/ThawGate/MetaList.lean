import ThawGate.ExtraMetas

/-!
# Extra account metas as bytes

The account data that `spl-tlv-account-resolution` writes and reads: a type-length-value entry whose
type is the interface's discriminator, with a count and 35 bytes for every meta. Seeds are packed one behind the
other into the 32 address bytes of a meta, zeros behind them. What `pack` writes of metas that fit, `unpack`
reads back (`unpack_pack`).
-/

namespace ThawGate

open Borsh

/-! ### Seeds -/

namespace Seed

def pack : Seed → Bytes
  | literal bytes => 1 :: .ofNat bytes.length :: bytes
  | accountKey index => [3, .ofNat index]
  | accountData accountIndex dataIndex length => [4, .ofNat accountIndex, .ofNat dataIndex, .ofNat length]

/-- Every number is a `u8`. -/
def Fits : Seed → Prop
  | literal bytes => bytes.length < 256
  | accountKey index => index < 256
  | accountData accountIndex dataIndex length => accountIndex < 256 ∧ dataIndex < 256 ∧ length < 256

instance (s : Seed) : Decidable s.Fits := by
  cases s <;> (dsimp only [Fits]; infer_instance)

end Seed

/-- `Seed::pack_into_address_config`, of seeds that fit. -/
def addressConfig (seeds : List Seed) : Bytes :=
  let packed := seeds.flatMap Seed.pack
  packed ++ List.replicate (32 - packed.length) 0

/-- `Seed::unpack_address_config`, reading at most `fuel` seeds. -/
def unpackSeeds : Nat → Bytes → Option (List Seed)
  | 0, _ => none
  | _ + 1, [] => some []
  | fuel + 1, tag :: rest =>
    if tag = 0 then some []
    else if tag = 1 then
      match rest with
      | length :: rest =>
        if length.toNat ≤ rest.length then
          (unpackSeeds fuel (rest.drop length.toNat)).map (.literal (rest.take length.toNat) :: ·)
        else none
      | [] => none
    else if tag = 3 then
      match rest with
      | index :: rest => (unpackSeeds fuel rest).map (.accountKey index.toNat :: ·)
      | [] => none
    else if tag = 4 then
      match rest with
      | a :: d :: l :: rest => (unpackSeeds fuel rest).map (.accountData a.toNat d.toNat l.toNat :: ·)
      | _ => none
    else none

theorem toNat_ofNat_u8 {n : Nat} (h : n < 256) : (UInt8.ofNat n).toNat = n := UInt8.toNat_ofNat_of_lt' h

theorem unpackSeeds_zeros (fuel k : Nat) : unpackSeeds (fuel + 1) (List.replicate k 0) = some [] := by
  cases k <;> rfl

section tags

variable (fuel : Nat) (rest : Bytes)

theorem unpackSeeds_literal (n : UInt8) : unpackSeeds (fuel + 1) (1 :: n :: rest) =
    if n.toNat ≤ rest.length then
      (unpackSeeds fuel (rest.drop n.toNat)).map (.literal (rest.take n.toNat) :: ·) else none := rfl

theorem unpackSeeds_accountKey (index : UInt8) : unpackSeeds (fuel + 1) (3 :: index :: rest) =
    (unpackSeeds fuel rest).map (.accountKey index.toNat :: ·) := rfl

theorem unpackSeeds_accountData (a d l : UInt8) : unpackSeeds (fuel + 1) (4 :: a :: d :: l :: rest) =
    (unpackSeeds fuel rest).map (.accountData a.toNat d.toNat l.toNat :: ·) := rfl

end tags

theorem unpackSeeds_pack {seeds : List Seed} (h : ∀ s ∈ seeds, s.Fits) (fuel k : Nat) :
    unpackSeeds (seeds.length + fuel + 1) (seeds.flatMap Seed.pack ++ List.replicate k 0) = some seeds := by
  induction seeds with
  | nil => exact unpackSeeds_zeros _ k
  | cons s seeds ih =>
    have hfuel : (s :: seeds).length + fuel + 1 = (seeds.length + fuel + 1) + 1 := by
      rw [List.length_cons]
      omega
    have hrest := ih fun t ht => h t (List.mem_cons_of_mem _ ht)
    have hs := h s List.mem_cons_self
    rw [hfuel, List.flatMap_cons, List.append_assoc]
    cases s with
    | literal bytes =>
      have hlength := toNat_ofNat_u8 (show bytes.length < 256 from hs)
      rw [Seed.pack, List.cons_append, List.cons_append, unpackSeeds_literal, hlength,
        if_pos (by rw [List.length_append]; omega), List.drop_left, List.take_left, hrest]
      rfl
    | accountKey index =>
      rw [Seed.pack, List.cons_append, List.cons_append, List.nil_append, unpackSeeds_accountKey, hrest,
        toNat_ofNat_u8 (show index < 256 from hs)]
      rfl
    | accountData a d l =>
      obtain ⟨ha, hd, hl⟩ := hs
      rw [Seed.pack, List.cons_append, List.cons_append, List.cons_append, List.cons_append, List.nil_append,
        unpackSeeds_accountData, hrest, toNat_ofNat_u8 ha, toNat_ofNat_u8 hd, toNat_ofNat_u8 hl]
      rfl

/-! ### Metas -/

/-- The seeds can be packed into a meta. -/
def SeedsFit (seeds : List Seed) : Prop := (∀ s ∈ seeds, s.Fits) ∧ (seeds.flatMap Seed.pack).length ≤ 32

instance (seeds : List Seed) : Decidable (SeedsFit seeds) :=
  inferInstanceAs (Decidable (_ ∧ _))

namespace ExtraAccountMeta

/-- Thirty-five bytes. The metas here are neither signers nor writable. -/
def pack : ExtraAccountMeta → Bytes
  | pubkey k => 0 :: k.1 ++ [0, 0]
  | pda seeds => 1 :: addressConfig seeds ++ [0, 0]
  | externalPda program seeds => .ofNat (128 + program) :: addressConfig seeds ++ [0, 0]

def unpack : Bytes → Option ExtraAccountMeta
  | [] => none
  | tag :: rest =>
    if h : 32 ≤ rest.length then
      if tag = 0 then some (.pubkey ⟨rest.take 32, List.length_take_of_le h⟩)
      else if tag = 1 then (unpackSeeds 33 (rest.take 32)).map .pda
      else if 128 ≤ tag.toNat then (unpackSeeds 33 (rest.take 32)).map (.externalPda (tag.toNat - 128))
      else none
    else none

/-- `new_with_seeds` -/
def newWithSeeds (seeds : List Seed) : Option ExtraAccountMeta := if SeedsFit seeds then some (.pda seeds) else none

/-- `new_external_pda_with_seeds` -/
def newExternalPdaWithSeeds (program : Nat) (seeds : List Seed) : Option ExtraAccountMeta :=
  if program < 128 ∧ SeedsFit seeds then some (.externalPda program seeds) else none

def Fits : ExtraAccountMeta → Prop
  | pubkey _ => True
  | pda seeds => SeedsFit seeds
  | externalPda program seeds => program < 128 ∧ SeedsFit seeds

end ExtraAccountMeta

theorem addressConfig_length {seeds : List Seed} (h : SeedsFit seeds) : (addressConfig seeds).length = 32 := by
  rw [addressConfig, List.length_append, List.length_replicate]
  have hle := h.2
  omega

theorem seed_pack_pos (s : Seed) : 1 ≤ s.pack.length := by
  cases s <;> exact Nat.succ_le_succ (Nat.zero_le _)

theorem length_le_flatMap_pack (seeds : List Seed) : seeds.length ≤ (seeds.flatMap Seed.pack).length := by
  induction seeds with
  | nil => exact Nat.le_refl 0
  | cons s seeds ih =>
    have hs := seed_pack_pos s
    rw [List.flatMap_cons, List.length_append, List.length_cons]
    omega

theorem unpackSeeds_addressConfig {seeds : List Seed} (h : SeedsFit seeds) :
    unpackSeeds 33 (addressConfig seeds) = some seeds := by
  have hlength := length_le_flatMap_pack seeds
  have hle := h.2
  have hfuel : 33 = seeds.length + (32 - seeds.length) + 1 := by omega
  rw [hfuel]
  exact unpackSeeds_pack h.1 _ _

namespace ExtraAccountMeta

theorem length_pack {m : ExtraAccountMeta} (h : m.Fits) : m.pack.length = 35 := by
  cases m with
  | pubkey k => simp [pack, k.2]
  | pda seeds => simp [pack, addressConfig_length h]
  | externalPda program seeds => simp [pack, addressConfig_length h.2]

/-- A tag with 32 address bytes and two flags behind it. -/
theorem unpack_tag (tag : UInt8) {address : Bytes} (h : address.length = 32) :
    unpack (tag :: (address ++ [0, 0])) =
      if tag = 0 then some (.pubkey ⟨address, h⟩)
      else if tag = 1 then (unpackSeeds 33 address).map .pda
      else if 128 ≤ tag.toNat then (unpackSeeds 33 address).map (.externalPda (tag.toNat - 128))
      else none := by
  have hle : 32 ≤ (address ++ [0, 0]).length := by
    rw [List.length_append, h]
    decide
  have htake : (address ++ [(0 : UInt8), 0]).take 32 = address := List.take_left' h
  rw [unpack, dif_pos hle]
  simp only [htake]

theorem unpack_pack {m : ExtraAccountMeta} (h : m.Fits) : unpack m.pack = some m := by
  cases m with
  | pubkey k => rw [pack, List.cons_append, unpack_tag 0 k.2, if_pos rfl]
  | pda seeds =>
    rw [pack, List.cons_append, unpack_tag 1 (addressConfig_length h), if_neg (by decide), if_pos rfl,
      unpackSeeds_addressConfig h]
    rfl
  | externalPda program seeds =>
    obtain ⟨hprogram, hseeds⟩ := h
    have htag : (UInt8.ofNat (128 + program)).toNat = 128 + program := toNat_ofNat_u8 (by omega)
    have hne {b : UInt8} (hb : b.toNat < 128) : UInt8.ofNat (128 + program) ≠ b := by
      rintro rfl
      omega
    rw [pack, List.cons_append, unpack_tag _ (addressConfig_length hseeds), if_neg (hne (by decide)),
      if_neg (hne (by decide)), if_pos (by omega), unpackSeeds_addressConfig hseeds, htag, Nat.add_sub_cancel_left]
    rfl

end ExtraAccountMeta

/-! ### Lists -/

namespace MetaList

/-- `ExtraAccountMetaList::size_of` -/
def sizeOf (n : Nat) : Nat := 16 + 35 * n

/-- The entry of type `discriminator`. -/
def pack (discriminator : Bytes) (metas : List ExtraAccountMeta) : Bytes :=
  discriminator ++ (leBytes 4 (4 + 35 * metas.length) ++ (leBytes 4 metas.length ++
    metas.flatMap ExtraAccountMeta.pack))

/-- `ExtraAccountMetaList::init`, on data that are all zeros. -/
def init (discriminator buffer : Bytes) (metas : List ExtraAccountMeta) : Option Bytes :=
  if sizeOf metas.length ≤ buffer.length then
    some (pack discriminator metas ++ buffer.drop (sizeOf metas.length))
  else none

/-- A buffer of the list's own size is filled to its end. -/
theorem init_zeros {discriminator : Bytes} {metas : List ExtraAccountMeta} :
    init discriminator (List.replicate (sizeOf metas.length) 0) metas = some (pack discriminator metas) := by
  rw [init, if_pos (by rw [List.length_replicate]), List.drop_eq_nil_of_le (by rw [List.length_replicate]),
    List.append_nil]

def unpackMetas : Nat → Bytes → Option (List ExtraAccountMeta)
  | 0, _ => some []
  | n + 1, data => (ExtraAccountMeta.unpack (data.take 35)).bind fun m => (unpackMetas n (data.drop 35)).map (m :: ·)

/-- The metas of the first entry, if its type is `discriminator`. -/
def unpack (discriminator data : Bytes) : Option (List ExtraAccountMeta) :=
  if data.take 8 = discriminator then unpackMetas (leNat (slice data 12 4)) (data.drop 16) else none

theorem unpackMetas_pack {metas : List ExtraAccountMeta} (h : ∀ m ∈ metas, m.Fits) (tail : Bytes) :
    unpackMetas metas.length (metas.flatMap ExtraAccountMeta.pack ++ tail) = some metas := by
  induction metas with
  | nil => rfl
  | cons m metas ih =>
    have hm := h m List.mem_cons_self
    have hlength := ExtraAccountMeta.length_pack hm
    rw [List.length_cons, unpackMetas, List.flatMap_cons, List.append_assoc, List.take_left' hlength,
      List.drop_left' hlength, ExtraAccountMeta.unpack_pack hm, Option.bind_some,
      ih fun m' hm' => h m' (List.mem_cons_of_mem _ hm')]
    rfl

theorem length_pack {discriminator : Bytes} {metas : List ExtraAccountMeta} (hd : discriminator.length = 8)
    (h : ∀ m ∈ metas, m.Fits) : (pack discriminator metas).length = sizeOf metas.length := by
  have hmetas : (metas.flatMap ExtraAccountMeta.pack).length = 35 * metas.length := by
    rw [List.length_flatMap, List.map_congr_left fun m hm => ExtraAccountMeta.length_pack (h m hm)]
    rw [List.map_const', List.sum_replicate_nat, Nat.mul_comm]
  simp only [pack, List.length_append, leBytes_length, hd, hmetas, sizeOf]
  omega

/-- What is written into a list is read back from it. -/
theorem unpack_pack {discriminator : Bytes} {metas : List ExtraAccountMeta} (hd : discriminator.length = 8)
    (h : ∀ m ∈ metas, m.Fits) (hn : metas.length < 256 ^ 4) (tail : Bytes) :
    unpack discriminator (pack discriminator metas ++ tail) = some metas := by
  have hlen (n : Nat) : (leBytes 4 n).length = 4 := leBytes_length 4 n
  have hcount : slice (pack discriminator metas ++ tail) 12 4 = leBytes 4 metas.length := by
    rw [slice, pack, List.append_assoc, ← List.drop_drop (i := 4) (j := 8), List.drop_left' hd, List.append_assoc,
      List.drop_left' (hlen _), List.append_assoc, List.take_left' (hlen _)]
  have hmetas : (pack discriminator metas ++ tail).drop 16 = metas.flatMap ExtraAccountMeta.pack ++ tail := by
    rw [pack, List.append_assoc, ← List.drop_drop (i := 8) (j := 8), List.drop_left' hd,
      ← List.drop_drop (i := 4) (j := 4), List.append_assoc, List.drop_left' (hlen _), List.append_assoc,
      List.drop_left' (hlen _)]
  have htype : (pack discriminator metas ++ tail).take 8 = discriminator := by
    rw [pack, List.append_assoc, List.take_left' hd]
  rw [unpack, if_pos htype, hcount, hmetas, leNat_leBytes hn, unpackMetas_pack h]

end MetaList

end ThawGate
