import ThawGate.Chain

/-!
# Registry entries

sss-token's `BlacklistEntry` and `AllowlistEntry` accounts. They are written by sss-token and read by
the gate, the transfer hook, the keeper and the screener, each with a decoder of its own; the gate's
and the hook's mirror structs have these fields in this order. `blacklistEntry_at` and
`allowlistEntry_at` say what decoding an entry means in byte offsets, for the readers that use them.
-/

namespace ThawGate.Token

open Borsh

structure BlacklistEntry where
  mint : Pubkey
  target : Pubkey
  reason : Str
  addedAt : Int64
  addedBy : Pubkey
  active : Bool
  bump : UInt8
  deriving DecidableEq

structure AllowlistEntry where
  mint : Pubkey
  wallet : Pubkey
  addedAt : Int64
  active : Bool
  bump : UInt8
  deriving DecidableEq

namespace BlacklistEntry

def codec : Codec BlacklistEntry :=
  (Pubkey.codec.prod <| Pubkey.codec.prod <| Codec.str.prod <| Codec.i64.prod <|
    Pubkey.codec.prod <| Codec.bool.prod Codec.u8).pmap
    (fun (m, t, r, at_, by_, a, b) => some ⟨m, t, r, at_, by_, a, b⟩)
    (fun e => (e.mint, e.target, e.reason, e.addedAt, e.addedBy, e.active, e.bump))
    (by rintro ⟨m, t, r, at_, by_, a, b⟩ ⟨⟩; simp)

def account : AccountType BlacklistEntry where
  discriminator := [218, 179, 231, 40, 141, 25, 168, 189]
  codec := codec

end BlacklistEntry

namespace AllowlistEntry

def codec : Codec AllowlistEntry :=
  (Pubkey.codec.prod <| Pubkey.codec.prod <| Codec.i64.prod <| Codec.bool.prod Codec.u8).pmap
    (fun (m, w, at_, a, b) => some ⟨m, w, at_, a, b⟩)
    (fun e => (e.mint, e.wallet, e.addedAt, e.active, e.bump))
    (by rintro ⟨m, w, at_, a, b⟩ ⟨⟩; simp)

def account : AccountType AllowlistEntry where
  discriminator := [42, 59, 88, 1, 124, 138, 92, 236]
  codec := codec

end AllowlistEntry

/-! ### In byte offsets -/

/-- `data` is a blacklist entry's account with these fields, in byte offsets. -/
structure BlacklistEntry.LaidOut (e : BlacklistEntry) (data : Bytes) : Prop where
  discriminator : slice data 0 8 = BlacklistEntry.account.discriminator
  mint : e.mint.1 = slice data 8 32
  target : e.target.1 = slice data 40 32
  reasonLen : e.reason.bytes.length = leNat (slice data 72 4)
  reason : e.reason.bytes = slice data 76 e.reason.bytes.length
  addedAt : e.addedAt.toUInt64.toNat = leNat (slice data (76 + e.reason.bytes.length) 8)
  addedBy : e.addedBy.1 = slice data (76 + e.reason.bytes.length + 8) 32
  active : data[76 + e.reason.bytes.length + 8 + 32]? = some (if e.active then 1 else 0)
  bump : data[76 + e.reason.bytes.length + 8 + 32 + 1]? = some e.bump

theorem blacklistEntry_at {data : Bytes} {e : BlacklistEntry} :
    BlacklistEntry.account.tryDeserialize data = some e ↔ e.LaidOut data := by
  rw [AccountType.tryDeserialize_at]
  simp only [BlacklistEntry.account, BlacklistEntry.codec, Codec.pmap_dec_iff, Codec.prod_dec_iff,
    List.length_cons, List.length_nil, Nat.zero_add, Nat.reduceAdd, Pubkey.codec_at, Codec.str_at,
    Codec.i64_at, Codec.bool_at, Codec.u8_at, and_assoc, exists_and_left, exists_eq_left,
    exists_eq, and_true]
  constructor
  · rintro ⟨hd, -, hm, -, ht, -, hn, hr, -, hat, -, hby, ha, hb⟩
    exact ⟨hd, hm, ht, hn, hr, hat, hby, ha, hb⟩
  · rintro ⟨hd, hm, ht, hn, hr, hat, hby, ha, hb⟩
    obtain ⟨hlen, -⟩ := List.getElem?_eq_some_iff.1 hb
    exact ⟨hd, by omega, hm, by omega, ht, by omega, hn, hr, by omega, hat, by omega, hby, ha, hb⟩

/-- `data` is an allowlist entry's account with these fields, in byte offsets. -/
structure AllowlistEntry.LaidOut (e : AllowlistEntry) (data : Bytes) : Prop where
  discriminator : slice data 0 8 = AllowlistEntry.account.discriminator
  mint : e.mint.1 = slice data 8 32
  wallet : e.wallet.1 = slice data 40 32
  addedAt : e.addedAt.toUInt64.toNat = leNat (slice data 72 8)
  active : data[80]? = some (if e.active then 1 else 0)
  bump : data[81]? = some e.bump

theorem allowlistEntry_at {data : Bytes} {e : AllowlistEntry} :
    AllowlistEntry.account.tryDeserialize data = some e ↔ e.LaidOut data := by
  rw [AccountType.tryDeserialize_at]
  simp only [AllowlistEntry.account, AllowlistEntry.codec, Codec.pmap_dec_iff, Codec.prod_dec_iff,
    List.length_cons, List.length_nil, Nat.zero_add, Nat.reduceAdd, Pubkey.codec_at,
    Codec.i64_at, Codec.bool_at, Codec.u8_at, and_assoc, exists_and_left, exists_eq_left,
    exists_eq, and_true]
  constructor
  · rintro ⟨hd, -, hm, -, hw, -, hat, ha, hb⟩
    exact ⟨hd, hm, hw, hat, ha, hb⟩
  · rintro ⟨hd, hm, hw, hat, ha, hb⟩
    obtain ⟨hlen, -⟩ := List.getElem?_eq_some_iff.1 hb
    exact ⟨hd, by omega, hm, by omega, hw, by omega, hat, ha, hb⟩

end ThawGate.Token
