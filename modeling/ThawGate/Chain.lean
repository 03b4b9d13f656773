import ThawGate.Lib.Codec

/-!
# Accounts and addresses

What every program and service here sees of the chain: 32-byte keys, accounts as an owner program
and a byte string, and the ids of the programs involved.
-/

namespace ThawGate

open Borsh

abbrev Pubkey := Chunk 32

/-- `Pubkey::default()`. -/
def Pubkey.default : Pubkey := ⟨List.replicate 32 0, List.length_replicate⟩

/-- The key with every byte `b`. -/
def sampleKey (b : UInt8) : Pubkey := ⟨List.replicate 32 b, List.length_replicate⟩

instance : Inhabited Pubkey := ⟨Pubkey.default⟩

instance : LawfulBEq Pubkey := inferInstance

theorem key_length {data : Bytes} {off : Nat} (h : off + 32 ≤ data.length) : (slice data off 32).length = 32 :=
  slice_length h

/-- The 64 bytes that some accounts reserve, zeroed. -/
theorem reserved_length : (List.replicate 64 (0 : UInt8)).length = 64 := List.length_replicate

def Pubkey.codec : Codec Pubkey := Codec.chunk 32

theorem Pubkey.codec_at {data r : Bytes} {off : Nat} {k : Pubkey} :
    Pubkey.codec.dec (data.drop off) = some (k, r) ↔
      off + 32 ≤ data.length ∧ k.1 = slice data off 32 ∧ r = data.drop (off + 32) :=
  Codec.chunk_at (by decide)

/-- An account as an instruction or an RPC read gets it. An address without an account is one
that the system program owns and that has no data. -/
structure AccountInfo where
  key : Pubkey
  owner : Pubkey
  data : Bytes
  deriving DecidableEq, Inhabited

/-! ### Program ids -/

/-- `THAW2daLXyUtCLtTsJWDTKZctiAGmGX4wT1kqKXugUZ` -/
def gateId : Pubkey :=
  ⟨[6, 187, 96, 164, 35, 6, 49, 70, 73, 62, 150, 232, 152, 33, 131, 90,
    146, 245, 202, 20, 56, 65, 155, 64, 20, 116, 234, 233, 213, 56, 231, 122], rfl⟩

/-- `22zoJMtdu4tQc2PzL74ZUT7FrwgB1Udec8DdW4yw4BdG` -/
def sasId : Pubkey :=
  ⟨[15, 94, 158, 213, 55, 30, 44, 112, 137, 140, 169, 253, 14, 119, 192, 6,
    92, 171, 93, 160, 46, 86, 103, 139, 39, 19, 56, 42, 243, 116, 89, 183], rfl⟩

/-- `TokenzQdBNbLqP5VEhdkAS6EPFLC1PHnBqCXEpPxuEb` -/
def token2022Id : Pubkey :=
  ⟨[6, 221, 246, 225, 238, 117, 143, 222, 24, 66, 93, 188, 228, 108, 205, 218,
    182, 26, 252, 77, 131, 185, 13, 39, 254, 189, 249, 40, 216, 161, 139, 252], rfl⟩

/-- `TokenkegQfeZyiNwAJbNbGKPFXCWuBvf9Ss623VQ5DA` -/
def tokenId : Pubkey :=
  ⟨[6, 221, 246, 225, 215, 101, 161, 147, 217, 203, 225, 70, 206, 235, 121, 172,
    28, 180, 133, 237, 95, 91, 55, 145, 58, 140, 245, 133, 126, 255, 0, 169], rfl⟩

/-- `TACLkU6CiCdkQN2MjoyDkVg2yAH9zkxiHDsiztQ52TP` -/
def tokenAclId : Pubkey :=
  ⟨[6, 179, 127, 154, 112, 244, 6, 234, 54, 211, 41, 245, 148, 165, 22, 5,
    150, 15, 242, 225, 55, 23, 91, 46, 218, 0, 102, 202, 50, 58, 107, 206], rfl⟩

/-- `HLvhfKVfGfKXVNS9tZ1q7SNS4w9mQmcjre758QFhbZDZ` -/
def sssTokenId : Pubkey :=
  ⟨[242, 213, 191, 4, 94, 29, 149, 203, 15, 131, 83, 170, 10, 130, 35, 93,
    213, 51, 11, 81, 39, 162, 39, 99, 3, 73, 100, 32, 157, 241, 175, 40], rfl⟩

/-- `2wcwbEsw7rZ2t36qaDujHUc9HHrg3f5m4opcSHpixNUv` -/
def hookId : Pubkey :=
  ⟨[28, 217, 176, 129, 112, 93, 25, 209, 174, 216, 170, 162, 51, 216, 3, 203,
    172, 231, 129, 41, 194, 117, 124, 212, 17, 68, 206, 228, 239, 62, 140, 79], rfl⟩

end ThawGate
