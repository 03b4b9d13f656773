import ThawGate.Token.Entry
import ThawGate.Lib.Exec
import Mathlib.Tactic.Simps.Basic
import Mathlib.Logic.Function.Basic

/-!
# sss-token's accounts

The account types, the program addresses they live at, and the ledger that maps addresses to them.

An address is kept as its derivation, seeds and bump, instead of the 32-byte hash of these. What is
hashed determines the derivation (`Pda.preimage_injective`), so two derivations have one address
only where the hash collides. `canonical` is the derivation `find_program_address` picks.
-/

namespace ThawGate.Token

open Borsh

/-! ### Constants -/

def maxNameLen : Nat := 32

def maxSymbolLen : Nat := 10

def maxUriLen : Nat := 200

def maxReasonLen : Nat := 100

/-- Compliance through the transfer hook, when there is one. -/
def complianceModeHook : UInt8 := 0

/-- Compliance through Token ACL. -/
def complianceModeAcl : UInt8 := 1

/-- Token ACL and the transfer hook. -/
def complianceModeBoth : UInt8 := 2

/-! ### Account types -/

structure StablecoinConfig where
  authority : Pubkey
  mint : Pubkey
  name : Str
  symbol : Str
  uri : Str
  decimals : UInt8
  enablePermanentDelegate : Bool
  enableTransferHook : Bool
  defaultAccountFrozen : Bool
  enableConfidentialTransfers : Bool
  enableAllowlist : Bool
  paused : Bool
  totalMinted : UInt64
  totalBurned : UInt64
  bump : UInt8
  complianceMode : UInt8
  deriving DecidableEq

namespace StablecoinConfig

def usesTokenAcl (c : StablecoinConfig) : Bool :=
  c.complianceMode == complianceModeAcl || c.complianceMode == complianceModeBoth

def complianceEnabled (c : StablecoinConfig) : Bool := c.enableTransferHook || c.usesTokenAcl

end StablecoinConfig

inductive RoleType where
  | masterAuthority
  | minter
  | burner
  | pauser
  | blacklister
  | seizer
  deriving DecidableEq, Repr

/-- The Borsh variant index, also the last seed of a record's address. -/
def RoleType.toByte : RoleType → UInt8
  | masterAuthority => 0
  | minter => 1
  | burner => 2
  | pauser => 3
  | blacklister => 4
  | seizer => 5

structure RoleRecord where
  mint : Pubkey
  holder : Pubkey
  role : RoleType
  active : Bool
  grantedAt : Int64
  bump : UInt8
  deriving DecidableEq

inductive QuotaPeriod where
  | daily
  | weekly
  | monthly
  | lifetime
  deriving DecidableEq, Repr

structure MinterQuota where
  mint : Pubkey
  minter : Pubkey
  limit : UInt64
  used : UInt64
  period : QuotaPeriod
  bump : UInt8
  deriving DecidableEq

structure PauseState where
  mint : Pubkey
  paused : Bool
  pausedAt : Int64
  pausedBy : Pubkey
  bump : UInt8
  deriving DecidableEq

namespace PauseState

def codec : Codec PauseState :=
  (Pubkey.codec.prod <| Codec.bool.prod <| Codec.i64.prod <| Pubkey.codec.prod Codec.u8).pmap
    (fun (m, p, at_, by_, b) => some ⟨m, p, at_, by_, b⟩)
    (fun p => (p.mint, p.paused, p.pausedAt, p.pausedBy, p.bump))
    (by rintro ⟨m, p, at_, by_, b⟩ ⟨⟩; simp)

def account : AccountType PauseState where
  discriminator := [21, 123, 173, 77, 60, 203, 197, 145]
  codec := codec

end PauseState

structure ReserveAttestation where
  mint : Pubkey
  attestor : Pubkey
  reserves : UInt64
  asOf : Int64
  maxStaleness : Int64
  reportUri : Str
  postedAt : Int64
  bump : UInt8
  reserved : Chunk 64
  deriving DecidableEq

/-! ### What `init_if_needed` finds in an account it has just created: zeroes -/

def RoleRecord.zeroed : RoleRecord := ⟨.default, .default, .masterAuthority, false, 0, 0⟩

def MinterQuota.zeroed : MinterQuota := ⟨.default, .default, 0, 0, .daily, 0⟩

def ReserveAttestation.zeroed : ReserveAttestation :=
  ⟨.default, .default, 0, 0, 0, .empty, 0, 0, ⟨List.replicate 64 0, reserved_length⟩⟩

def BlacklistEntry.zeroed : BlacklistEntry := ⟨.default, .default, .empty, 0, .default, false, 0⟩

def AllowlistEntry.zeroed : AllowlistEntry := ⟨.default, .default, 0, false, 0⟩

/-! ### Addresses -/

/-- The seeds of each kind of account. -/
inductive Seeds where
  | config (mint : Pubkey)
  | role (mint holder : Pubkey) (role : RoleType)
  | quota (mint minter : Pubkey)
  | blacklist (mint target : Pubkey)
  | pause (mint : Pubkey)
  | allowlist (mint wallet : Pubkey)
  | reserve (mint : Pubkey)
  deriving DecidableEq

/-- A program address: the seeds and the bump it is derived from. -/
structure Pda where
  seeds : Seeds
  bump : UInt8
  deriving DecidableEq

def Seeds.tag : Seeds → Bytes
  | config _ => "stablecoin_config".toUTF8.data.toList
  | role .. => "role".toUTF8.data.toList
  | quota .. => "minter_quota".toUTF8.data.toList
  | blacklist .. => "blacklist".toUTF8.data.toList
  | pause _ => "pause_state".toUTF8.data.toList
  | allowlist .. => "allowlist".toUTF8.data.toList
  | reserve _ => "reserve_attestation".toUTF8.data.toList

/-- The seeds after the tag. -/
def Seeds.keys : Seeds → Bytes
  | config m | pause m | reserve m => m.1
  | role m h r => m.1 ++ h.1 ++ [r.toByte]
  | quota m w | blacklist m w | allowlist m w => m.1 ++ w.1

/-- What the address is the hash of, but for the program id and a constant that follow it. -/
def Pda.preimage (a : Pda) : Bytes := a.seeds.tag ++ a.seeds.keys ++ [a.bump]

/-- The number of seed bytes. -/
def Seeds.size : Seeds → Nat
  | config _ => 49
  | role .. => 69
  | quota .. => 76
  | blacklist .. | allowlist .. => 73
  | pause _ => 43
  | reserve _ => 51

theorem Seeds.length_bytes (s : Seeds) : (s.tag ++ s.keys).length = s.size := by
  have hk (k : Pubkey) : k.1.length = 32 := k.2
  cases s <;> simp only [Seeds.keys, List.length_append, List.length_singleton, hk] <;> rfl

theorem RoleType.toByte_injective : Function.Injective RoleType.toByte := by
  intro r s
  cases r <;> cases s <;> decide

theorem Seeds.pair_injective {m n k l : Pubkey} (h : m.1 ++ k.1 = n.1 ++ l.1) : m = n ∧ k = l := by
  obtain ⟨hm, hk⟩ := List.append_inj h (m.2.trans n.2.symm)
  exact ⟨Subtype.ext hm, Subtype.ext hk⟩

/-- The size tells the kinds apart, except blacklist entries from allowlist entries, whose tags
differ in the first byte. -/
theorem Seeds.bytes_injective {s t : Seeds} (h : s.tag ++ s.keys = t.tag ++ t.keys) : s = t := by
  have hl : s.size = t.size := by rw [← s.length_bytes, ← t.length_bytes, h]
  have hhead := congrArg List.head? h
  cases s <;> cases t <;> simp only [Seeds.size, Nat.reduceEqDiff] at hl
  case blacklist.allowlist => exact absurd (Option.some.inj hhead) (by decide)
  case allowlist.blacklist => exact absurd (Option.some.inj hhead) (by decide)
  case role.role =>
    obtain ⟨hmh, hr⟩ := List.append_inj' (List.append_cancel_left h) rfl
    rw [(pair_injective hmh).1, (pair_injective hmh).2, RoleType.toByte_injective (List.singleton_inj.1 hr)]
  all_goals have hk := List.append_cancel_left h
  all_goals first
    | rw [Subtype.ext hk]
    | rw [(pair_injective hk).1, (pair_injective hk).2]

theorem Pda.preimage_injective : Function.Injective Pda.preimage := by
  intro a b h
  obtain ⟨hs, hb⟩ := List.append_inj' h rfl
  cases a
  cases b
  exact congrArg₂ Pda.mk (Seeds.bytes_injective hs) (List.singleton_inj.1 hb)

/-! ### The ledger -/

/-- The accounts sss-token owns, by type and address. -/
structure Ledger where
  configs : Pda → Option StablecoinConfig
  roles : Pda → Option RoleRecord
  quotas : Pda → Option MinterQuota
  pauses : Pda → Option PauseState
  blacklist : Pda → Option BlacklistEntry
  allowlist : Pda → Option AllowlistEntry
  reserves : Pda → Option ReserveAttestation

def Ledger.empty : Ledger :=
  ⟨fun _ => none, fun _ => none, fun _ => none, fun _ => none, fun _ => none, fun _ => none, fun _ => none⟩

/-- No account of the program is at the address. -/
def Ledger.vacant (l : Ledger) (a : Pda) : Bool :=
  (l.configs a).isNone && (l.roles a).isNone && (l.quotas a).isNone && (l.pauses a).isNone &&
    (l.blacklist a).isNone && (l.allowlist a).isNone && (l.reserves a).isNone

namespace Ledger

theorem configs_of_vacant {l : Ledger} {a : Pda} (h : l.vacant a) : l.configs a = none := by
  simp only [vacant, Bool.and_eq_true, Option.isNone_iff_eq_none] at h
  exact h.1.1.1.1.1.1

/-- What a map has after one entry is written. -/
theorem update_eq_some {α : Type} {f : Pda → Option α} {a b : Pda} {x y : α} :
    Function.update f a (some x) b = some y ↔ b = a ∧ x = y ∨ b ≠ a ∧ f b = some y := by
  by_cases h : b = a
  · simp [h]
  · simp [h]

section setters

open Function

variable (l : Ledger) (a : Pda)

@[simps] def setConfig (c : StablecoinConfig) : Ledger := { l with configs := update l.configs a (some c) }

@[simps] def setRole (r : RoleRecord) : Ledger := { l with roles := update l.roles a (some r) }

@[simps] def setQuota (q : MinterQuota) : Ledger := { l with quotas := update l.quotas a (some q) }

@[simps] def setPause (p : PauseState) : Ledger := { l with pauses := update l.pauses a (some p) }

@[simps] def setBlacklist (e : BlacklistEntry) : Ledger := { l with blacklist := update l.blacklist a (some e) }

@[simps] def setAllowlist (e : AllowlistEntry) : Ledger := { l with allowlist := update l.allowlist a (some e) }

@[simps] def setReserve (r : ReserveAttestation) : Ledger := { l with reserves := update l.reserves a (some r) }

end setters

end Ledger

end ThawGate.Token
