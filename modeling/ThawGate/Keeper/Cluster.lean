import ThawGate.Keeper.Holders
import ThawGate.Lib.Batch

/-!
# What the keeper reads of the cluster

The RPC's answers at one state of the cluster, and the decoders of Token ACL's `MintConfig` and of Token-2022's
token accounts. Like the other decoders they never read past the end of the data (`decodeTokenAccount_cases`,
`decodeMintConfig_ok`).
-/

namespace ThawGate.Keeper

open Borsh Exec

/-! ### Decoders -/

/-- `DataView.getBigUint64(at, true)`; throws past the end. -/
def getBigUint64 (data : Bytes) (at_ : Nat) : Exec Empty Nat :=
  if at_ + 8 ≤ data.length then .ok (leNat (slice data at_ 8)) else .panic

structure MintConfig where
  mint : Pubkey
  freezeAuthority : Pubkey
  gatingProgram : Pubkey
  permissionlessThaw : Bool
  permissionlessFreeze : Bool
  deriving DecidableEq

def decodeMintConfig (data : Bytes) : Exec Empty (Option MintConfig) :=
  if data.length ≠ 100 then .ok none
  else do
    if (← index data 0) ≠ 1 then return none
    let mint ← keyAt data 4
    let freezeAuthority ← keyAt data 36
    let gatingProgram ← keyAt data 68
    return some ⟨mint, freezeAuthority, gatingProgram, (← index data 2) = 1, (← index data 3) = 1⟩

structure TokenAccount where
  mint : Pubkey
  owner : Pubkey
  amount : Nat
  state : TokenState
  deriving DecidableEq

/-- `TOKEN_STATES` -/
def tokenStates : List TokenState := [.uninitialized, .initialized, .frozen]

def decodeTokenAccount (data : Bytes) : Exec Empty (Option TokenAccount) :=
  if data.length < 165 ∨ (165 < data.length ∧ data[165]? ≠ some 2) then .ok none
  else do
    match tokenStates[(← index data 108).toNat]? with
    | none => pure none
    | some state =>
      let mint ← keyAt data 0
      let owner ← keyAt data 32
      let amount ← getBigUint64 data 64
      pure (some ⟨mint, owner, amount, state⟩)

theorem decodeMintConfig_ok (data : Bytes) : ∃ config, decodeMintConfig data = .ok config := by
  unfold decodeMintConfig
  split_ifs with hlen
  · exact ⟨none, rfl⟩
  · obtain hlen := not_not.1 hlen
    rw [index_eq (by omega), bind_ok]
    split_ifs
    · exact ⟨none, rfl⟩
    · rw [keyAt_ok 4 (by omega), keyAt_ok 36 (by omega), keyAt_ok 68 (by omega)]
      simp only [bind_ok, index_eq (show 2 < data.length by omega), index_eq (show 3 < data.length by omega)]
      exact ⟨_, rfl⟩

/-- A token account's data name its mint in front. -/
theorem decodeTokenAccount_cases (data : Bytes) :
    decodeTokenAccount data = .ok none ∨
      ∃ token, decodeTokenAccount data = .ok (some token) ∧ token.mint.1 = slice data 0 32 := by
  unfold decodeTokenAccount
  split_ifs with hlen
  · exact .inl rfl
  · have hle : 165 ≤ data.length := Nat.not_lt.1 fun h => hlen (.inl h)
    rw [index_eq (by omega), bind_ok]
    split
    · exact .inl rfl
    · refine .inr ?_
      rw [keyAt_ok 0 (by omega), keyAt_ok 32 (by omega), getBigUint64, if_pos (by omega)]
      exact ⟨_, rfl, rfl⟩

/-! ### The cluster -/

/-- The accounts and the clock of the cluster at one state. -/
structure Cluster where
  accounts : Map Pubkey RawAccount
  now : Int64

namespace Cluster

variable (c : Cluster)

def account (address : Pubkey) : Option RawAccount := c.accounts.lookup address

/-- The account as the programs see it. -/
def info (address : Pubkey) : AccountInfo :=
  match c.account address with
  | some raw => ⟨address, raw.owner, raw.data⟩
  | none => ⟨address, Pubkey.default, []⟩

/-- `getProgramAccounts` with one `memcmp` filter. -/
def getProgramAccounts (program : Pubkey) (offset : Nat) (bytes : Bytes) : List (Pubkey × RawAccount) :=
  (c.accounts.entries.map fun a => (a.1, a.2)).filter fun a =>
    a.2.owner = program ∧ slice a.2.data offset bytes.length = bytes

/-- `getMultipleAccounts`, which takes at most 100 addresses. -/
def getMultipleAccounts (addresses : List Pubkey) : List (Option RawAccount) := addresses.map c.account

/-- `accounts`, in batches of `BATCH`. -/
def readAccounts (addresses : List Pubkey) : List (Option RawAccount) :=
  Batch.batched 100 c.getMultipleAccounts addresses

theorem sees_info (address : Pubkey) : Sees (c.info address) (c.account address) := by
  unfold info
  cases h : c.account address with
  | none => exact .inr ⟨rfl, rfl⟩
  | some raw => exact .inl rfl

theorem mem_getProgramAccounts {program address : Pubkey} {offset : Nat} {bytes : Bytes} {raw : RawAccount} :
    (address, raw) ∈ c.getProgramAccounts program offset bytes ↔
      c.account address = some raw ∧ raw.owner = program ∧ slice raw.data offset bytes.length = bytes := by
  rw [getProgramAccounts, List.mem_filter, decide_eq_true_eq, List.mem_map]
  refine and_congr_left fun _ => ?_
  constructor
  · rintro ⟨⟨k, a⟩, ha, heq⟩
    obtain ⟨rfl, rfl⟩ := Prod.mk.inj heq
    exact AList.mem_lookup_iff.2 ha
  · exact fun h => ⟨⟨address, raw⟩, AList.mem_lookup_iff.1 h, rfl⟩

theorem readAccounts_eq (addresses : List Pubkey) : c.readAccounts addresses = addresses.map c.account :=
  Batch.batched_eq_map (by decide) (fun _ _ => rfl) addresses

end Cluster

end ThawGate.Keeper
