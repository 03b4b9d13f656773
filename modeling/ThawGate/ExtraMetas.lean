import ThawGate.Chain

/-!
# Extra account metas

The account resolution that the transfer-hook and Token ACL interfaces share. A program leaves a list
of metas for each mint; the caller turns every meta into an address, in order, from the accounts that
come before it, and passes the accounts found there.
-/

namespace ThawGate

open Borsh

/-- The accounts of the chain by address, and how addresses are derived. An address without an account
has no data. -/
structure Accounts where
  findProgramAddress : List Bytes → Pubkey → Pubkey
  owner : Pubkey → Pubkey
  data : Pubkey → Bytes

def Accounts.info (c : Accounts) (k : Pubkey) : AccountInfo := ⟨k, c.owner k, c.data k⟩

inductive Seed where
  | literal (bytes : Bytes)
  | accountKey (index : Nat)
  | accountData (accountIndex dataIndex length : Nat)
  deriving DecidableEq

def Seed.resolve (accounts : List AccountInfo) : Seed → Option Bytes
  | literal bytes => some bytes
  | accountKey index => accounts[index]?.map (·.key.1)
  | accountData accountIndex dataIndex length =>
    accounts[accountIndex]?.bind fun a =>
      if dataIndex + length ≤ a.data.length then some (slice a.data dataIndex length) else none

inductive ExtraAccountMeta where
  | pubkey (k : Pubkey)
  /-- An address of the program that left the list. -/
  | pda (seeds : List Seed)
  /-- An address of the program at an index of the accounts. -/
  | externalPda (program : Nat) (seeds : List Seed)
  deriving DecidableEq

def ExtraAccountMeta.resolve (c : Accounts) (programId : Pubkey) (accounts : List AccountInfo) :
    ExtraAccountMeta → Option Pubkey
  | pubkey k => some k
  | pda seeds => (seeds.mapM (Seed.resolve accounts)).map (c.findProgramAddress · programId)
  | externalPda program seeds =>
    accounts[program]?.bind fun p => (seeds.mapM (Seed.resolve accounts)).map (c.findProgramAddress · p.key)

/-- The accounts with those of the metas behind them. -/
def resolveMetas (c : Accounts) (programId : Pubkey) (accounts : List AccountInfo)
    (metas : List ExtraAccountMeta) : Option (List AccountInfo) :=
  metas.foldlM (fun as m => (m.resolve c programId as).map fun k => as ++ [c.info k]) accounts

end ThawGate
