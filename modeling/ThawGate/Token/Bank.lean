import ThawGate.Token.Context

/-!
# A bank

What results about balances assume of the other programs, and `bank`, a small Token-2022 that meets
it: mints and token accounts in tables, created, minted to, frozen, and nothing else.
-/

namespace ThawGate.Token

open Exec Function

/-- The system program creates no account at its own address, the default key; creating a token account
leaves the mint as it is; and Token-2022 mints what it is told to. -/
structure Programs.MintsExactly {W : Type} (P : Programs W) : Prop where
  createMintAccount : ∀ {w w' payer mint extensions metadata},
    P.invoke w (.createMintAccount payer mint extensions metadata) = some w' → mint ≠ Pubkey.default
  createAssociatedToken : ∀ {w w' program payer account wallet mint},
    P.invoke w (.createAssociatedToken program payer account wallet mint) = some w' →
      P.mint w' mint = P.mint w mint
  mintTo : ∀ {w w' program mint account authority amount m},
    P.invoke w (.mintTo program mint account authority amount) = some w' → P.mint w mint = some m →
      ∃ m', P.mint w' mint = some m' ∧ m'.supply.toNat = m.supply.toNat + amount.toNat

structure Bank where
  mints : Pubkey → Option Mint
  mintAuthority : Pubkey → Option Pubkey
  accounts : Pubkey → Option TokenAccount

namespace Bank

def empty : Bank := ⟨fun _ => none, fun _ => none, fun _ => none⟩

def createMint (b : Bank) (mint : Pubkey) (decimals : UInt8) (mintAuthority freezeAuthority : Pubkey) :
    Option Bank :=
  match b.mints mint with
  | some _ => none
  | none => some { b with
      mints := update b.mints mint (some ⟨token2022Id, 0, decimals, some freezeAuthority, false⟩)
      mintAuthority := update b.mintAuthority mint (some mintAuthority) }

def createAccount (b : Bank) (account wallet mint : Pubkey) : Option Bank :=
  match b.mints mint, b.accounts account with
  | some _, none => some { b with
      accounts := update b.accounts account (some ⟨token2022Id, mint, wallet, 0, false⟩) }
  | _, _ => none

def mintTo (b : Bank) (mint account authority : Pubkey) (amount : UInt64) : Option Bank :=
  match b.mints mint, b.accounts account with
  | some m, some t =>
    if m.supply.toNat + amount.toNat < UInt64.size ∧ t.mint = mint ∧ t.frozen = false ∧ m.paused = false ∧
        b.mintAuthority mint = some authority then
      some { b with
        mints := update b.mints mint (some { m with supply := m.supply + amount })
        accounts := update b.accounts account (some { t with amount := t.amount + amount }) }
    else none
  | _, _ => none

def freezeAccount (b : Bank) (account mint authority : Pubkey) : Option Bank :=
  match b.mints mint, b.accounts account with
  | some m, some t =>
    if t.mint = mint ∧ t.frozen = false ∧ m.freezeAuthority = some authority then
      some { b with accounts := update b.accounts account (some { t with frozen := true }) }
    else none
  | _, _ => none

def invoke (b : Bank) : Call → Option Bank
  | .createMintAccount _ mint _ _ => if mint = .default then none else some b
  | .initializePermanentDelegate .. | .initializeTransferHook .. => some b
  | .initializeMint2 program mint decimals mintAuthority freezeAuthority =>
    if program = token2022Id then b.createMint mint decimals mintAuthority freezeAuthority else none
  | .createAssociatedToken program _ account wallet mint =>
    if program = token2022Id then b.createAccount account wallet mint else none
  | .mintTo program mint account authority amount =>
    if program = token2022Id then b.mintTo mint account authority amount else none
  | .freezeAccount program account mint authority =>
    if program = token2022Id then b.freezeAccount account mint authority else none
  | _ => none

end Bank

/-- The programs of a world that is only a bank. Every canonical bump is 255, and addresses are taken
apart only as far as the runs below need. -/
def bank : Programs Bank where
  canonicalBump _ := 255
  address _ := sampleKey 255
  mintPda _ mint := mint
  associatedToken wallet _ _ := wallet
  mint b := b.mints
  tokenAccount b := b.accounts
  dataIsEmpty b k := (b.accounts k).isNone
  invoke := Bank.invoke

theorem bank_mintsExactly : bank.MintsExactly where
  createMintAccount := by
    intro w w' payer mint extensions metadata h
    simp only [bank, Bank.invoke] at h
    split_ifs at h with hmint
    exact hmint
  createAssociatedToken := by
    intro w w' program payer account wallet mint h
    simp only [bank, Bank.invoke, Bank.createAccount] at h
    split_ifs at h
    split at h
    · obtain rfl := Option.some.inj h
      rfl
    · contradiction
  mintTo := by
    intro w w' program mint account authority amount m h hm
    simp only [bank] at hm
    simp only [bank, Bank.invoke, Bank.mintTo, hm] at h
    split_ifs at h
    split at h
    · rename_i heq _
      obtain rfl := Option.some.inj heq
      split_ifs at h with hok
      obtain rfl := Option.some.inj h
      refine ⟨_, update_self .., ?_⟩
      rw [UInt64.toNat_add, Nat.mod_eq_of_lt hok.1]
    · contradiction

end ThawGate.Token
