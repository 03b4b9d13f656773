import ThawGate.DemoPool.Program

/-!
# What the token programs do

What the pool's results assume of `transfer_checked`, and `tills`, a token program that meets it: mints with a
transfer fee, rounded up, and accounts in tables.
-/

namespace ThawGate.DemoPool

open Exec Function
open Token (Mint TokenAccount)

variable {W : Type} {P : Programs W} {s : State W}

namespace Programs

variable (P : Programs W)

def balance (w : W) (k : Pubkey) : Nat := (P.tokenAccount w k).elim 0 fun t => t.amount.toNat

def mintOf (w : W) (k : Pubkey) : Option Pubkey := (P.tokenAccount w k).map TokenAccount.mint

/-- What reaches the destination of a transfer. Nothing moves from an account to itself. -/
def received (w : W) (mint source destination : Pubkey) (amount : UInt64) : Nat :=
  if source = destination then amount.toNat else amount.toNat - (P.transferFee w mint amount).toNat

/-- `transfer_checked` is between accounts of the mint, debits the amount and credits what is received. -/
structure TransfersLessFee : Prop where
  source : ∀ {w w' program source mint destination authority signer amount decimals},
    P.invoke w (.transferChecked program source mint destination authority signer amount decimals) = some w' →
      P.mintOf w source = some mint
  destination : ∀ {w w' program source mint destination authority signer amount decimals},
    P.invoke w (.transferChecked program source mint destination authority signer amount decimals) = some w' →
      P.mintOf w destination = some mint
  mintOf : ∀ {w w' program source mint destination authority signer amount decimals},
    P.invoke w (.transferChecked program source mint destination authority signer amount decimals) = some w' →
      ∀ k, P.mintOf w' k = P.mintOf w k
  balance : ∀ {w w' program source mint destination authority signer amount decimals},
    P.invoke w (.transferChecked program source mint destination authority signer amount decimals) = some w' →
      ∀ k, P.balance w' k + (if k = source then amount.toNat else 0) =
        P.balance w k + if k = destination then P.received w mint source destination amount else 0

end Programs

theorem balance_of_account {w : W} {k : Pubkey} {t : TokenAccount} (ht : P.tokenAccount w k = some t) :
    P.balance w k = t.amount.toNat := by
  rw [Programs.balance, ht]
  rfl

/-! ### Tills -/

structure Tills where
  mints : Pubkey → Option Mint
  /-- What each mint withholds, in basis points. -/
  feeBps : Pubkey → Nat
  accounts : Pubkey → Option TokenAccount

namespace Tills

def fee (v : Tills) (mint : Pubkey) (amount : UInt64) : UInt64 :=
  UInt64.ofNat ((amount.toNat * v.feeBps mint + 9999) / 10000)

def create (v : Tills) (program account mint authority : Pubkey) : Option Tills :=
  match v.mints mint, v.accounts account with
  | some _, none => some { v with accounts := update v.accounts account (some ⟨program, mint, authority, 0, false⟩) }
  | _, _ => none

/-- An account that sends to itself keeps what it has. -/
def move (v : Tills) (source mint destination authority : Pubkey) (amount : UInt64) : Option Tills := do
  let t ← v.accounts source
  let u ← v.accounts destination
  guard (t.mint = mint ∧ u.mint = mint ∧ t.owner = authority)
  guard (amount ≤ t.amount ∧ u.amount.toNat + amount.toNat < UInt64.size)
  let sent := { t with amount := t.amount - amount }
  let credited := { u with amount := UInt64.ofNat (u.amount.toNat + (amount.toNat - (v.fee mint amount).toNat)) }
  pure (if source = destination then v
    else { v with accounts := update (update v.accounts source (some sent)) destination (some credited) })

def invoke (v : Tills) : Call → Option Tills
  | .createAccount .. | .immutableOwnerInitialize .. => some v
  | .initializeAccount3 program account mint authority => v.create program account mint authority
  | .transferChecked _ source mint destination authority _ amount _ => v.move source mint destination authority amount

end Tills

def tills : Programs Tills where
  canonicalBump _ _ := 255
  address _ := sampleKey 255
  mint v := v.mints
  tokenAccount v := v.accounts
  extensionTypes _ _ := some []
  requiredInitAccountExtensions types := types
  accountLen types := some (165 + types.length)
  minimumBalance _ space := UInt64.ofNat space
  transferFee := Tills.fee
  invoke := Tills.invoke

theorem Tills.move_eq_some {v v' : Tills} {source mint destination authority : Pubkey} {amount : UInt64}
    (h : v.move source mint destination authority amount = some v') :
    ∃ t u, v.accounts source = some t ∧ v.accounts destination = some u ∧ t.mint = mint ∧ u.mint = mint ∧
      amount ≤ t.amount ∧ u.amount.toNat + amount.toNat < UInt64.size ∧
      (source = destination ∧ v' = v ∨ source ≠ destination ∧ v'.accounts = update
        (update v.accounts source (some { t with amount := t.amount - amount })) destination
        (some { u with
          amount := UInt64.ofNat (u.amount.toNat + (amount.toNat - (v.fee mint amount).toNat)) })) := by
  simp only [move, Option.bind_eq_bind, Option.bind_eq_some_iff, Option.guard_eq_some', exists_const,
    Option.pure_def, Option.some.injEq] at h
  obtain ⟨t, ht, u, hu, ⟨hmint, hmint', -⟩, ⟨hle, hfits⟩, rfl⟩ := h
  refine ⟨t, u, ht, hu, hmint, hmint', hle, hfits, ?_⟩
  by_cases hself : source = destination
  · exact .inl ⟨hself, if_pos hself⟩
  · rw [if_neg hself]
    exact .inr ⟨hself, rfl⟩

theorem tills_transfersLessFee : tills.TransfersLessFee where
  source := by
    intro v v' program source mint destination authority signer amount decimals h
    obtain ⟨t, u, ht, -, hmint, -⟩ := Tills.move_eq_some h
    show (v.accounts source).map TokenAccount.mint = some mint
    rw [ht, ← hmint]
    rfl
  destination := by
    intro v v' program source mint destination authority signer amount decimals h
    obtain ⟨t, u, -, hu, -, hmint, -⟩ := Tills.move_eq_some h
    show (v.accounts destination).map TokenAccount.mint = some mint
    rw [hu, ← hmint]
    rfl
  mintOf := by
    intro v v' program source mint destination authority signer amount decimals h k
    obtain ⟨t, u, ht, hu, -, -, -, -, ⟨-, rfl⟩ | ⟨-, haccounts⟩⟩ := Tills.move_eq_some h
    · rfl
    · show (v'.accounts k).map TokenAccount.mint = (v.accounts k).map TokenAccount.mint
      rw [haccounts]
      by_cases hdestination : k = destination
      · rw [hdestination, update_self, hu]
        rfl
      rw [update_of_ne hdestination]
      by_cases hsource : k = source
      · rw [hsource, update_self, ht]
        rfl
      · rw [update_of_ne hsource]
  balance := by
    intro v v' program source mint destination authority signer amount decimals h k
    obtain ⟨t, u, ht, hu, -, -, hle, hfits, ⟨rfl, rfl⟩ | ⟨hne, haccounts⟩⟩ := Tills.move_eq_some h
    · rw [Programs.received, if_pos rfl]
    · have hsize : UInt64.size = 2 ^ 64 := rfl
      rw [Programs.received, if_neg hne]
      show (v'.accounts k).elim 0 _ + _ = (v.accounts k).elim 0 _ + _
      rw [haccounts]
      by_cases hdestination : k = destination
      · rw [hdestination, update_self, if_neg hne.symm, if_pos rfl, hu]
        show (UInt64.ofNat _).toNat + 0 = u.amount.toNat + (amount.toNat - (v.fee mint amount).toNat)
        rw [UInt64.toNat_ofNat_of_lt' (by omega), Nat.add_zero]
      rw [update_of_ne hdestination, if_neg hdestination]
      by_cases hsource : k = source
      · rw [hsource, update_self, if_pos rfl, ht]
        show (t.amount - amount).toNat + amount.toNat = t.amount.toNat + 0
        rw [UInt64.toNat_sub_of_le _ _ hle]
        have hle' := UInt64.le_iff_toNat_le.1 hle
        omega
      · rw [update_of_ne hsource, if_neg hsource]

/-! ### A sample pool -/

/-- Mint 10 withholds 1%, mint 11 nothing. Keys 1 and 2 have accounts of both. -/
def sampleTills : Tills where
  mints k := if k = sampleKey 10 ∨ k = sampleKey 11 then some ⟨token2022Id, 0, 6, none, false⟩ else none
  feeBps k := if k = sampleKey 10 then 100 else 0
  accounts := Function.update (Function.update (Function.update (Function.update (fun _ => none)
    (sampleKey 14) (some ⟨token2022Id, sampleKey 10, sampleKey 1, 200000, false⟩))
    (sampleKey 15) (some ⟨token2022Id, sampleKey 11, sampleKey 1, 200000, false⟩))
    (sampleKey 16) (some ⟨token2022Id, sampleKey 10, sampleKey 2, 10000, false⟩))
    (sampleKey 17) (some ⟨token2022Id, sampleKey 11, sampleKey 2, 10000, false⟩)

/-- Key 1 opens the pool of mints 10 and 11 with a fee of 0.3% and deposits 100000 of each. -/
def sampleOpening : List Instruction :=
  let pool : Pda := ⟨sampleKey 10, sampleKey 11, 255⟩
  [.initPool ⟨sampleKey 1, pool, sampleKey 10, sampleKey 11, sampleKey 12, sampleKey 13, token2022Id, token2022Id⟩ 30,
    .deposit ⟨sampleKey 1, pool, sampleKey 10, sampleKey 11, sampleKey 12, sampleKey 13, sampleKey 14, sampleKey 15,
      token2022Id, token2022Id⟩ 100000 100000]

/-- The accounts of key 2. -/
def sampleSwap : Swap where
  user := sampleKey 2
  pool := ⟨sampleKey 10, sampleKey 11, 255⟩
  mintA := sampleKey 10
  mintB := sampleKey 11
  vaultA := sampleKey 12
  vaultB := sampleKey 13
  userA := sampleKey 16
  userB := sampleKey 17
  tokenProgramA := token2022Id
  tokenProgramB := token2022Id

/-- The state after some instructions, the failed ones skipped. -/
def execAll (P : Programs W) (s : State W) : List Instruction → State W
  | [] => s
  | ix :: rest =>
    match exec P s ix with
    | ok s' => execAll P s' rest
    | _ => execAll P s rest

theorem execAll_reachable {ixs : List Instruction} (h : (machine P).Reachable s) :
    (machine P).Reachable (execAll P s ixs) := by
  induction ixs generalizing s with
  | nil => exact h
  | cons ix rest ih =>
    cases hx : exec P s ix with
    | ok s' =>
      simp only [execAll, hx]
      exact ih (h.step (.succeeded hx))
    | err e | panic =>
      simp only [execAll, hx]
      refine ih (h.step (e := .tx ix false) (.failed fun s' hs => ?_))
      rw [hx] at hs
      contradiction

def samplePool : State Tills := execAll tills ⟨fun _ => none, sampleTills⟩ sampleOpening

theorem samplePool_reachable : (machine tills).Reachable samplePool := execAll_reachable ⟨[], .start rfl⟩

end ThawGate.DemoPool
