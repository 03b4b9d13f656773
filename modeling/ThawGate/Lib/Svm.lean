import Mathlib.Data.Finset.Piecewise
import ThawGate.Lib.Balance
import ThawGate.Lib.Exec

/-!
# A program that edits lamports and calls other programs

While a program runs there are two versions of its accounts: the one that it edits (`held`) and the one
that the runtime has (`seen`). A call hands the runtime the edits of the accounts that are passed to it and
no others, and is refused unless the lamports of all the instruction's accounts, as the runtime then has
them, add up to what they were at its start. So an edit that is balanced for the program can be unbalanced for
the runtime, when one of the accounts it moved lamports between is passed to a call and the other is not
(`Frame.lamports_entered`).
-/

open Borsh (Bytes)
open Exec

namespace Svm

structure Account (P : Type) where
  lamports : ℕ
  owner : P
  data : Bytes
  deriving DecidableEq

/-- Everything but the lamports. -/
def Account.content {P : Type} (a : Account P) : P × Bytes := (a.owner, a.data)

inductive RuntimeError where
  | unbalancedInstruction
  | externalAccountLamportSpend
  | externalAccountDataModified
  | modifiedProgramId
  | invalidRealloc
  | invalidArgument
  /-- `SystemError::AccountAlreadyInUse` -/
  | accountAlreadyInUse
  /-- `SystemError::ResultWithNegativeLamports` -/
  | resultWithNegativeLamports
  deriving DecidableEq, Repr

variable {K P : Type}

/-! ### Lamports -/

/-- The lamports of a set of accounts. -/
def lamports (keys : Finset K) (accounts : K → Account P) : ℕ := ∑ k ∈ keys, (accounts k).lamports

section lamports

variable [DecidableEq K] {keys : Finset K} {accounts accounts' : K → Account P} {k j : K}

/-- Two versions that differ in one account differ by its lamports. -/
theorem lamports_of_ne (hk : k ∈ keys) (h : ∀ j, j ≠ k → (accounts' j).lamports = (accounts j).lamports) :
    lamports keys accounts' + (accounts k).lamports = lamports keys accounts + (accounts' k).lamports := by
  have hrest : ∑ j ∈ keys.erase k, (accounts' j).lamports = ∑ j ∈ keys.erase k, (accounts j).lamports :=
    Finset.sum_congr rfl fun j hj => h j (Finset.ne_of_mem_erase hj)
  unfold lamports
  rw [← Finset.add_sum_erase keys _ hk, ← Finset.add_sum_erase keys (fun j => (accounts j).lamports) hk, hrest]
  omega

/-- Lamports that went from one account of the set to another stay in it. -/
theorem lamports_of_moved (hj : j ∈ keys) (hk : k ∈ keys) (hne : j ≠ k)
    (hmoved : (accounts' j).lamports + (accounts' k).lamports = (accounts j).lamports + (accounts k).lamports)
    (h : ∀ i, i ≠ j → i ≠ k → (accounts' i).lamports = (accounts i).lamports) :
    lamports keys accounts' = lamports keys accounts := by
  have hk' : k ∈ keys.erase j := Finset.mem_erase.2 ⟨hne.symm, hk⟩
  have hrest : ∑ i ∈ (keys.erase j).erase k, (accounts' i).lamports =
      ∑ i ∈ (keys.erase j).erase k, (accounts i).lamports := by
    refine Finset.sum_congr rfl fun i hi => h i ?_ (Finset.ne_of_mem_erase hi)
    exact Finset.ne_of_mem_erase (Finset.mem_of_mem_erase hi)
  unfold lamports
  rw [← Finset.add_sum_erase keys _ hj, ← Finset.add_sum_erase keys (fun i => (accounts i).lamports) hj,
    ← Finset.add_sum_erase _ _ hk', ← Finset.add_sum_erase _ (fun i => (accounts i).lamports) hk', hrest]
  omega

end lamports

/-! ### The system program -/

section system

variable [DecidableEq K] [DecidableEq P] (system : P) (accounts : K → Account P)

/-- The accounts once `n` lamports went from `source` to `target`. -/
def moved (source target : K) (n : ℕ) : K → Account P :=
  let debited := Function.update accounts source
    ⟨(accounts source).lamports - n, (accounts source).owner, (accounts source).data⟩
  Function.update debited target ⟨(debited target).lamports + n, (debited target).owner, (debited target).data⟩

def transfer (source target : K) (n : ℕ) : Exec RuntimeError (K → Account P) := do
  require ((accounts source).data = []) .invalidArgument
  require (n ≤ (accounts source).lamports) .resultWithNegativeLamports
  require ((accounts source).owner = system) .externalAccountLamportSpend
  pure (moved accounts source target n)

def allocate (k : K) (space : ℕ) : Exec RuntimeError (K → Account P) := do
  require ((accounts k).data = [] ∧ (accounts k).owner = system) .accountAlreadyInUse
  pure (Function.update accounts k ⟨(accounts k).lamports, (accounts k).owner, List.replicate space 0⟩)

def assign (k : K) (owner : P) : Exec RuntimeError (K → Account P) := do
  require ((accounts k).owner = owner ∨ (accounts k).owner = system) .modifiedProgramId
  pure (Function.update accounts k ⟨(accounts k).lamports, owner, (accounts k).data⟩)

def createAccount (source target : K) (n space : ℕ) (owner : P) : Exec RuntimeError (K → Account P) := do
  require ((accounts target).lamports = 0) .accountAlreadyInUse
  let accounts ← allocate system accounts target space
  let accounts ← assign system accounts target owner
  transfer system accounts source target n

variable {system} {accounts} {accounts' : K → Account P} {source target k : K} {n space : ℕ} {owner : P}

omit [DecidableEq P] in
theorem update_content {a : Account P} (h : a.content = (accounts k).content) (j : K) :
    (Function.update accounts k a j).content = (accounts j).content := by
  by_cases hj : j = k
  · subst hj
    rw [Function.update_self, h]
  · rw [Function.update_of_ne hj]

omit [DecidableEq P] in
theorem update_lamports {a : Account P} (h : a.lamports = (accounts k).lamports) (j : K) :
    (Function.update accounts k a j).lamports = (accounts j).lamports := by
  by_cases hj : j = k
  · subst hj
    rw [Function.update_self, h]
  · rw [Function.update_of_ne hj]

omit [DecidableEq P] in
theorem moved_content (k : K) : (moved accounts source target n k).content = (accounts k).content := by
  unfold moved
  exact (update_content (by rfl) k).trans (update_content (by rfl) k)

omit [DecidableEq P] in
theorem moved_lamports_source (hne : source ≠ target) :
    (moved accounts source target n source).lamports = (accounts source).lamports - n := by
  rw [moved, Function.update_of_ne hne, Function.update_self]

omit [DecidableEq P] in
theorem moved_lamports_target (hne : source ≠ target) :
    (moved accounts source target n target).lamports = (accounts target).lamports + n := by
  rw [moved, Function.update_self, Function.update_of_ne hne.symm]

omit [DecidableEq P] in
theorem moved_of_ne (hs : k ≠ source) (ht : k ≠ target) : moved accounts source target n k = accounts k := by
  rw [moved, Function.update_of_ne ht, Function.update_of_ne hs]

theorem transfer_eq_ok : transfer system accounts source target n = ok accounts' ↔
    ((accounts source).data = [] ∧ n ≤ (accounts source).lamports ∧ (accounts source).owner = system) ∧
      accounts' = moved accounts source target n := by
  rw [transfer, require_bind_eq_ok, require_bind_eq_ok, require_bind_eq_ok, pure_eq, ok.injEq,
    eq_comm (b := accounts'), and_assoc, and_assoc]

theorem allocate_eq_ok : allocate system accounts k space = ok accounts' ↔
    ((accounts k).data = [] ∧ (accounts k).owner = system) ∧ accounts' =
      Function.update accounts k ⟨(accounts k).lamports, (accounts k).owner, List.replicate space 0⟩ := by
  rw [allocate, require_bind_eq_ok, pure_eq, ok.injEq, eq_comm (b := accounts')]

theorem assign_eq_ok : assign system accounts k owner = ok accounts' ↔
    ((accounts k).owner = owner ∨ (accounts k).owner = system) ∧
      accounts' = Function.update accounts k ⟨(accounts k).lamports, owner, (accounts k).data⟩ := by
  rw [assign, require_bind_eq_ok, pure_eq, ok.injEq, eq_comm (b := accounts')]

/-- An address is created at if nothing is there, not even lamports. -/
theorem createAccount_eq_ok (hne : source ≠ target) :
    createAccount system accounts source target n space owner = ok accounts' ↔
      accounts target = ⟨0, system, []⟩ ∧
        ((accounts source).data = [] ∧ n ≤ (accounts source).lamports ∧ (accounts source).owner = system) ∧
        accounts' = moved (Function.update accounts target ⟨0, owner, List.replicate space 0⟩) source target n := by
  rw [createAccount, require_bind_eq_ok]
  simp only [bind_eq_ok, allocate_eq_ok, assign_eq_ok, transfer_eq_ok]
  constructor
  · rintro ⟨hlamports, _, ⟨⟨hdata, howner⟩, rfl⟩, _, ⟨-, rfl⟩, hsource, rfl⟩
    simp only [Function.update_idem, Function.update_self, Function.update_of_ne hne, hlamports] at hsource ⊢
    refine ⟨?_, hsource, trivial⟩
    rw [← hlamports, ← howner, ← hdata]
  · rintro ⟨htarget, hsource, rfl⟩
    rw [htarget]
    refine ⟨rfl, _, ⟨⟨rfl, rfl⟩, rfl⟩, _, ⟨.inr ?_, rfl⟩, ?_, ?_⟩
    · rw [Function.update_self]
    · simpa only [Function.update_of_ne hne] using hsource
    · simp only [Function.update_self, Function.update_idem]

/-- A created account is empty and `owner`'s. -/
theorem createAccount_content (h : createAccount system accounts source target n space owner = ok accounts') (k : K) :
    (accounts' k).content = if k = target then (owner, List.replicate space 0) else (accounts k).content := by
  rw [createAccount, require_bind_eq_ok] at h
  obtain ⟨a₁, halloc, h⟩ := bind_eq_ok.1 h.2
  obtain ⟨a₂, hassign, htransfer⟩ := bind_eq_ok.1 h
  obtain ⟨-, rfl⟩ := allocate_eq_ok.1 halloc
  obtain ⟨-, rfl⟩ := assign_eq_ok.1 hassign
  obtain ⟨-, rfl⟩ := transfer_eq_ok.1 htransfer
  rw [moved_content]
  split_ifs with hk
  · rw [hk, Function.update_self, Function.update_self, Account.content]
  · rw [Function.update_of_ne hk, Function.update_of_ne hk]

end system

/-! ### A running instruction -/

structure Frame (K P : Type) where
  /-- The accounts of the instruction. -/
  keys : Finset K
  /-- Their lamports when it started. -/
  start : ℕ
  /-- The accounts as the runtime has them. -/
  seen : K → Account P
  /-- The accounts as the program has them. -/
  held : K → Account P

namespace Frame

def enter (keys : Finset K) (accounts : K → Account P) : Frame K P :=
  ⟨keys, lamports keys accounts, accounts, accounts⟩

/-- The end of the instruction. -/
def leave (f : Frame K P) : Exec RuntimeError (K → Account P) := do
  require (lamports f.keys f.held = f.start) .unbalancedInstruction
  pure f.held

theorem leave_eq_ok {f : Frame K P} {accounts : K → Account P} :
    f.leave = ok accounts ↔ lamports f.keys f.held = f.start ∧ accounts = f.held := by
  rw [leave, require_bind_eq_ok, pure_eq, ok.injEq, eq_comm (a := f.held)]

variable [DecidableEq K]

/-- What the runtime has once the program's edits of the accounts in `passed` are taken over. -/
def entered (f : Frame K P) (passed : Finset K) : K → Account P := passed.piecewise f.held f.seen

/-- A call that is passed the accounts in `passed`; what it did to them is visible to the program. -/
def invoke (f : Frame K P) (passed : Finset K) (call : (K → Account P) → Exec RuntimeError (K → Account P)) :
    Exec RuntimeError (Frame K P) := do
  require (lamports f.keys (f.entered passed) = f.start) .unbalancedInstruction
  let left ← call (f.entered passed)
  pure ⟨f.keys, f.start, left, passed.piecewise left f.held⟩

/-- The program writes to an account. -/
def put (f : Frame K P) (k : K) (a : Account P) : Frame K P := { f with held := Function.update f.held k a }

section put

variable (f : Frame K P) (k : K) (a : Account P)

@[simp] theorem put_keys : (f.put k a).keys = f.keys := rfl

@[simp] theorem put_start : (f.put k a).start = f.start := rfl

@[simp] theorem put_seen : (f.put k a).seen = f.seen := rfl

@[simp] theorem put_held_self : (f.put k a).held k = a := Function.update_self ..

theorem put_held_of_ne {j : K} (h : j ≠ k) : (f.put k a).held j = f.held j := Function.update_of_ne h ..

end put

/-! What the runtime lets the running program edit. -/

variable [DecidableEq P] (program : P)

def setLamports (f : Frame K P) (k : K) (n : ℕ) : Exec RuntimeError (Frame K P) := do
  require ((f.held k).owner = program ∨ (f.held k).lamports ≤ n) .externalAccountLamportSpend
  pure (f.put k ⟨n, (f.held k).owner, (f.held k).data⟩)

def setData (f : Frame K P) (k : K) (data : Bytes) : Exec RuntimeError (Frame K P) := do
  require ((f.held k).owner = program) .externalAccountDataModified
  pure (f.put k ⟨(f.held k).lamports, (f.held k).owner, data⟩)

/-- `MAX_PERMITTED_DATA_INCREASE` -/
def maxDataIncrease : ℕ := 10240

/-- `AccountInfo::resize`: cut off, or zeros added. -/
def resize (f : Frame K P) (k : K) (length : ℕ) : Exec RuntimeError (Frame K P) := do
  let data := (f.held k).data
  require (length ≤ data.length + maxDataIncrease) .invalidRealloc
  f.setData program k (data.take length ++ List.replicate (length - data.length) 0)

variable {program} {f f' : Frame K P} {k : K}

theorem setLamports_eq_ok {n : ℕ} : f.setLamports program k n = ok f' ↔
    ((f.held k).owner = program ∨ (f.held k).lamports ≤ n) ∧
      f' = f.put k ⟨n, (f.held k).owner, (f.held k).data⟩ := by
  rw [setLamports, require_bind_eq_ok, pure_eq, ok.injEq, eq_comm (b := f')]

theorem setData_eq_ok {data : Bytes} : f.setData program k data = ok f' ↔
    (f.held k).owner = program ∧ f' = f.put k ⟨(f.held k).lamports, (f.held k).owner, data⟩ := by
  rw [setData, require_bind_eq_ok, pure_eq, ok.injEq, eq_comm (b := f')]

theorem resize_eq_ok {length : ℕ} : f.resize program k length = ok f' ↔
    length ≤ (f.held k).data.length + maxDataIncrease ∧ (f.held k).owner = program ∧
      f' = f.put k ⟨(f.held k).lamports, (f.held k).owner,
        (f.held k).data.take length ++ List.replicate (length - (f.held k).data.length) 0⟩ := by
  rw [resize, require_bind_eq_ok, setData_eq_ok]

omit [DecidableEq P] in
theorem put_content {a : Account P} (h : a.content = (f.held k).content) (j : K) :
    ((f.put k a).held j).content = (f.held j).content :=
  update_content h j

theorem setLamports_content {n : ℕ} (h : f.setLamports program k n = ok f') (j : K) :
    (f'.held j).content = (f.held j).content := by
  obtain ⟨-, rfl⟩ := setLamports_eq_ok.1 h
  exact put_content (by rfl) j

/-! ### What a call leaves -/

omit [DecidableEq P]

variable {passed : Finset K} {call : (K → Account P) → Exec RuntimeError (K → Account P)}

theorem invoke_eq_ok : f.invoke passed call = ok f' ↔ lamports f.keys (f.entered passed) = f.start ∧
    ∃ left, call (f.entered passed) = ok left ∧ f' = ⟨f.keys, f.start, left, passed.piecewise left f.held⟩ := by
  rw [invoke, require_bind_eq_ok, bind_eq_ok]
  simp only [pure_eq, ok.injEq, eq_comm (a := f')]

theorem entered_of_mem (hk : k ∈ passed) : f.entered passed k = f.held k := Finset.piecewise_eq_of_mem _ _ _ hk

theorem entered_of_notMem (hk : k ∉ passed) : f.entered passed k = f.seen k :=
  Finset.piecewise_eq_of_notMem _ _ _ hk

@[simp] theorem entered_enter (keys passed : Finset K) (accounts : K → Account P) :
    (enter keys accounts).entered passed = accounts :=
  Finset.piecewise_same _ _

/-- What a call does to the contents of the accounts it is passed, it does to what the program holds. -/
theorem invoke_content {g : K → P × Bytes → P × Bytes} (h : f.invoke passed call = ok f')
    (hg : ∀ k, k ∉ passed → ∀ c, g k c = c)
    (hcall : ∀ accounts left, call accounts = ok left → ∀ k, (left k).content = g k (accounts k).content) (k : K) :
    (f'.held k).content = g k (f.held k).content := by
  obtain ⟨-, left, hleft, rfl⟩ := invoke_eq_ok.1 h
  dsimp only
  by_cases hk : k ∈ passed
  · rw [Finset.piecewise_eq_of_mem _ _ _ hk, hcall _ _ hleft, entered_of_mem hk]
  · rw [Finset.piecewise_eq_of_notMem _ _ _ hk, hg k hk]

/-- A call that writes to one account. -/
theorem invoke_update {g : Account P → Account P} (h : f.invoke {k} call = ok f')
    (hcall : ∀ accounts left, call accounts = ok left → left = Function.update accounts k (g (accounts k))) :
    f'.held = Function.update f.held k (g (f.held k)) := by
  obtain ⟨-, left, hleft, rfl⟩ := invoke_eq_ok.1 h
  have hk := Finset.mem_singleton_self k
  funext j
  dsimp only
  rw [hcall _ _ hleft, entered_of_mem hk]
  by_cases hj : j = k
  · subst hj
    rw [Finset.piecewise_eq_of_mem _ _ _ hk, Function.update_self, Function.update_self]
  · rw [Finset.piecewise_eq_of_notMem _ _ _ (mt Finset.mem_singleton.1 hj), Function.update_of_ne hj]

/-- Where the runtime lags behind the program in one account only, it enters a call that is not passed this
account with the lamports the program has, but for what moved there. -/
theorem lamports_entered (hk : k ∈ f.keys) (hpassed : k ∉ passed)
    (hsync : ∀ j, j ∉ passed → j ≠ k → (f.seen j).lamports = (f.held j).lamports) :
    lamports f.keys (f.entered passed) + (f.held k).lamports =
      lamports f.keys f.held + (f.seen k).lamports := by
  rw [← entered_of_notMem (f := f) hpassed]
  refine lamports_of_ne hk fun j hj => ?_
  by_cases hjp : j ∈ passed
  · rw [entered_of_mem hjp]
  · rw [entered_of_notMem hjp, hsync j hjp hj]

end Frame

end Svm
