import ThawGate.ExtraMetas
import ThawGate.Lib.Run
import ThawGate.Token.State

/-!
# The transfer hook

`initialize_extra_account_meta_list` leaves the list of accounts that Token-2022 resolves on every
transfer of a mint, and `execute` reads them. The mirror structs of the hook have the fields of
sss-token's `PauseState` and `BlacklistEntry` in their order, so those types' codecs decode them.
-/

namespace ThawGate.Hook

open Borsh Exec Function
open Token (PauseState BlacklistEntry)

inductive TransferHookError where
  | tokensPaused
  | sourceBlacklisted
  | destinationBlacklisted
  | alreadyInitialized
  | invalidAccountData
  | invalidSssTokenProgram
  deriving DecidableEq, Repr

inductive Failure where
  | hook (e : TransferHookError)
  /-- Anchor's `require_keys_eq!`. -/
  | requireKeysEqViolated
  /-- Anchor: fewer accounts than the instruction names. -/
  | accountNotEnoughKeys
  /-- The system program refused a call. -/
  | system
  /-- Token-2022 could not resolve the list. -/
  | accountResolution
  deriving DecidableEq, Repr

/-! ### The account list -/

def seedPause : Bytes := "pause_state".toUTF8.data.toList

def seedBlacklist : Bytes := "blacklist".toUTF8.data.toList

/-- The metas of every list. They follow the five accounts of the interface: source, mint, destination,
authority and the list itself. -/
def extraMetas (sssProgramId : Pubkey) : List ExtraAccountMeta :=
  [.pubkey sssProgramId,
    .externalPda 5 [.literal seedPause, .accountKey 1],
    .externalPda 5 [.literal seedBlacklist, .accountKey 1, .accountKey 3],
    .externalPda 5 [.literal seedBlacklist, .accountKey 1, .accountData 2 32 32]]

/-- Where a mint's list is. -/
def metaListAddress (c : Accounts) (mint : Pubkey) : Pubkey :=
  c.findProgramAddress ["extra-account-metas".toUTF8.data.toList, mint.1] hookId

/-- The accounts at list addresses: their balance and, once the hook owns one, its list. -/
structure MetaLists where
  lamports : Pubkey → Nat
  list : Pubkey → Option (List ExtraAccountMeta)

structure InitializeExtraAccountMetaList where
  extraAccountMetaList : Pubkey
  mint : Pubkey
  sssTokenProgram : Pubkey
  deriving DecidableEq

/-- `create_account` refuses an address that has a balance. -/
def initializeExtraAccountMetaList (c : Accounts) (minimumBalance : Nat) (s : MetaLists)
    (x : InitializeExtraAccountMetaList) : Exec Failure MetaLists := do
  require (x.sssTokenProgram = sssTokenId) (.hook .invalidSssTokenProgram)
  require (x.extraAccountMetaList = metaListAddress c x.mint) .requireKeysEqViolated
  require (s.lamports x.extraAccountMetaList = 0 ∧ s.list x.extraAccountMetaList = none) .system
  pure { lamports := update s.lamports x.extraAccountMetaList minimumBalance
         list := update s.list x.extraAccountMetaList (some (extraMetas x.sssTokenProgram)) }

theorem initializeExtraAccountMetaList_ok {c : Accounts} {minimumBalance : Nat} {s s' : MetaLists}
    {x : InitializeExtraAccountMetaList} (h : initializeExtraAccountMetaList c minimumBalance s x = ok s') :
    x.extraAccountMetaList = metaListAddress c x.mint ∧ s.lamports x.extraAccountMetaList = 0 ∧
      s.list x.extraAccountMetaList = none ∧
      s' = { lamports := update s.lamports x.extraAccountMetaList minimumBalance
             list := update s.list x.extraAccountMetaList (some (extraMetas sssTokenId)) } := by
  simp only [initializeExtraAccountMetaList, bind_eq_ok, require_eq_ok, exists_const, pure_eq, Exec.ok.injEq] at h
  obtain ⟨hprogram, haddress, ⟨hlamports, hlist⟩, hs⟩ := h
  exact ⟨haddress, hlamports, hlist, hprogram ▸ hs.symm⟩

inductive MetaListsStep (c : Accounts) (minimumBalance : Nat) :
    MetaLists → Option InitializeExtraAccountMetaList → MetaLists → Prop
  | initialized {s s' : MetaLists} (x : InitializeExtraAccountMetaList)
    (h : initializeExtraAccountMetaList c minimumBalance s x = ok s') :
    MetaListsStep c minimumBalance s (some x) s'
  /-- Anyone may send lamports to an address; only the hook writes the lists. -/
  | funded {s : MetaLists} (lamports : Pubkey → Nat) :
    MetaListsStep c minimumBalance s none { s with lamports }

/-- The lists over time. -/
def metaLists (c : Accounts) (minimumBalance : Nat) : Lts MetaLists (Option InitializeExtraAccountMetaList) where
  start s := s.list = fun _ => none
  step := MetaListsStep c minimumBalance

/-- Every list there ever is names sss-token: nobody can set up one that looks elsewhere. -/
theorem metaLists_extraMetas {c : Accounts} {minimumBalance : Nat} {s : MetaLists}
    (r : (metaLists c minimumBalance).Reachable s) :
    ∀ {a metas}, s.list a = some metas → metas = extraMetas sssTokenId := by
  refine r.invariant (I := fun s => ∀ {a metas}, s.list a = some metas → metas = extraMetas sssTokenId) ?_ ?_
  · intro s hs a metas h
    rw [hs] at h
    contradiction
  · intro s e s' ih hs a metas h
    cases hs with
    | initialized x hx =>
      obtain ⟨-, -, -, rfl⟩ := initializeExtraAccountMetaList_ok hx
      dsimp only at h
      by_cases ha : a = x.extraAccountMetaList
      · rw [ha, update_self] at h
        exact (Option.some.inj h).symm
      · rw [update_of_ne ha] at h
        exact ih h
    | funded => exact ih h

/-! ### `execute` -/

structure Execute where
  sourceAccount : AccountInfo
  mint : AccountInfo
  destinationAccount : AccountInfo
  owner : AccountInfo
  extraAccountMetaList : AccountInfo
  sssTokenProgram : AccountInfo
  pauseState : AccountInfo
  sourceBlacklist : AccountInfo
  destBlacklist : AccountInfo
  deriving DecidableEq

/-- `Context<Execute>`: the accounts by position. -/
def Execute.ofAccounts : List AccountInfo → Exec Failure Execute
  | source :: mint :: destination :: owner :: list :: program :: pause :: sourceBl :: destBl :: _ => do
    require (program.key = sssTokenId) (.hook .invalidSssTokenProgram)
    pure ⟨source, mint, destination, owner, list, program, pause, sourceBl, destBl⟩
  | _ => err .accountNotEnoughKeys

/-- What the handler does with each of the three accounts. An account with no more than a discriminator
counts as absent; any other must decode and name the mint. -/
def checkAccount {α : Type} (codec : Codec α) (mintOf : α → Pubkey) (refuses : α → Bool)
    (refusal : TransferHookError) (info : AccountInfo) (mint : Pubkey) : Exec Failure Unit :=
  if info.data.isEmpty then ok ()
  else if 8 < info.data.length then do
    let (entry, _) ← orErr (codec.dec (info.data.drop 8)) (.hook .invalidAccountData)
    require (mintOf entry = mint) (.hook .invalidAccountData)
    require (!refuses entry) (.hook refusal)
  else ok ()

def checkPauseState (info : AccountInfo) (mint : Pubkey) : Exec Failure Unit :=
  checkAccount PauseState.codec (·.mint) (·.paused) .tokensPaused info mint

def checkSourceBlacklist (info : AccountInfo) (mint : Pubkey) : Exec Failure Unit :=
  checkAccount BlacklistEntry.codec (·.mint) (·.active) .sourceBlacklisted info mint

def checkDestBlacklist (info : AccountInfo) (mint : Pubkey) : Exec Failure Unit :=
  checkAccount BlacklistEntry.codec (·.mint) (·.active) .destinationBlacklisted info mint

def handler (x : Execute) : Exec Failure Unit := do
  checkPauseState x.pauseState x.mint.key
  checkSourceBlacklist x.sourceBlacklist x.mint.key
  checkDestBlacklist x.destBlacklist x.mint.key

def execute (accounts : List AccountInfo) : Exec Failure Unit := do
  handler (← Execute.ofAccounts accounts)

/-! ### What the checks see of sss-token's accounts -/

/-- The data of an address that has the account `x`, or none. An account is as large as its longest value,
so bytes may follow the fields. -/
def Holds {α : Type} (t : AccountType α) (x : Option α) (data : Bytes) : Prop :=
  match x with
  | none => data = []
  | some a => ∃ tail, data = t.bytes a ++ tail

/-- The fields are behind an 8-byte discriminator, the mint first. -/
structure MintFirst {α : Type} (t : AccountType α) (mintOf : α → Pubkey) : Prop where
  discriminator : t.discriminator.length = 8
  fields : ∀ a, ∃ rest, t.codec.enc a = (mintOf a).1 ++ rest

theorem pauseState_mintFirst : MintFirst PauseState.account (·.mint) := ⟨rfl, fun _ => ⟨_, rfl⟩⟩

theorem blacklistEntry_mintFirst : MintFirst BlacklistEntry.account (·.mint) := ⟨rfl, fun _ => ⟨_, rfl⟩⟩

section checkAccount

variable {α : Type} {t : AccountType α} {mintOf : α → Pubkey} {refuses : α → Bool} {refusal : TransferHookError}
  {info : AccountInfo} {mint : Pubkey} {u : Unit}

theorem MintFirst.length_lt (ht : MintFirst t mintOf) (a : α) (tail : Bytes) : 8 < (t.bytes a ++ tail).length := by
  obtain ⟨rest, hrest⟩ := ht.fields a
  simp only [AccountType.bytes, List.length_append, ht.discriminator, hrest, (mintOf a).2]
  omega

theorem MintFirst.drop_bytes (ht : MintFirst t mintOf) (a : α) (tail : Bytes) :
    (t.bytes a ++ tail).drop 8 = t.codec.enc a ++ tail := by
  rw [AccountType.bytes, List.append_assoc, ← ht.discriminator, List.drop_left]

theorem checkAccount_absent (h : info.data = []) : checkAccount t.codec mintOf refuses refusal info mint = ok () :=
  if_pos (List.isEmpty_iff.2 h)

theorem checkAccount_present (ht : MintFirst t mintOf) {a : α} {tail : Bytes} (h : info.data = t.bytes a ++ tail)
    (hmint : mintOf a = mint) :
    checkAccount t.codec mintOf refuses refusal info mint = require (!refuses a) (.hook refusal) := by
  have hlen := ht.length_lt a tail
  have hne : (t.bytes a ++ tail).isEmpty = false := by
    rw [List.isEmpty_eq_false_iff, ← List.length_pos_iff]
    omega
  rw [checkAccount, h, hne, if_neg Bool.false_ne_true, if_pos hlen, ht.drop_bytes, Codec.dec_enc, orErr_some, bind_ok]
  dsimp only
  rw [require_pos hmint, bind_ok]

/-- A check passes exactly when there is no account, or one that does not refuse. -/
theorem checkAccount_eq_ok (ht : MintFirst t mintOf) {x : Option α} (h : Holds t x info.data)
    (hmint : ∀ {a}, x = some a → mintOf a = mint) :
    checkAccount t.codec mintOf refuses refusal info mint = ok u ↔ ¬∃ a, x = some a ∧ refuses a := by
  cases x with
  | none =>
    rw [checkAccount_absent h]
    simp
  | some a =>
    obtain ⟨tail, hdata⟩ : ∃ tail, info.data = t.bytes a ++ tail := h
    rw [checkAccount_present ht hdata (hmint rfl), require_eq_ok]
    simp

end checkAccount

end ThawGate.Hook
