import ThawGate.Hook.Refusal
import ThawGate.Keeper.Accounts
import ThawGate.Token.EntryBytes

/-!
# Readers of a registry entry

sss-token's entries have four readers: the gate and the transfer hook decode them with Borsh, the keeper
and the screener step over the reason by its length. They agree after every history of calls, however long
the reasons were and in whatever order (`registryReaders_agree`): the entry is active if the last successful
call was an add, inactive if it was a remove, and not there if there was no call.
-/

namespace ThawGate.Screener

open Borsh Exec Token
open Keeper (RawAccount EntryRead Sees keyAt getUint32)

/-- The screener's reader of sss-token's blacklist entries. `slice` ends where the data ends, like
`subarray`. -/
def readBlacklistEntry (account : Option RawAccount) (mint wallet : Pubkey) : Exec Empty EntryRead :=
  match account with
  | none => .ok .none
  | some account =>
    let data := account.data
    if data.length = 0 then .ok .none
    else if account.owner ≠ sssTokenId ∨ slice data 0 8 ≠ BlacklistEntry.account.discriminator ∨
        data.length < 76 then .ok .bad
    else if slice data 8 32 ≠ mint.1 ∨ slice data 40 32 ≠ wallet.1 then .ok .bad
    else do
      let activeAt := 76 + (← getUint32 data 72) + 8 + 32
      if data.length < activeAt + 2 then return .bad
      let active ← index data activeAt
      if 1 < active then return .bad
      return if active = 1 then .active else .inactive

/-- It is the keeper's, for the one issuer program the screener deals with. -/
theorem readBlacklistEntry_eq_keeper (account : Option RawAccount) (mint wallet : Pubkey) :
    readBlacklistEntry account mint wallet = Keeper.readBlacklistEntry account sssTokenId mint wallet := by
  cases account with
  | none => rfl
  | some account =>
    obtain ⟨owner, data⟩ := account
    unfold readBlacklistEntry Keeper.readBlacklistEntry
    have hprefix : BlacklistEntry.account.discriminator.isPrefixOf data ↔
        slice data 0 8 = BlacklistEntry.account.discriminator := Keeper.isPrefixOf_iff_slice
    simp only [ne_eq, ← hprefix]
    by_cases hempty : data.length = 0
    · rw [if_pos hempty, if_pos hempty]
    rw [if_neg hempty, if_neg hempty]
    by_cases hhead : ¬owner = sssTokenId ∨ ¬BlacklistEntry.account.discriminator.isPrefixOf data ∨ data.length < 76
    · rw [if_pos hhead, if_pos hhead]
    rw [if_neg hhead, if_neg hhead]
    have hlen : 76 ≤ data.length := by
      by_contra hshort
      exact hhead (.inr (.inr (not_le.1 hshort)))
    obtain ⟨m, hm, hmint⟩ : ∃ m, keyAt data 8 = .ok m ∧ m.1 = slice data 8 32 := ⟨_, Keeper.keyAt_ok _ (by omega), rfl⟩
    obtain ⟨w, hw, hwallet⟩ : ∃ w, keyAt data 40 = .ok w ∧ w.1 = slice data 40 32 := ⟨_, Keeper.keyAt_ok _ (by omega), rfl⟩
    rw [hm, bind_ok, hw, bind_ok, ← hmint, ← hwallet]
    simp only [Subtype.coe_inj]
    by_cases hnames : ¬m = mint ∨ ¬w = wallet
    · rw [if_pos hnames, if_pos hnames]
      rfl
    · rw [if_neg hnames, if_neg hnames]

/-! ### What they report -/

/-- What to report of an entry after these calls on it. -/
def entryOf : Option Bool → Gate.Entry
  | none => .none
  | some false => .inactive
  | some true => .active

section

variable {W : Type} {P : Programs W} {h : List Token.Label} {st : Stored entryAccounts W} {info : AccountInfo}
  {mint wallet : Pubkey}

/-- An account that shows an entry of this mint and wallet says whether it is active. -/
theorem said_of_shown {α : Type} {t : Gate.EntryType α} (hdisc : t.account.discriminator ≠ []) {a : Pda} {e : α}
    (hi : st.Shows a info) (he : t.account.tryDeserialize (st.data a) = some e) (hmint : t.mint e = mint)
    (hwallet : t.wallet e = wallet) : t.Says sssTokenId mint wallet info (entryOf (some (t.active e))) := by
  rw [← hi.data] at he
  obtain ⟨tail, hdata⟩ := (AccountType.tryDeserialize_iff _).1 he
  have hne : info.data ≠ [] := by
    rw [hdata, AccountType.bytes, List.append_assoc]
    exact List.append_ne_nil_of_left_ne_nil hdisc _
  have hholds : t.Holds sssTokenId mint wallet info e := ⟨hi.owner hne, ⟨tail, hdata⟩, hmint, hwallet⟩
  cases hactive : t.active e with
  | false => exact ⟨hne, e, hholds, hactive⟩
  | true => exact ⟨hne, e, hholds, hactive⟩

/-- **Blacklist entries.** The account says what the last call left, in the gate's terms. -/
theorem blacklist_said (r : (storage entryAccounts P).Run h st)
    (hi : st.Shows (P.canonical (.blacklist mint wallet)) info) :
    Gate.blacklistRegistry.Says sssTokenId mint wallet info
      (entryOf (lastCall (P.canonical (.blacklist mint wallet)) h)) := by
  obtain ⟨hcall, hdata⟩ | ⟨e, he, hmint, hwallet, hcall⟩ := blacklist_lastCall r mint wallet
  · rw [hcall]
    exact hi.data.trans hdata
  · rw [hcall]
    exact said_of_shown (t := Gate.blacklistRegistry) (by decide) hi he hmint hwallet

theorem allowlist_said (r : (storage entryAccounts P).Run h st)
    (hi : st.Shows (P.canonical (.allowlist mint wallet)) info) :
    Gate.allowlistRegistry.Says sssTokenId mint wallet info
      (entryOf (lastCall (P.canonical (.allowlist mint wallet)) h)) := by
  obtain ⟨hcall, hdata⟩ | ⟨e, he, hmint, hwallet, hcall⟩ := allowlist_lastCall r mint wallet
  · rw [hcall]
    exact hi.data.trans hdata
  · rw [hcall]
    exact said_of_shown (t := Gate.allowlistRegistry) (by decide) hi he hmint hwallet

/-- The hook refuses a wallet whose entry the gate takes for active, and no other. -/
theorem hook_of_said {e : Gate.Entry} (hs : Gate.blacklistRegistry.Says sssTokenId mint wallet info e)
    (refusal : Hook.TransferHookError) :
    Hook.checkAccount BlacklistEntry.codec (·.mint) (·.active) refusal info mint =
      if e = .active then err (.hook refusal) else ok () := by
  cases e with
  | none => exact Hook.checkAccount_absent (t := BlacklistEntry.account) hs
  | inactive =>
    obtain ⟨-, e, ⟨-, ⟨tail, hdata⟩, hmint, -⟩, hactive⟩ := hs
    have hactive : e.active = false := hactive
    refine (Hook.checkAccount_present Hook.blacklistEntry_mintFirst hdata hmint).trans ?_
    rw [hactive]
    rfl
  | active =>
    obtain ⟨-, e, ⟨-, ⟨tail, hdata⟩, hmint, -⟩, hactive⟩ := hs
    have hactive : e.active = true := hactive
    refine (Hook.checkAccount_present Hook.blacklistEntry_mintFirst hdata hmint).trans ?_
    rw [hactive]
    rfl

/-- What the four readers report of the blacklist entry in `info`, which the RPC returns as `raw`. -/
structure BlacklistReads (mint wallet : Pubkey) (info : AccountInfo) (raw : Option RawAccount) (e : Gate.Entry) :
    Prop where
  gate : Gate.readBlacklist info sssTokenId mint wallet = ok e
  hookSource : Hook.checkSourceBlacklist info mint = if e = .active then err (.hook .sourceBlacklisted) else ok ()
  hookDest : Hook.checkDestBlacklist info mint = if e = .active then err (.hook .destinationBlacklisted) else ok ()
  keeper : Keeper.readBlacklistEntry raw sssTokenId mint wallet = ok (.of e)
  screener : readBlacklistEntry raw mint wallet = ok (.of e)

/-- What the two readers of allowlist entries report. -/
structure AllowlistReads (mint wallet : Pubkey) (info : AccountInfo) (raw : Option RawAccount) (e : Gate.Entry) :
    Prop where
  gate : Gate.readAllowlist info sssTokenId mint wallet = ok e
  keeper : Keeper.readAllowlistEntry raw sssTokenId mint wallet = ok (.of e)

theorem blacklistReads_of_said {raw : Option RawAccount} {e : Gate.Entry} (hraw : Sees info raw)
    (hs : Gate.blacklistRegistry.Says sssTokenId mint wallet info e) : BlacklistReads mint wallet info raw e := by
  have hkeeper := Keeper.readBlacklistEntry_of_said hraw hs
  refine ⟨Gate.EntryType.read_of_said hs, hook_of_said hs _, hook_of_said hs _, hkeeper, ?_⟩
  rw [readBlacklistEntry_eq_keeper]
  exact hkeeper

/-- **Agreement.** After any history, every reader reports what the last successful call on the entry left. -/
theorem registryReaders_agree (r : (storage entryAccounts P).Run h st) {raw : Option RawAccount} (hraw : Sees info raw)
    (mint wallet : Pubkey) :
    (st.Shows (P.canonical (.blacklist mint wallet)) info →
      BlacklistReads mint wallet info raw (entryOf (lastCall (P.canonical (.blacklist mint wallet)) h))) ∧
    (st.Shows (P.canonical (.allowlist mint wallet)) info →
      AllowlistReads mint wallet info raw (entryOf (lastCall (P.canonical (.allowlist mint wallet)) h))) := by
  constructor
  · intro hi
    exact blacklistReads_of_said hraw (blacklist_said r hi)
  · intro hi
    have hs := allowlist_said r hi
    exact ⟨Gate.EntryType.read_of_said hs, Keeper.readAllowlistEntry_of_said hraw hs⟩

end

/-- Wallet 5, blacklisted with no reason, is removed, blacklisted for a reason of 100 bytes, removed, and
blacklisted with no reason again. -/
def relistedSample : Token.State Bank :=
  let config := bank.canonical (.config (sampleKey 2))
  let operatorRole := bank.canonical (.role (sampleKey 2) (sampleKey 7) .blacklister)
  let entry := bank.canonical (.blacklist (sampleKey 2) (sampleKey 5))
  let add (reason : Str) : Instruction :=
    .addToBlacklist
      { operator := sampleKey 7, config, operatorRole, blacklistEntry := entry, target := sampleKey 5
        mint := sampleKey 2, targetTokenAccount := sampleKey 6, tokenProgram := token2022Id
        tokenAclProgram := tokenAclId, mintConfig := sampleKey 2 } reason
  let remove : Instruction :=
    .removeFromBlacklist { operator := sampleKey 7, config, operatorRole, blacklistEntry := entry, target := sampleKey 5 }
  execAll bank Hook.blacklistedSample
    [(remove, 80), (add ⟨List.replicate 100 97, by decide +kernel, by decide +kernel⟩, 90), (remove, 95), (add .empty, 99)]

theorem registryReaders_agree_sample : ∃ (h : List Token.Label) (st : Stored entryAccounts Bank) (info : AccountInfo)
    (raw : Option RawAccount), (storage entryAccounts bank).Run h st ∧
      (st.loaded.ledger.blacklist (bank.canonical (.blacklist (sampleKey 2) (sampleKey 5)))).any (·.addedAt = 99) ∧
      lastCall (bank.canonical (.blacklist (sampleKey 2) (sampleKey 5))) h = some true ∧
      BlacklistReads (sampleKey 2) (sampleKey 5) info raw .active := by
  have hreached : (machine bank).Reachable relistedSample := execAll_reachable Hook.blacklistedSample_reachable
  obtain ⟨h, r⟩ := hreached
  obtain ⟨st, r', hst⟩ := Stored.of_run entryAccounts r
  have hentry : (relistedSample.ledger.blacklist (bank.canonical (.blacklist (sampleKey 2) (sampleKey 5)))).any
      (·.addedAt = 99) ∧
      relistedSample.ledger.entryActive (bank.canonical (.blacklist (sampleKey 2) (sampleKey 5))) = some true := by
    decide +kernel
  have hcall := hentry.2
  rw [entryActive_eq_lastCall r] at hcall
  let info : AccountInfo :=
    ⟨sampleKey 50, sssTokenId, st.data (bank.canonical (.blacklist (sampleKey 2) (sampleKey 5)))⟩
  have hsees : Sees info (some ⟨info.owner, info.data⟩) := .inl rfl
  have hreads := (registryReaders_agree r' hsees (sampleKey 2) (sampleKey 5)).1 ⟨rfl, fun _ => rfl⟩
  rw [hcall] at hreads
  refine ⟨h, st, info, _, r', ?_, hcall, hreads⟩
  rw [hst]
  exact hentry.1

end ThawGate.Screener
