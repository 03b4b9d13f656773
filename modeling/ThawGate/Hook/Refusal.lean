import ThawGate.Hook.Execute
import ThawGate.Token.Backed
import ThawGate.Token.Entries

/-!
# Which transfers the hook refuses

Token-2022 hands the hook a transfer with the accounts its list resolves to. The entry of the source is
looked up under the key that authorizes the transfer, account 3, and that of the destination under the
owner in its token account. So a transfer passes exactly when the mint is not paused and neither the
authority nor the destination's owner is blacklisted (`invokeHook_eq_ok`). The owner of the source is
covered only when that key is the authority: what a delegate moves for a blacklisted owner passes.
-/

namespace ThawGate.Hook

open Borsh Exec
open Token (PauseState BlacklistEntry Ledger Programs State machine)

/-- A token account of the mint that a transfer can use: initialized, and not frozen. -/
structure TokenAccountInfo (c : Accounts) (mint : Pubkey) where
  key : Pubkey
  length : 165 ≤ (c.data key).length
  mint_eq : slice (c.data key) 0 32 = mint.1
  initialized : (c.data key)[108]? = some 1

namespace TokenAccountInfo

variable {c : Accounts} {mint : Pubkey} (a : TokenAccountInfo c mint)

/-- The wallet that owns the account. -/
def owner : Pubkey := ⟨slice (c.data a.key) 32 32, slice_length (Nat.le_trans (by decide) a.length)⟩

/-- The delegate that the owner approved. -/
def delegate : Option Pubkey :=
  if slice (c.data a.key) 72 4 = [1, 0, 0, 0] then
    some ⟨slice (c.data a.key) 76 32, slice_length (Nat.le_trans (by decide) a.length)⟩
  else none

end TokenAccountInfo

/-- A transfer that Token-2022 hands to the hook: the owner, the delegate or the mint's permanent delegate
authorizes it. -/
structure Transfer (c : Accounts) where
  mint : Pubkey
  permanentDelegate : Option Pubkey
  source : TokenAccountInfo c mint
  destination : TokenAccountInfo c mint
  authority : Pubkey
  authorized : authority = source.owner ∨ source.delegate = some authority ∨ permanentDelegate = some authority

def pauseAddress (c : Accounts) (mint : Pubkey) : Pubkey := c.findProgramAddress [seedPause, mint.1] sssTokenId

def blacklistAddress (c : Accounts) (mint wallet : Pubkey) : Pubkey :=
  c.findProgramAddress [seedBlacklist, mint.1, wallet.1] sssTokenId

variable {c : Accounts}

namespace Transfer

variable (t : Transfer c)

/-- The accounts of the interface, which the metas count from. -/
def accounts : List AccountInfo :=
  [c.info t.source.key, c.info t.mint, c.info t.destination.key, c.info t.authority, c.info (metaListAddress c t.mint)]

/-- Token-2022's call: resolve the list, then `execute`. -/
def invokeHook (metas : List ExtraAccountMeta) : Exec Failure Unit := do
  let accounts ← orErr (resolveMetas c hookId t.accounts metas) .accountResolution
  execute accounts

theorem resolveMetas_extraMetas : resolveMetas c hookId t.accounts (extraMetas sssTokenId) =
    some (t.accounts ++ [c.info sssTokenId, c.info (pauseAddress c t.mint),
      c.info (blacklistAddress c t.mint t.authority), c.info (blacklistAddress c t.mint t.destination.owner)]) := by
  have hlen : 64 ≤ (c.data t.destination.key).length := Nat.le_trans (by decide) t.destination.length
  simp [resolveMetas, extraMetas, accounts, ExtraAccountMeta.resolve, Seed.resolve, Accounts.info, pauseAddress,
    blacklistAddress, TokenAccountInfo.owner, hlen]

theorem invokeHook_extraMetas : t.invokeHook (extraMetas sssTokenId) = (do
    checkPauseState (c.info (pauseAddress c t.mint)) t.mint
    checkSourceBlacklist (c.info (blacklistAddress c t.mint t.authority)) t.mint
    checkDestBlacklist (c.info (blacklistAddress c t.mint t.destination.owner)) t.mint) := by
  rw [invokeHook, resolveMetas_extraMetas]
  rfl

end Transfer

/-! ### The checks and the ledger -/

section

variable {W : Type} {P : Programs W} {l : Ledger} {t : Transfer c}

/-- The three accounts that the hook reads hold what the ledger has at their addresses. -/
structure Transfer.Stored (t : Transfer c) (P : Programs W) (l : Ledger) : Prop where
  pause : Holds PauseState.account (l.pauses (P.canonical (.pause t.mint))) (c.data (pauseAddress c t.mint))
  authority : Holds BlacklistEntry.account (l.blacklist (P.canonical (.blacklist t.mint t.authority)))
    (c.data (blacklistAddress c t.mint t.authority))
  destination : Holds BlacklistEntry.account (l.blacklist (P.canonical (.blacklist t.mint t.destination.owner)))
    (c.data (blacklistAddress c t.mint t.destination.owner))

theorem checkPauseState_eq_ok (hl : l.Addressed P) {mint k : Pubkey} {u : Unit}
    (h : Holds PauseState.account (l.pauses (P.canonical (.pause mint))) (c.data k)) :
    checkPauseState (c.info k) mint = ok u ↔ ¬l.Paused mint := by
  rw [hl.paused_iff]
  exact checkAccount_eq_ok pauseState_mintFirst h hl.pauses_canonical

theorem checkBlacklist_eq_ok (hl : l.Addressed P) {mint wallet k : Pubkey} {refusal : TransferHookError} {u : Unit}
    (h : Holds BlacklistEntry.account (l.blacklist (P.canonical (.blacklist mint wallet))) (c.data k)) :
    checkAccount BlacklistEntry.codec (·.mint) (·.active) refusal (c.info k) mint = ok u ↔
      ¬l.Blacklisted mint wallet := by
  rw [hl.blacklisted_iff]
  exact checkAccount_eq_ok blacklistEntry_mintFirst h fun he => (hl.blacklist_canonical he).1

theorem invokeHook_eq_ok (hl : l.Addressed P) (hs : t.Stored P l) : t.invokeHook (extraMetas sssTokenId) = ok () ↔
    ¬l.Paused t.mint ∧ ¬l.Blacklisted t.mint t.authority ∧ ¬l.Blacklisted t.mint t.destination.owner := by
  simp only [Transfer.invokeHook_extraMetas, checkSourceBlacklist, checkDestBlacklist, bind_eq_ok, exists_const,
    checkPauseState_eq_ok hl hs.pause, checkBlacklist_eq_ok hl hs.authority, checkBlacklist_eq_ok hl hs.destination]

/-! ### Transfers that touch a blacklisted wallet -/

/-- The mint is paused or one of the two owners is blacklisted, and it is not a seizure: the permanent
delegate may move what a blacklisted owner has. -/
def Transfer.MustBeRefused (t : Transfer c) (l : Ledger) : Prop :=
  l.Paused t.mint ∨ l.Blacklisted t.mint t.destination.owner ∨
    l.Blacklisted t.mint t.source.owner ∧ t.permanentDelegate ≠ some t.authority

/-- An approved delegate, not blacklisted itself, moves the tokens of a blacklisted owner, and nothing else
stands against it. -/
structure Transfer.MovedByDelegate (t : Transfer c) (l : Ledger) : Prop where
  owner : l.Blacklisted t.mint t.source.owner
  delegate : t.source.delegate = some t.authority
  not_permanent : t.permanentDelegate ≠ some t.authority
  authority : ¬l.Blacklisted t.mint t.authority
  destination : ¬l.Blacklisted t.mint t.destination.owner
  running : ¬l.Paused t.mint

/-- **Refusals.** On every mint with a list, in every state that sss-token can reach, the hook refuses
what it must exactly when the transfer is not a delegate's for a blacklisted owner. -/
theorem refused_iff {s : State W} (r : (machine P).Reachable s) {minimumBalance : Nat} {lists : MetaLists}
    (rl : (metaLists c minimumBalance).Reachable lists) {metas : List ExtraAccountMeta}
    (hmetas : lists.list (metaListAddress c t.mint) = some metas) (hs : t.Stored P s.ledger) :
    (t.MustBeRefused s.ledger → t.invokeHook metas ≠ ok ()) ↔ ¬t.MovedByDelegate s.ledger := by
  obtain rfl := metaLists_extraMetas rl hmetas
  rw [Ne, invokeHook_eq_ok (.of_reachable r) hs]
  constructor
  · intro hrefused hd
    exact hrefused (.inr (.inr ⟨hd.owner, hd.not_permanent⟩)) ⟨hd.running, hd.authority, hd.destination⟩
  · intro hd hmust ⟨hrunning, hauthority, hdestination⟩
    obtain hpaused | hblacklisted | ⟨howner, hpermanent⟩ := hmust
    · exact hrunning hpaused
    · exact hdestination hblacklisted
    · obtain hself | hdelegate | hpermanent' := t.authorized
      · -- the owner signs, and is the key that is looked up
        rw [hself] at hauthority
        exact hauthority howner
      · exact hd ⟨howner, hdelegate, hpermanent, hauthority, hdestination, hrunning⟩
      · exact hpermanent hpermanent'

end

/-! ### A delegate of a blacklisted owner -/

/-- Wallet 5 gets 600 tokens of mint 2, on account 6, and is then blacklisted by key 7. -/
def blacklistedSample : State Token.Bank :=
  let config := Token.bank.canonical (.config (sampleKey 2))
  let blacklisterRole := Token.bank.canonical (.role (sampleKey 2) (sampleKey 7) .blacklister)
  Token.execAll Token.bank Token.sampleStart <| Token.attestedSample ++
    [(.mintTokens Token.mintSample 600, 50),
      (.updateRoles
        { authority := sampleKey 1
          config
          authorityRole := Token.bank.canonical (.role (sampleKey 2) (sampleKey 1) .masterAuthority)
          targetRole := blacklisterRole }
        (sampleKey 7) .blacklister true, 60),
      (.addToBlacklist
        { operator := sampleKey 7
          config
          operatorRole := blacklisterRole
          blacklistEntry := Token.bank.canonical (.blacklist (sampleKey 2) (sampleKey 5))
          target := sampleKey 5
          mint := sampleKey 2
          targetTokenAccount := sampleKey 6
          tokenProgram := token2022Id
          tokenAclProgram := tokenAclId
          mintConfig := sampleKey 2 }
        .empty, 70)]

/-- An initialized token account of mint 2 with 100 tokens, that key 8 is approved for. -/
def sampleTokenAccount (owner : Pubkey) : Bytes :=
  (sampleKey 2).1 ++ owner.1 ++ leBytes 8 100 ++ [1, 0, 0, 0] ++ (sampleKey 8).1 ++ [1] ++ leBytes 12 0 ++
    leBytes 8 100 ++ leBytes 36 0

/-- A derivation that tells the addresses below apart. -/
def sampleFind (seeds : List Bytes) : Pubkey := sampleKey (seeds.foldl (fun h seed => 31 * h + seed.headD 0) 7)

/-- The chain after `blacklistedSample`: the mint's pause state, the entry, another account 100 of wallet 5,
and account 101 of wallet 9. -/
def sampleChain : Accounts where
  findProgramAddress seeds _ := sampleFind seeds
  owner k := if k = sampleKey 100 ∨ k = sampleKey 101 then token2022Id else sssTokenId
  data k :=
    if k = sampleFind [seedPause, (sampleKey 2).1] then
      PauseState.account.bytes ⟨sampleKey 2, false, 0, .default, 255⟩
    else if k = sampleFind [seedBlacklist, (sampleKey 2).1, (sampleKey 5).1] then
      BlacklistEntry.account.bytes ⟨sampleKey 2, sampleKey 5, .empty, 70, sampleKey 7, true, 255⟩
    else if k = sampleKey 100 then sampleTokenAccount (sampleKey 5)
    else if k = sampleKey 101 then sampleTokenAccount (sampleKey 9)
    else []

def sampleSource : TokenAccountInfo sampleChain (sampleKey 2) :=
  ⟨sampleKey 100, by decide +kernel, by decide +kernel, by decide +kernel⟩

def sampleDestination : TokenAccountInfo sampleChain (sampleKey 2) :=
  ⟨sampleKey 101, by decide +kernel, by decide +kernel, by decide +kernel⟩

/-- From wallet 5 to wallet 9; sss-token's config is the permanent delegate. -/
def sampleTransfer (authority : Pubkey)
    (authorized : authority = sampleSource.owner ∨ sampleSource.delegate = some authority ∨
      some (sampleKey 255) = some authority) : Transfer sampleChain where
  mint := sampleKey 2
  permanentDelegate := some (sampleKey 255)
  source := sampleSource
  destination := sampleDestination
  authority
  authorized

def ownerSample : Transfer sampleChain := sampleTransfer (sampleKey 5) (.inl (by decide +kernel))

def delegateSample : Transfer sampleChain := sampleTransfer (sampleKey 8) (.inr (.inl (by decide +kernel)))

def sampleLists : MetaLists :=
  ⟨fun k => if k = metaListAddress sampleChain (sampleKey 2) then 1976640 else 0,
    fun k => if k = metaListAddress sampleChain (sampleKey 2) then some (extraMetas sssTokenId) else none⟩

theorem sampleLists_reachable : (metaLists sampleChain 1976640).Reachable sampleLists := by
  have hstart : (metaLists sampleChain 1976640).Reachable ⟨fun _ => 0, fun _ => none⟩ := ⟨[], .start rfl⟩
  refine hstart.step (.initialized ⟨metaListAddress sampleChain (sampleKey 2), sampleKey 2, sssTokenId⟩ ?_)
  rw [initializeExtraAccountMetaList, require_pos rfl, bind_ok, require_pos rfl, bind_ok, require_pos ⟨rfl, rfl⟩]
  refine congrArg ok ?_
  simp only [sampleLists, MetaLists.mk.injEq]
  constructor <;> funext k <;> simp [Function.update_apply]

theorem sampleLists_list : sampleLists.list (metaListAddress sampleChain (sampleKey 2)) = some (extraMetas sssTokenId) := by
  simp [sampleLists]

theorem blacklistedSample_reachable : (machine Token.bank).Reachable blacklistedSample :=
  Token.execAll_reachable Token.sampleStart_reachable

theorem blacklistedSample_entry :
    blacklistedSample.ledger.blacklist (Token.bank.canonical (.blacklist (sampleKey 2) (sampleKey 5))) =
      some ⟨sampleKey 2, sampleKey 5, .empty, 70, sampleKey 7, true, 255⟩ := by decide +kernel

/-- The chain holds the entry of wallet 5, and none of the wallets 8 and 9. -/
theorem sampleChain_blacklist {k : Pubkey} (h : k = sampleKey 5 ∨ k = sampleKey 8 ∨ k = sampleKey 9) :
    Holds BlacklistEntry.account
      (blacklistedSample.ledger.blacklist (Token.bank.canonical (.blacklist (sampleKey 2) k)))
      (sampleChain.data (blacklistAddress sampleChain (sampleKey 2) k)) := by
  obtain rfl | h := h
  · rw [blacklistedSample_entry]
    exact ⟨[], by decide +kernel⟩
  · have hvacant : blacklistedSample.ledger.blacklist (Token.bank.canonical (.blacklist (sampleKey 2) k)) = none := by
      obtain rfl | rfl := h <;> decide +kernel
    rw [hvacant]
    obtain rfl | rfl := h
    · show sampleChain.data _ = []
      decide +kernel
    · show sampleChain.data _ = []
      decide +kernel

theorem sampleChain_pause :
    Holds PauseState.account (blacklistedSample.ledger.pauses (Token.bank.canonical (.pause (sampleKey 2))))
      (sampleChain.data (pauseAddress sampleChain (sampleKey 2))) := by
  have hpause : blacklistedSample.ledger.pauses (Token.bank.canonical (.pause (sampleKey 2))) =
      some ⟨sampleKey 2, false, 0, .default, 255⟩ := by decide +kernel
  rw [hpause]
  exact ⟨[], by decide +kernel⟩

theorem sampleDestination_owner : sampleDestination.owner = sampleKey 9 := by decide +kernel

theorem sampleTransfer_stored {k : Pubkey} {h : _} (hk : k = sampleKey 5 ∨ k = sampleKey 8) :
    (sampleTransfer k h).Stored Token.bank blacklistedSample.ledger := by
  refine ⟨sampleChain_pause, ?_, ?_⟩
  · exact sampleChain_blacklist (hk.imp_right .inl)
  · show Holds _ (blacklistedSample.ledger.blacklist (Token.bank.canonical (.blacklist _ sampleDestination.owner))) _
    exact sampleChain_blacklist (.inr (.inr sampleDestination_owner))

theorem refused_iff_ownerSample :
    (ownerSample.MustBeRefused blacklistedSample.ledger → ownerSample.invokeHook (extraMetas sssTokenId) ≠ ok ()) ↔
      ¬ownerSample.MovedByDelegate blacklistedSample.ledger :=
  refused_iff blacklistedSample_reachable sampleLists_reachable sampleLists_list (sampleTransfer_stored (.inl rfl))

/-- Wallet 5 is blacklisted, key 8 is its delegate, and the transfer passes. -/
theorem delegateSample_passes : ∃ (s : State Token.Bank) (lists : MetaLists) (metas : List ExtraAccountMeta),
    (machine Token.bank).Reachable s ∧ (metaLists sampleChain 1976640).Reachable lists ∧
      lists.list (metaListAddress sampleChain delegateSample.mint) = some metas ∧
      delegateSample.Stored Token.bank s.ledger ∧ delegateSample.MustBeRefused s.ledger ∧
      delegateSample.invokeHook metas = ok () := by
  refine ⟨blacklistedSample, sampleLists, extraMetas sssTokenId, blacklistedSample_reachable, sampleLists_reachable,
    sampleLists_list, sampleTransfer_stored (.inr rfl), .inr (.inr ⟨⟨_, _, blacklistedSample_entry, rfl, ?_, rfl⟩, ?_⟩), ?_⟩
  · decide +kernel
  · decide +kernel
  · decide +kernel

end ThawGate.Hook
