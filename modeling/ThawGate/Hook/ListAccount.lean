import ThawGate.Gate.Metas
import ThawGate.Hook.Execute

/-!
# The account of a list

`initialize_extra_account_meta_list` on the accounts of the chain: the system program creates the account at the list's
address, and the hook writes the metas into it. Anyone may call it for any mint, and nobody can make it leave anything
but the canonical list (`Sound`). But `create_account` refuses an address with lamports, and anyone may send some: once
they arrive before the list is there, no call makes it any more, while before that every call by a payer who has the
rent does (`ready_iff`).
-/

namespace ThawGate.Hook.ListAccount

open Borsh Exec Function
open Gate (systemId)

abbrev Chain := Pubkey → Svm.Account Pubkey

/-! ### The instruction -/

/-- `EXECUTE_DISCRIMINATOR` -/
def executeDiscriminator : Bytes := [105, 37, 101, 197, 75, 251, 102, 26]

structure InitializeExtraAccountMetaList extends Hook.InitializeExtraAccountMetaList where
  payer : Pubkey
  deriving DecidableEq

/-- `extra_metas` -/
def newExtraMetas (sssProgramId : Pubkey) : Option (List ExtraAccountMeta) := do
  let pauseState ← ExtraAccountMeta.newExternalPdaWithSeeds 5 [.literal seedPause, .accountKey 1]
  let sourceBlacklist ← ExtraAccountMeta.newExternalPdaWithSeeds 5
    [.literal seedBlacklist, .accountKey 1, .accountKey 3]
  let destBlacklist ← ExtraAccountMeta.newExternalPdaWithSeeds 5
    [.literal seedBlacklist, .accountKey 1, .accountData 2 32 32]
  some [.pubkey sssProgramId, pauseState, sourceBlacklist, destBlacklist]

/-- The payer and, by its seeds, the list sign for `create_account`. -/
def initializeExtraAccountMetaList (c : Accounts) (minimumBalance : ℕ → ℕ) (s : Chain)
    (x : InitializeExtraAccountMetaList) : Exec Failure Chain := do
  require (x.sssTokenProgram = sssTokenId) (.hook .invalidSssTokenProgram)
  let metas ← orErr (newExtraMetas x.sssTokenProgram) .accountResolution
  let accountSize := MetaList.sizeOf metas.length
  let lamports := minimumBalance accountSize
  require (x.extraAccountMetaList = metaListAddress c x.mint) .requireKeysEqViolated
  let s ← mapErr (fun _ => .system) <|
    Svm.createAccount systemId s x.payer x.extraAccountMetaList lamports accountSize hookId
  let list := s x.extraAccountMetaList
  let data ← orErr (MetaList.init executeDiscriminator list.data metas) .accountResolution
  pure (update s x.extraAccountMetaList ⟨list.lamports, list.owner, data⟩)

/-! ### What a call leaves -/

def listSize : ℕ := MetaList.sizeOf 4

/-- The data of every list. -/
def listData : Bytes := MetaList.pack executeDiscriminator (extraMetas sssTokenId)

theorem pauseSeeds_fit : SeedsFit [.literal seedPause, .accountKey 1] := by decide +kernel

theorem sourceSeeds_fit : SeedsFit [.literal seedBlacklist, .accountKey 1, .accountKey 3] := by decide +kernel

theorem destinationSeeds_fit : SeedsFit [.literal seedBlacklist, .accountKey 1, .accountData 2 32 32] := by
  decide +kernel

theorem newExtraMetas_eq (sssProgramId : Pubkey) : newExtraMetas sssProgramId = some (extraMetas sssProgramId) := by
  simp [newExtraMetas, ExtraAccountMeta.newExternalPdaWithSeeds, pauseSeeds_fit, sourceSeeds_fit, destinationSeeds_fit,
    extraMetas]

theorem extraMetas_fits (sssProgramId : Pubkey) : ∀ m ∈ extraMetas sssProgramId, m.Fits := by
  simp [extraMetas, ExtraAccountMeta.Fits, pauseSeeds_fit, sourceSeeds_fit, destinationSeeds_fit]

/-- The account can be created at the payer's expense. -/
def Affords (minimumBalance : ℕ → ℕ) (s : Chain) (payer : Pubkey) : Prop :=
  (s payer).data = [] ∧ minimumBalance listSize ≤ (s payer).lamports ∧ (s payer).owner = systemId

instance (minimumBalance : ℕ → ℕ) (s : Chain) (payer : Pubkey) : Decidable (Affords minimumBalance s payer) :=
  inferInstanceAs (Decidable (_ ∧ _))

variable {c : Accounts} {minimumBalance : ℕ → ℕ} {s s' : Chain} {x : InitializeExtraAccountMetaList} {mint : Pubkey}

/-- The accounts once `create_account` made one at `list`, empty. -/
def created (s : Chain) (payer list : Pubkey) (n : ℕ) : Chain :=
  Svm.moved (update s list ⟨0, hookId, List.replicate listSize 0⟩) payer list n

theorem created_list {payer list : Pubkey} (hne : payer ≠ list) (n : ℕ) :
    created s payer list n list = ⟨n, hookId, List.replicate listSize 0⟩ := by
  rw [created, Svm.moved, update_self, update_of_ne hne.symm, update_self, Nat.zero_add]

theorem update_created {payer list : Pubkey} (hne : payer ≠ list) (n : ℕ) (a : Svm.Account Pubkey) :
    update (created s payer list n) list a =
      update (update s payer ⟨(s payer).lamports - n, (s payer).owner, (s payer).data⟩) list a := by
  rw [created, Svm.moved, update_idem, update_of_ne hne, update_comm hne.symm, update_idem]

theorem init_list : MetaList.init executeDiscriminator (List.replicate listSize 0) (extraMetas sssTokenId) =
    some listData :=
  MetaList.init_zeros

/-- **What a call does.** The list is new, at an address where there was nothing. -/
theorem initializeList_eq_ok (hpayer : x.payer ≠ metaListAddress c x.mint) :
    initializeExtraAccountMetaList c minimumBalance s x = ok s' ↔
      (x.sssTokenProgram = sssTokenId ∧ x.extraAccountMetaList = metaListAddress c x.mint) ∧
        s x.extraAccountMetaList = ⟨0, systemId, []⟩ ∧ Affords minimumBalance s x.payer ∧
        s' = update (update s x.payer
            ⟨(s x.payer).lamports - minimumBalance listSize, (s x.payer).owner, (s x.payer).data⟩)
          x.extraAccountMetaList ⟨minimumBalance listSize, hookId, listData⟩ := by
  rw [initializeExtraAccountMetaList, require_bind_eq_ok, newExtraMetas_eq, orErr_some, bind_ok, require_bind_eq_ok,
    and_assoc]
  refine and_congr_right fun hprogram => and_congr_right fun haddress => ?_
  have hne : x.payer ≠ x.extraAccountMetaList := haddress ▸ hpayer
  rw [hprogram, bind_eq_ok]
  simp only [mapErr_eq_ok, Svm.createAccount_eq_ok hne, bind_eq_ok, orErr_eq_ok, pure_eq, ok.injEq]
  have hlist := @created_list s _ _ hne (minimumBalance listSize)
  have hupdate := @update_created s _ _ hne (minimumBalance listSize)
  constructor
  · rintro ⟨_, ⟨habsent, hpayer, rfl⟩, data, hdata, rfl⟩
    change MetaList.init _ (created s _ _ (minimumBalance listSize) _).data _ = _ at hdata
    rw [hlist, init_list] at hdata
    obtain rfl := Option.some.inj hdata
    refine ⟨habsent, hpayer, ?_⟩
    change update (created s _ _ (minimumBalance listSize)) _
      ⟨(created s _ _ (minimumBalance listSize) _).lamports, (created s _ _ (minimumBalance listSize) _).owner, _⟩ = _
    rw [hlist, hupdate]
  · rintro ⟨habsent, hpayer, rfl⟩
    refine ⟨created s _ _ (minimumBalance listSize), ⟨habsent, hpayer, rfl⟩, listData, ?_, ?_⟩
    · rw [hlist]
      exact init_list
    · rw [hlist, hupdate]

/-! ### The chain over time -/

/-- Whoever signs a transaction is at no address of a list. -/
def Signs (c : Accounts) (payer : Pubkey) : Prop := ∀ mint, payer ≠ metaListAddress c mint

/-- What anyone else can do to an account at the address of a list, for which only the hook signs: send lamports. -/
def Outside (c : Accounts) (s s' : Chain) : Prop :=
  ∀ mint, (s' (metaListAddress c mint)).content = (s (metaListAddress c mint)).content ∧
    (s (metaListAddress c mint)).lamports ≤ (s' (metaListAddress c mint)).lamports

theorem Outside.of_transfer {source target : Pubkey} {n : ℕ} (hsource : Signs c source)
    (h : Svm.transfer systemId s source target n = ok s') : Outside c s s' := by
  obtain ⟨-, rfl⟩ := Svm.transfer_eq_ok.1 h
  intro mint
  refine ⟨Svm.moved_content _, ?_⟩
  by_cases htarget : metaListAddress c mint = target
  · rw [htarget, Svm.moved_lamports_target (htarget ▸ hsource mint)]
    exact Nat.le_add_right ..
  · rw [Svm.moved_of_ne (hsource mint).symm htarget]

inductive Event where
  /-- Somebody calls the hook. -/
  | called (x : InitializeExtraAccountMetaList)
  | outside
  deriving DecidableEq

/-- The chain after a call: a failed one changes nothing. -/
def call (c : Accounts) (minimumBalance : ℕ → ℕ) (s : Chain) (x : InitializeExtraAccountMetaList) : Chain :=
  match initializeExtraAccountMetaList c minimumBalance s x with
  | ok s' => s'
  | _ => s

inductive Step (c : Accounts) (minimumBalance : ℕ → ℕ) : Chain → Event → Chain → Prop
  | called {s : Chain} {x : InitializeExtraAccountMetaList} (h : Signs c x.payer) :
    Step c minimumBalance s (.called x) (call c minimumBalance s x)
  | outside {s s' : Chain} (h : Outside c s s') : Step c minimumBalance s .outside s'

/-- From the hook's deployment on. -/
def chain (c : Accounts) (minimumBalance : ℕ → ℕ) : Lts Chain Event where
  start s := ∀ mint, s (metaListAddress c mint) = ⟨0, systemId, []⟩
  step := Step c minimumBalance

/-- A mint's list is there, the hook's, and exactly the canonical one. -/
structure Ready (c : Accounts) (s : Chain) (mint : Pubkey) : Prop where
  owner : (s (metaListAddress c mint)).owner = hookId
  data : (s (metaListAddress c mint)).data = listData

/-- Token-2022 reads the four metas from it. -/
theorem Ready.unpack (h : Ready c s mint) :
    MetaList.unpack executeDiscriminator (s (metaListAddress c mint)).data = some (extraMetas sssTokenId) := by
  have hread := @MetaList.unpack_pack executeDiscriminator _ rfl (extraMetas_fits sssTokenId) (by decide) []
  rw [List.append_nil] at hread
  rw [h.data]
  exact hread

theorem Ready.of_made {n : ℕ} (h : s (metaListAddress c mint) = ⟨n, hookId, listData⟩) : Ready c s mint := by
  constructor
  · rw [h]
  · rw [h]

theorem Ready.of_content (h : (s' (metaListAddress c mint)).content = (s (metaListAddress c mint)).content)
    (hs : Ready c s mint) : Ready c s' mint where
  owner := (congrArg Prod.fst h).trans hs.owner
  data := (congrArg Prod.snd h).trans hs.data

/-- **A call by anyone, seen from the address of any list**: nothing happens there, or the list is made. -/
theorem call_list (hpayer : Signs c x.payer) (mint : Pubkey) :
    call c minimumBalance s x (metaListAddress c mint) = s (metaListAddress c mint) ∨
      s (metaListAddress c mint) = ⟨0, systemId, []⟩ ∧
        call c minimumBalance s x (metaListAddress c mint) = ⟨minimumBalance listSize, hookId, listData⟩ := by
  unfold call
  cases hx : initializeExtraAccountMetaList c minimumBalance s x with
  | ok s' =>
    obtain ⟨⟨-, haddress⟩, habsent, -, rfl⟩ := (initializeList_eq_ok (hpayer x.mint)).1 hx
    dsimp only
    by_cases hlist : metaListAddress c mint = x.extraAccountMetaList
    · rw [hlist, update_self]
      exact .inr ⟨habsent, rfl⟩
    · rw [update_of_ne hlist, update_of_ne (hpayer mint).symm]
      exact .inl rfl
  | err _ => exact .inl rfl
  | panic => exact .inl rfl

/-- Whatever anyone does, there is nothing at the address of a list but lamports, or the canonical list. -/
def Sound (c : Accounts) (s : Chain) : Prop :=
  ∀ mint, (s (metaListAddress c mint)).content = (systemId, []) ∨ Ready c s mint

/-- **Step.** -/
theorem Sound.step {e : Event} (hs : Sound c s) (h : Step c minimumBalance s e s') : Sound c s' := by
  intro mint
  cases h with
  | called hpayer =>
    obtain hsame | ⟨-, hmade⟩ := call_list (s := s) hpayer mint
    · refine (hs mint).imp (fun h => ?_) (Ready.of_content ?_)
      · rw [hsame, h]
      · rw [hsame]
    · exact .inr (.of_made hmade)
  | outside h => exact (hs mint).imp (h mint).1.trans (Ready.of_content (h mint).1)

/-- **Run.** -/
theorem Sound.of_reachable (r : (chain c minimumBalance).Reachable s) : Sound c s := by
  refine r.invariant (I := Sound c) ?_ ?_
  · intro s hs mint
    rw [hs mint]
    exact .inl rfl
  · intro s e s' hs hstep
    exact hs.step hstep

/-! ### What keeps a list from being made -/

/-- The list of `mint` is there, or no lamports are where it will be. -/
def Open (c : Accounts) (mint : Pubkey) (s : Chain) : Prop :=
  (s (metaListAddress c mint)).owner = hookId ∨ (s (metaListAddress c mint)).lamports = 0

/-- No lamports are sent to the address of `mint`'s list before it is there. -/
def NotPrefunded (c : Accounts) (mint : Pubkey) (s : Chain) (e : Event) (s' : Chain) : Prop :=
  e = .outside → (s (metaListAddress c mint)).owner = hookId ∨ (s' (metaListAddress c mint)).lamports = 0

/-- Only those lamports close the address, and nothing opens it again. -/
theorem open_step {e : Event} (h : Step c minimumBalance s e s') :
    Open c mint s' ↔ Open c mint s ∧ NotPrefunded c mint s e s' := by
  cases h with
  | called hpayer =>
    refine Iff.trans ?_ (and_iff_left nofun).symm
    obtain hsame | ⟨habsent, hmade⟩ := call_list (s := s) hpayer mint
    · rw [Open, hsame, Open]
    · refine iff_of_true (.inl ?_) (.inr ?_)
      · rw [hmade]
      · rw [habsent]
  | outside h =>
    obtain ⟨hcontent, hlamports⟩ := h mint
    have howner := congrArg Prod.fst hcontent
    simp only [Svm.Account.content] at howner
    simp only [Open, NotPrefunded, forall_const, howner]
    constructor
    · intro h
      exact ⟨h.imp_right fun h => by omega, h⟩
    · exact fun h => h.2

theorem hookId_ne_systemId : hookId ≠ systemId := by decide +kernel

/-- A call that names the list of `mint` and sss-token, by a payer who signs and has the rent. -/
structure Proper (c : Accounts) (minimumBalance : ℕ → ℕ) (s : Chain) (x : InitializeExtraAccountMetaList) : Prop where
  list : x.extraAccountMetaList = metaListAddress c x.mint
  program : x.sssTokenProgram = sssTokenId
  signs : Signs c x.payer
  affords : Affords minimumBalance s x.payer

theorem ready_call_iff (hs : Sound c s) (hx : Proper c minimumBalance s x) :
    Ready c (call c minimumBalance s x) x.mint ↔ Open c x.mint s := by
  have hcall := @call_list c minimumBalance s x hx.signs x.mint
  obtain hcontent | hready := hs x.mint
  · obtain ⟨howner, hdata⟩ := Prod.mk.inj hcontent
    have hne : (s (metaListAddress c x.mint)).owner ≠ hookId := howner ▸ hookId_ne_systemId.symm
    rw [Open, or_iff_right hne]
    constructor
    · intro hready
      obtain hsame | ⟨habsent, -⟩ := hcall
      · exact absurd (hsame ▸ hready.owner) hne
      · rw [habsent]
    · intro hlamports
      have habsent : s x.extraAccountMetaList = ⟨0, systemId, []⟩ := by
        rw [hx.list, ← hlamports, ← howner, ← hdata]
      have hok := (initializeList_eq_ok (hx.signs x.mint)).2 ⟨⟨hx.program, hx.list⟩, habsent, hx.affords, rfl⟩
      have hmade : call c minimumBalance s x (metaListAddress c x.mint) = ⟨minimumBalance listSize, hookId, listData⟩ := by
        rw [call, hok]
        dsimp only
        rw [← hx.list, update_self]
      exact .of_made hmade
  · refine iff_of_true ?_ (.inl hready.owner)
    obtain hsame | ⟨-, hmade⟩ := hcall
    · exact hready.of_content (by rw [hsame])
    · exact .of_made hmade

/-- **After every run**, a proper call leaves the list of its mint exactly when no lamports were sent to the list's
address before the list was there. -/
theorem ready_iff (c : Accounts) (minimumBalance : ℕ → ℕ) {h : List Event} {s : Chain}
    (r : (chain c minimumBalance).Run h s) (x : InitializeExtraAccountMetaList) (hx : Proper c minimumBalance s x) :
    Ready c (call c minimumBalance s x) x.mint ↔
      ((chain c minimumBalance).restrict (NotPrefunded c x.mint)).Run h s := by
  rw [ready_call_iff (Sound.of_reachable r.reachable) hx]
  refine (Lts.Run.restrict_iff ?_ ?_ r).symm
  · intro s hs
    exact .inr (by rw [hs x.mint])
  · intro s e s' _ hstep
    exact open_step hstep

/-! ### The lists alone -/

open Classical in
/-- What the lists' addresses hold, as `metaLists` has it. -/
noncomputable def lists (c : Accounts) (s : Chain) : MetaLists where
  lamports k := (s k).lamports
  list k :=
    if (∃ mint, k = metaListAddress c mint) ∧ (s k).owner = hookId then MetaList.unpack executeDiscriminator (s k).data
    else none

/-- It depends on the contents of the lists' addresses only. -/
theorem lists_list_congr {k : Pubkey} (h : ∀ mint, k = metaListAddress c mint → (s' k).content = (s k).content) :
    (lists c s').list k = (lists c s).list k := by
  unfold lists
  dsimp only
  by_cases hk : ∃ mint, k = metaListAddress c mint
  · obtain ⟨mint, hmint⟩ := hk
    obtain ⟨howner, hdata⟩ := Prod.mk.inj (h mint hmint)
    rw [howner, hdata]
  · rw [if_neg (mt And.left hk), if_neg (mt And.left hk)]

theorem lists_list_of_ne (hlist : (s (metaListAddress c mint)).owner ≠ hookId) :
    (lists c s).list (metaListAddress c mint) = none :=
  if_neg (mt And.right hlist)

theorem Ready.lists (h : Ready c s mint) : (lists c s).list (metaListAddress c mint) = some (extraMetas sssTokenId) :=
  (if_pos ⟨⟨mint, rfl⟩, h.owner⟩).trans h.unpack

/-- A call that succeeds is one of `metaLists`, but for the lamports the payer spent. -/
theorem lists_of_initialize (hpayer : Signs c x.payer) (hx : initializeExtraAccountMetaList c minimumBalance s x = ok s') :
    ∃ l, Hook.initializeExtraAccountMetaList c (minimumBalance listSize) (lists c s)
      x.toInitializeExtraAccountMetaList = ok l ∧ (lists c s').list = l.list := by
  obtain ⟨⟨hprogram, haddress⟩, habsent, -, rfl⟩ := (initializeList_eq_ok (hpayer x.mint)).1 hx
  have hnone : (lists c s).list x.extraAccountMetaList = none := by
    rw [haddress]
    refine lists_list_of_ne ?_
    rw [← haddress, habsent]
    exact hookId_ne_systemId.symm
  have hlamports : (lists c s).lamports x.extraAccountMetaList = 0 := congrArg Svm.Account.lamports habsent
  have hok : Hook.initializeExtraAccountMetaList c (minimumBalance listSize) (lists c s)
      x.toInitializeExtraAccountMetaList = ok
        { lamports := update (lists c s).lamports x.extraAccountMetaList (minimumBalance listSize)
          list := update (lists c s).list x.extraAccountMetaList (some (extraMetas x.sssTokenProgram)) } := by
    rw [Hook.initializeExtraAccountMetaList, require_pos hprogram, bind_ok, require_pos haddress, bind_ok,
      require_pos ⟨hlamports, hnone⟩, bind_ok, pure_eq]
  refine ⟨_, hok, ?_⟩
  rw [hprogram]
  funext k
  dsimp only
  by_cases hk : k = x.extraAccountMetaList
  · rw [hk, update_self, haddress]
    refine Ready.lists (.of_made (n := minimumBalance listSize) ?_)
    rw [update_self]
  · rw [update_of_ne hk]
    refine lists_list_congr fun mint hmint => ?_
    rw [update_of_ne hk, update_of_ne (hmint ▸ (hpayer mint).symm)]

/-- **Refinement.** The calls that make a list are those of `metaLists`; all that happens besides is that lamports
move. -/
theorem lists_reachable (r : (chain c minimumBalance).Reachable s) :
    (metaLists c (minimumBalance listSize)).Reachable (lists c s) := by
  refine r.invariant (I := fun s => (metaLists c (minimumBalance listSize)).Reachable (lists c s)) ?_ ?_
  · intro s hs
    refine ⟨[], .start ?_⟩
    funext k
    by_cases hk : ∃ mint, k = metaListAddress c mint
    · obtain ⟨mint, rfl⟩ := hk
      exact lists_list_of_ne (by rw [hs mint]; exact hookId_ne_systemId.symm)
    · exact if_neg (mt And.left hk)
  · intro s e s' ih hstep
    cases hstep with
    | @called x hpayer =>
      unfold call
      cases hx : initializeExtraAccountMetaList c minimumBalance s x with
      | ok s' =>
        obtain ⟨l, hl, hlist⟩ := lists_of_initialize hpayer hx
        have hmoved := (ih.step (.initialized _ hl)).step (.funded (lists c s').lamports)
        rwa [← hlist] at hmoved
      | err _ => exact ih
      | panic => exact ih
    | outside h =>
      have hmoved := ih.step (.funded (lists c s').lamports)
      have hlist : (lists c s').list = (lists c s).list := by
        funext k
        exact lists_list_congr fun mint hmint => hmint ▸ (h mint).1
      rwa [← hlist] at hmoved

/-! ### Samples -/

instance (c : Accounts) (s : Chain) (mint : Pubkey) : Decidable (Ready c s mint) :=
  decidable_of_iff ((s (metaListAddress c mint)).owner = hookId ∧ (s (metaListAddress c mint)).data = listData)
    ⟨fun h => ⟨h.1, h.2⟩, fun h => ⟨h.1, h.2⟩⟩

theorem sampleAddress_length (seed : Bytes) :
    (250 :: ((seed ++ List.replicate 32 0).drop 1).take 31).length = 32 := by
  simp only [List.length_cons, List.length_take, List.length_drop, List.length_append, List.length_replicate]
  omega

/-- The address of a list is its mint's, but for the first byte. -/
def sampleAddresses : Accounts where
  findProgramAddress seeds _ := ⟨_, sampleAddress_length (seeds.getLastD [])⟩
  owner _ := systemId
  data _ := []

theorem signs_sample {k : Pubkey} (hk : k.1.head? ≠ some 250) : Signs sampleAddresses k := by
  intro mint h
  exact hk (h ▸ rfl)

/-- `Rent::minimum_balance` -/
def sampleRent (space : ℕ) : ℕ := (128 + space) * 6960

/-- Wallets 1 and 3 have a SOL each. -/
def sampleChain : Chain := fun k => ⟨if k = sampleKey 1 ∨ k = sampleKey 3 then 10 ^ 9 else 0, systemId, []⟩

def sampleCall (payer : Pubkey) : InitializeExtraAccountMetaList where
  extraAccountMetaList := metaListAddress sampleAddresses (sampleKey 2)
  mint := sampleKey 2
  sssTokenProgram := sssTokenId
  payer := payer

theorem sampleChain_start : (chain sampleAddresses sampleRent).Run [] sampleChain := by
  refine .start fun mint => ?_
  have hone : metaListAddress sampleAddresses mint ≠ sampleKey 1 :=
    (signs_sample (by decide +kernel) mint).symm
  have hthree : metaListAddress sampleAddresses mint ≠ sampleKey 3 :=
    (signs_sample (by decide +kernel) mint).symm
  rw [sampleChain, if_neg (not_or.2 ⟨hone, hthree⟩)]

/-- Wallet 3 has made the list when the issuer calls. -/
theorem ready_iff_sample :
    let s := call sampleAddresses sampleRent sampleChain (sampleCall (sampleKey 3))
    (chain sampleAddresses sampleRent).Run [.called (sampleCall (sampleKey 3))] s ∧
      Proper sampleAddresses sampleRent s (sampleCall (sampleKey 1)) ∧
      Ready sampleAddresses (call sampleAddresses sampleRent s (sampleCall (sampleKey 1))) (sampleKey 2) := by
  intro s
  have hsigns : Signs sampleAddresses (sampleKey 3) := signs_sample (by decide +kernel)
  have hrun := sampleChain_start.step (.called (x := sampleCall (sampleKey 3)) hsigns)
  have hx : Proper sampleAddresses sampleRent s (sampleCall (sampleKey 1)) :=
    ⟨rfl, rfl, signs_sample (by decide +kernel), by decide +kernel⟩
  refine ⟨hrun, hx, (ready_iff _ _ hrun _ hx).2 ?_⟩
  exact (Lts.Run.start (L := Lts.restrict _ _) (by cases sampleChain_start; assumption)).step_restrict
    (.called hsigns) nofun

/-- Wallet 3 sends the list's address the least an account may hold, and no call makes the list. -/
theorem list_kept_from_being_made :
    ∃ s, Svm.transfer systemId sampleChain (sampleKey 3) (metaListAddress sampleAddresses (sampleKey 2)) 890880 = ok s ∧
      (chain sampleAddresses sampleRent).Run [.outside] s ∧
      Proper sampleAddresses sampleRent s (sampleCall (sampleKey 1)) ∧
      ¬Ready sampleAddresses (call sampleAddresses sampleRent s (sampleCall (sampleKey 1))) (sampleKey 2) := by
  have hsigns : Signs sampleAddresses (sampleKey 3) := signs_sample (by decide +kernel)
  have hwallet : (sampleChain (sampleKey 3)).data = [] ∧ 890880 ≤ (sampleChain (sampleKey 3)).lamports ∧
      (sampleChain (sampleKey 3)).owner = systemId := by decide +kernel
  refine ⟨_, Svm.transfer_eq_ok.2 ⟨hwallet, rfl⟩, ?_, ?_, by decide +kernel⟩
  · exact sampleChain_start.step (.outside (.of_transfer hsigns (Svm.transfer_eq_ok.2 ⟨hwallet, rfl⟩)))
  · exact ⟨rfl, rfl, signs_sample (by decide +kernel), by decide +kernel⟩

end ThawGate.Hook.ListAccount
