import ThawGate.Token.Context

/-!
# Supplies, balances and the pause flag

What results about tokens and pauses assume of Token-2022, and `vault`, a Token-2022 with burns,
transfers and pauses that meets it. `MovesExactly` is in Nat, with the amount on the side it is
added to; an account that does not exist counts as empty.
-/

namespace ThawGate.Token

open Exec Function

variable {W : Type}

/-- The mint whose tokens a call moves. -/
def Call.moves : Call → Option Pubkey
  | .mintTo _ mint .. | .burn _ mint .. | .transferChecked _ _ mint .. => some mint
  | _ => none

/-- The mint whose flag a call sets. -/
def Call.switches : Call → Option Pubkey
  | .setPaused _ mint .. => some mint
  | _ => none

namespace Programs

variable (P : Programs W)

def supply (w : W) (mint : Pubkey) : Nat := (P.mint w mint).elim 0 (·.supply.toNat)

def balance (w : W) (mint account : Pubkey) : Nat :=
  (P.tokenAccount w account).elim 0 fun t => if t.mint = mint then t.amount.toNat else 0

/-- The Pausable flag of a mint there is. -/
def flag (w : W) (mint : Pubkey) : Option Bool := (P.mint w mint).map (·.paused)

structure SameTokens (mint : Pubkey) (w w' : W) : Prop where
  supply : P.supply w' mint = P.supply w mint
  balance : ∀ a, P.balance w' mint a = P.balance w mint a

/-- A mint is created where there was none, without tokens; `mint_to`, `burn` and `transfer_checked`
change the supply and the accounts they name by their amount; nothing else moves tokens. -/
structure MovesExactly : Prop where
  vacant : ∀ {w w' payer mint extensions metadata},
    P.invoke w (.createMintAccount payer mint extensions metadata) = some w' →
      P.supply w mint = 0 ∧ ∀ a, P.balance w mint a = 0
  still : ∀ {w w' call mint}, P.invoke w call = some w' → call.moves ≠ some mint → P.SameTokens mint w w'
  mintTo : ∀ {w w' program mint account authority amount},
    P.invoke w (.mintTo program mint account authority amount) = some w' →
      P.supply w' mint = P.supply w mint + amount.toNat ∧
      ∀ a, P.balance w' mint a = P.balance w mint a + if a = account then amount.toNat else 0
  burn : ∀ {w w' program mint account authority amount},
    P.invoke w (.burn program mint account authority amount) = some w' →
      P.supply w' mint + amount.toNat = P.supply w mint ∧
      ∀ a, P.balance w' mint a + (if a = account then amount.toNat else 0) = P.balance w mint a
  transferChecked : ∀ {w w' program source mint destination authority amount decimals remaining},
    P.invoke w (.transferChecked program source mint destination authority amount decimals remaining) = some w' →
      P.supply w' mint = P.supply w mint ∧
      ∀ a, P.balance w' mint a + (if a = source then amount.toNat else 0) =
        P.balance w mint a + if a = destination then amount.toNat else 0

/-- A mint starts unpaused, and only Pausable `pause` and `resume` change its flag. -/
structure PausesExactly : Prop where
  initializeMint2 : ∀ {w w' program mint decimals mintAuthority freezeAuthority},
    P.invoke w (.initializeMint2 program mint decimals mintAuthority freezeAuthority) = some w' →
      P.flag w' mint = some false
  setPaused : ∀ {w w' program mint authority paused},
    P.invoke w (.setPaused program mint authority paused) = some w' → P.flag w' mint = some paused
  still : ∀ {w w' call mint paused}, P.invoke w call = some w' → call.switches ≠ some mint →
    P.flag w mint = some paused → P.flag w' mint = some paused

end Programs

namespace Programs.SameTokens

variable {P : Programs W} {mint : Pubkey} {w w' w'' : W}

theorem refl (w : W) : P.SameTokens mint w w := ⟨rfl, fun _ => rfl⟩

theorem trans (h : P.SameTokens mint w w') (h' : P.SameTokens mint w' w'') : P.SameTokens mint w w'' :=
  ⟨h'.supply.trans h.supply, fun a => (h'.balance a).trans (h.balance a)⟩

end Programs.SameTokens

/-! ### What a list of calls leaves alone -/

section calls

variable {P : Programs W} {mint : Pubkey} {w w' : W} {calls : List Call}

/-- What each call of a list preserves, the list preserves. -/
theorem foldlM_invariant {I : W → Prop} (hcall : ∀ c ∈ calls, ∀ w w', I w → P.invoke w c = some w' → I w')
    (hw : I w) (h : calls.foldlM P.invoke w = some w') : I w' := by
  induction calls generalizing w with
  | nil =>
    obtain rfl := Option.some.inj h
    exact hw
  | cons c rest ih =>
    rw [List.foldlM_cons] at h
    obtain ⟨w₁, hc, hrest⟩ := Option.bind_eq_some_iff.1 h
    refine ih ?_ ?_ hrest
    · intro c' hc' w w' hw hinv
      exact hcall c' (List.mem_cons_of_mem c hc') w w' hw hinv
    · exact hcall c List.mem_cons_self w w₁ hw hc

theorem Programs.MovesExactly.foldlM_still (laws : P.MovesExactly) (hmoves : ∀ c ∈ calls, c.moves ≠ some mint)
    (h : calls.foldlM P.invoke w = some w') : P.SameTokens mint w w' := by
  refine foldlM_invariant (I := P.SameTokens mint w) ?_ (.refl w) h
  intro c hc w₁ w₂ hw hinv
  exact hw.trans (laws.still hinv (hmoves c hc))

theorem Programs.PausesExactly.foldlM_still (laws : P.PausesExactly) {paused : Bool}
    (hswitches : ∀ c ∈ calls, c.switches ≠ some mint) (hw : P.flag w mint = some paused)
    (h : calls.foldlM P.invoke w = some w') : P.flag w' mint = some paused := by
  refine foldlM_invariant (I := fun w => P.flag w mint = some paused) ?_ hw h
  intro c hc w₁ w₂ hw hinv
  exact laws.still hinv (hswitches c hc) hw

end calls

/-! ### A vault -/

structure Holding where
  owner : Pubkey
  amount : UInt64
  frozen : Bool

/-- A mint and its token accounts. -/
structure Book where
  mint : Mint
  mintAuthority : Pubkey
  accounts : Pubkey → Option Holding

/-- The books by mint, and in which book a token account is kept. -/
structure Vault where
  books : Pubkey → Option Book
  bookOf : Pubkey → Pubkey

namespace Book

def put (b : Book) (account : Pubkey) (h : Holding) : Book :=
  { b with accounts := update b.accounts account (some h) }

def amount (b : Book) (account : Pubkey) : Nat := (b.accounts account).elim 0 (·.amount.toNat)

def mintTo (b : Book) (account authority : Pubkey) (amount : UInt64) : Option Book := do
  let h ← b.accounts account
  guard (b.mintAuthority = authority ∧ b.mint.paused = false ∧ h.frozen = false ∧
    b.mint.supply.toNat + amount.toNat < UInt64.size ∧ h.amount.toNat + amount.toNat < UInt64.size)
  pure ({ b with mint := { b.mint with supply := b.mint.supply + amount } }.put account
    { h with amount := h.amount + amount })

def burn (b : Book) (account authority : Pubkey) (amount : UInt64) : Option Book := do
  let h ← b.accounts account
  guard (h.owner = authority ∧ b.mint.paused = false ∧ h.frozen = false ∧ amount ≤ b.mint.supply ∧
    amount ≤ h.amount)
  pure ({ b with mint := { b.mint with supply := b.mint.supply - amount } }.put account
    { h with amount := h.amount - amount })

/-- By the owner or the permanent delegate, which is the mint authority here. -/
def transfer (b : Book) (source destination authority : Pubkey) (amount : UInt64) : Option Book := do
  let h ← b.accounts source
  let d ← b.accounts destination
  guard ((h.owner = authority ∨ b.mintAuthority = authority) ∧ b.mint.paused = false ∧ h.frozen = false ∧
    d.frozen = false ∧ amount ≤ h.amount)
  if source = destination then pure b
  else do
    guard (d.amount.toNat + amount.toNat < UInt64.size)
    pure ((b.put source { h with amount := h.amount - amount }).put destination
      { d with amount := d.amount + amount })

def setFrozen (b : Book) (account authority : Pubkey) (frozen : Bool) : Option Book := do
  let h ← b.accounts account
  guard (b.mint.freezeAuthority = some authority ∧ h.frozen = !frozen)
  pure (b.put account { h with frozen })

def setPaused (b : Book) (authority : Pubkey) (paused : Bool) : Option Book := do
  guard (b.mintAuthority = authority)
  pure { b with mint := { b.mint with paused } }

end Book

namespace Vault

def empty : Vault := ⟨fun _ => none, fun _ => .default⟩

def setBook (v : Vault) (mint : Pubkey) (b : Book) : Vault := { v with books := update v.books mint (some b) }

def createMint (v : Vault) (mint : Pubkey) (decimals : UInt8) (mintAuthority freezeAuthority : Pubkey) :
    Option Vault := do
  guard (v.books mint).isNone
  pure (v.setBook mint
    ⟨⟨token2022Id, 0, decimals, some freezeAuthority, false⟩, mintAuthority, fun _ => none⟩)

def holding (v : Vault) (account : Pubkey) : Option Holding :=
  (v.books (v.bookOf account)).bind (·.accounts account)

def createAccount (v : Vault) (account wallet mint : Pubkey) : Option Vault := do
  let b ← v.books mint
  guard (v.holding account).isNone
  pure { v.setBook mint (b.put account ⟨wallet, 0, false⟩) with bookOf := update v.bookOf account mint }

/-- An operation on one mint's book and on accounts kept in it. -/
def onBook (v : Vault) (program mint : Pubkey) (accounts : List Pubkey) (f : Book → Option Book) : Option Vault := do
  guard (program = token2022Id ∧ ∀ a ∈ accounts, v.bookOf a = mint)
  let b ← v.books mint
  let b' ← f b
  pure (v.setBook mint b')

def invoke (v : Vault) : Call → Option Vault
  | .createMintAccount _ mint _ _ => do
    guard (v.books mint).isNone
    pure v
  | .initializePermanentDelegate .. | .initializeTransferHook .. | .initializeDefaultAccountState _
  | .initializePausable .. | .initializeMetadataPointer .. | .initializeMetadata .. => some v
  | .initializeMint2 program mint decimals mintAuthority freezeAuthority => do
    guard (program = token2022Id)
    v.createMint mint decimals mintAuthority freezeAuthority
  | .createAssociatedToken program _ account wallet mint => do
    guard (program = token2022Id)
    v.createAccount account wallet mint
  | .mintTo program mint account authority amount =>
    v.onBook program mint [account] (·.mintTo account authority amount)
  | .burn program mint account authority amount =>
    v.onBook program mint [account] (·.burn account authority amount)
  | .transferChecked program source mint destination authority amount _ _ =>
    v.onBook program mint [source, destination] (·.transfer source destination authority amount)
  | .freezeAccount program account mint authority =>
    v.onBook program mint [account] (·.setFrozen account authority true)
  | .thawAccount program account mint authority =>
    v.onBook program mint [account] (·.setFrozen account authority false)
  | .setPaused program mint authority paused => v.onBook program mint [] (·.setPaused authority paused)
  | _ => none

end Vault

/-- The programs of a world that is only a vault. As in `bank`, every canonical bump is 255. -/
def vault : Programs Vault where
  canonicalBump _ := 255
  address _ := sampleKey 255
  mintPda _ mint := mint
  associatedToken wallet _ _ := wallet
  mint v k := (v.books k).map (·.mint)
  tokenAccount v k := (v.holding k).map fun h => ⟨token2022Id, v.bookOf k, h.owner, h.amount, h.frozen⟩
  dataIsEmpty v k := (v.holding k).isNone
  invoke := Vault.invoke

/-! ### It meets the assumptions -/

namespace Vault

variable {v v' : Vault} {mint : Pubkey}

@[simp] theorem setBook_self (v : Vault) (mint : Pubkey) (b : Book) : (v.setBook mint b).books mint = some b :=
  update_self ..

theorem setBook_of_ne (v : Vault) {mint k : Pubkey} (b : Book) (h : k ≠ mint) :
    (v.setBook mint b).books k = v.books k :=
  update_of_ne h ..

theorem supply_eq (v : Vault) (k : Pubkey) : vault.supply v k = (v.books k).elim 0 (·.mint.supply.toNat) := by
  show ((v.books k).map (·.mint)).elim 0 _ = _
  cases v.books k <;> rfl

theorem flag_eq (v : Vault) (k : Pubkey) : vault.flag v k = (v.books k).map (·.mint.paused) := by
  show ((v.books k).map (·.mint)).map _ = _
  cases v.books k <;> rfl

theorem balance_eq (v : Vault) (k a : Pubkey) :
    vault.balance v k a = if v.bookOf a = k then (v.books k).elim 0 (·.amount a) else 0 := by
  show ((v.holding a).map _).elim 0 _ = _
  unfold Vault.holding
  by_cases hk : v.bookOf a = k
  · subst hk
    cases v.books (v.bookOf a) with
    | none => simp
    | some b => cases h : b.accounts a <;> simp [Book.amount, h]
  · cases (v.books (v.bookOf a)).bind (·.accounts a) <;> simp [hk]

/-- What an operation on a book leaves. -/
theorem onBook_eq_some {program : Pubkey} {accounts : List Pubkey} {f : Book → Option Book}
    (h : v.onBook program mint accounts f = some v') :
    ∃ b b', (∀ a ∈ accounts, v.bookOf a = mint) ∧ v.books mint = some b ∧ f b = some b' ∧
      v' = v.setBook mint b' := by
  simp only [onBook, Option.bind_eq_bind, Option.bind_eq_some_iff, Option.guard_eq_some'] at h
  obtain ⟨_, ⟨-, haccounts⟩, b, hb, b', hf, hv⟩ := h
  exact ⟨b, b', haccounts, hb, hf, (Option.some.inj hv).symm⟩

theorem onBook_other {program : Pubkey} {accounts : List Pubkey} {f : Book → Option Book} {k : Pubkey}
    (h : v.onBook program mint accounts f = some v') (hk : k ≠ mint) :
    v'.books k = v.books k ∧ v'.bookOf = v.bookOf := by
  obtain ⟨b, b', -, -, -, rfl⟩ := onBook_eq_some h
  exact ⟨setBook_of_ne v b' hk, rfl⟩

/-- The numbers of a mint are read off its book and the accounts kept there. -/
theorem sameTokens_of_books {k : Pubkey} (hb : v'.books k = v.books k) (hof : v'.bookOf = v.bookOf) :
    vault.SameTokens k v v' where
  supply := by rw [supply_eq, supply_eq, hb]
  balance a := by rw [balance_eq, balance_eq, hb, hof]

end Vault

namespace Book

variable {b b' : Book} {account authority : Pubkey} {amount : UInt64}

@[simp] theorem put_mint (b : Book) (account : Pubkey) (h : Holding) : (b.put account h).mint = b.mint := rfl

theorem amount_put (b : Book) (account a : Pubkey) (h : Holding) :
    (b.put account h).amount a = if a = account then h.amount.toNat else b.amount a := by
  unfold Book.amount put
  by_cases ha : a = account
  · simp [ha]
  · simp [ha]

theorem mintTo_eq_some (h : b.mintTo account authority amount = some b') :
    b'.mint.supply.toNat = b.mint.supply.toNat + amount.toNat ∧ b'.mint.paused = b.mint.paused ∧
      ∀ a, b'.amount a = b.amount a + if a = account then amount.toNat else 0 := by
  simp only [mintTo, Option.bind_eq_bind, Option.bind_eq_some_iff, Option.guard_eq_some'] at h
  obtain ⟨t, ht, _, ⟨-, -, -, hsupply, hamount⟩, hb⟩ := h
  obtain rfl := Option.some.inj hb
  refine ⟨?_, rfl, ?_⟩
  · show (b.mint.supply + amount).toNat = _
    rw [UInt64.toNat_add, Nat.mod_eq_of_lt hsupply]
  · intro a
    rw [amount_put]
    split_ifs with ha
    · rw [ha, UInt64.toNat_add, Nat.mod_eq_of_lt hamount, Book.amount, ht, Option.elim_some]
    · rfl

theorem burn_eq_some (h : b.burn account authority amount = some b') :
    b'.mint.supply.toNat + amount.toNat = b.mint.supply.toNat ∧ b'.mint.paused = b.mint.paused ∧
      ∀ a, b'.amount a + (if a = account then amount.toNat else 0) = b.amount a := by
  simp only [burn, Option.bind_eq_bind, Option.bind_eq_some_iff, Option.guard_eq_some'] at h
  obtain ⟨t, ht, _, ⟨-, -, -, hsupply, hamount⟩, hb⟩ := h
  obtain rfl := Option.some.inj hb
  refine ⟨?_, rfl, ?_⟩
  · show (b.mint.supply - amount).toNat + _ = _
    rw [UInt64.toNat_sub_of_le _ _ hsupply]
    exact Nat.sub_add_cancel (UInt64.le_iff_toNat_le.1 hsupply)
  · intro a
    rw [amount_put]
    split_ifs with ha
    · rw [ha, Book.amount, ht, Option.elim_some, UInt64.toNat_sub_of_le _ _ hamount]
      exact Nat.sub_add_cancel (UInt64.le_iff_toNat_le.1 hamount)
    · rfl

theorem transfer_eq_some {source destination : Pubkey}
    (h : b.transfer source destination authority amount = some b') :
    b'.mint = b.mint ∧ ∀ a, b'.amount a + (if a = source then amount.toNat else 0) =
      b.amount a + if a = destination then amount.toNat else 0 := by
  simp only [transfer, Option.bind_eq_bind, Option.bind_eq_some_iff, Option.guard_eq_some'] at h
  obtain ⟨t, ht, d, hd, _, ⟨-, -, -, -, hamount⟩, h⟩ := h
  split_ifs at h with hself
  · obtain rfl := Option.some.inj h
    subst hself
    exact ⟨rfl, fun _ => rfl⟩
  · simp only [Option.bind_eq_some_iff, Option.guard_eq_some'] at h
    obtain ⟨_, hfits, hb⟩ := h
    obtain rfl := Option.some.inj hb
    refine ⟨rfl, ?_⟩
    intro a
    have hle := UInt64.le_iff_toNat_le.1 hamount
    rw [amount_put, amount_put]
    by_cases hdest : a = destination
    · have hsource : a ≠ source := fun h => hself (h.symm.trans hdest)
      rw [if_pos hdest, if_neg hsource, if_pos hdest, hdest, UInt64.toNat_add, Nat.mod_eq_of_lt hfits, Book.amount,
        hd, Option.elim_some]
      rfl
    · rw [if_neg hdest, if_neg hdest]
      split_ifs with hsource
      · rw [hsource, Book.amount, ht, Option.elim_some, UInt64.toNat_sub_of_le _ _ hamount]
        omega
      · rfl

theorem setFrozen_eq_some {frozen : Bool} (h : b.setFrozen account authority frozen = some b') :
    b'.mint = b.mint ∧ b'.amount = b.amount := by
  simp only [setFrozen, Option.bind_eq_bind, Option.bind_eq_some_iff, Option.guard_eq_some'] at h
  obtain ⟨t, ht, _, -, hb⟩ := h
  obtain rfl := Option.some.inj hb
  refine ⟨rfl, funext fun a => ?_⟩
  rw [amount_put]
  split_ifs with ha
  · rw [ha, Book.amount, ht, Option.elim_some]
  · rfl

theorem setPaused_eq_some {paused : Bool} (h : b.setPaused authority paused = some b') :
    b' = { b with mint := { b.mint with paused } } := by
  simp only [setPaused, Option.bind_eq_bind, Option.bind_eq_some_iff, Option.guard_eq_some'] at h
  obtain ⟨_, -, hb⟩ := h
  exact (Option.some.inj hb).symm

end Book

namespace Vault

variable {v v' : Vault} {mint : Pubkey} {program : Pubkey} {accounts : List Pubkey} {f : Book → Option Book}

/-- The operation's mint, before and after. -/
theorem onBook_self (h : v.onBook program mint accounts f = some v') :
    ∃ b b', f b = some b' ∧ (∀ a ∈ accounts, v.bookOf a = mint) ∧
      vault.supply v mint = b.mint.supply.toNat ∧ vault.supply v' mint = b'.mint.supply.toNat ∧
      (∀ a, vault.balance v mint a = if v.bookOf a = mint then b.amount a else 0) ∧
      ∀ a, vault.balance v' mint a = if v.bookOf a = mint then b'.amount a else 0 := by
  obtain ⟨b, b', haccounts, hb, hf, rfl⟩ := onBook_eq_some h
  refine ⟨b, b', hf, haccounts, ?_, ?_, ?_, ?_⟩
  · rw [supply_eq, hb, Option.elim_some]
  · rw [supply_eq, setBook_self, Option.elim_some]
  · intro a
    rw [balance_eq, hb, Option.elim_some]
  · intro a
    rw [balance_eq, setBook_self, Option.elim_some]
    rfl

/-- An operation that moves nothing. -/
theorem onBook_still (hf : ∀ b b', f b = some b' → b'.mint.supply = b.mint.supply ∧ b'.amount = b.amount)
    (h : v.onBook program mint accounts f = some v') (k : Pubkey) : vault.SameTokens k v v' := by
  by_cases hk : k = mint
  · subst hk
    obtain ⟨b, b', hb, -, hs, hs', ha, ha'⟩ := onBook_self h
    obtain ⟨hsupply, hamount⟩ := hf b b' hb
    refine ⟨?_, ?_⟩
    · rw [hs, hs', hsupply]
    · intro a
      rw [ha, ha', hamount]
  · obtain ⟨hbooks, hof⟩ := onBook_other h hk
    exact sameTokens_of_books hbooks hof

theorem createMint_still {decimals : UInt8} {mintAuthority freezeAuthority : Pubkey}
    (h : v.createMint mint decimals mintAuthority freezeAuthority = some v') (k : Pubkey) :
    vault.SameTokens k v v' := by
  simp only [createMint, Option.bind_eq_bind, Option.bind_eq_some_iff, Option.guard_eq_some',
    Option.isNone_iff_eq_none] at h
  obtain ⟨_, hnone, hv⟩ := h
  obtain rfl := Option.some.inj hv
  by_cases hk : k = mint
  · subst hk
    refine ⟨?_, ?_⟩
    · rw [supply_eq, supply_eq, setBook_self, hnone]
      rfl
    · intro a
      rw [balance_eq, balance_eq, setBook_self, hnone]
      rfl
  · exact sameTokens_of_books (setBook_of_ne v _ hk) rfl

theorem createAccount_still {account wallet : Pubkey} (h : v.createAccount account wallet mint = some v')
    (k : Pubkey) : vault.SameTokens k v v' := by
  simp only [createAccount, Option.bind_eq_bind, Option.bind_eq_some_iff, Option.guard_eq_some',
    Option.isNone_iff_eq_none] at h
  obtain ⟨b, hb, _, hnone, hv⟩ := h
  obtain rfl := Option.some.inj hv
  refine ⟨?_, ?_⟩
  · rw [supply_eq, supply_eq]
    by_cases hk : k = mint
    · subst hk
      show ((v.setBook k _).books k).elim 0 _ = _
      rw [setBook_self, hb]
      rfl
    · show ((v.setBook mint _).books k).elim 0 _ = _
      rw [setBook_of_ne v _ hk]
  · intro a
    rw [balance_eq]
    show (if update v.bookOf account mint a = k then ((v.setBook mint _).books k).elim 0 _ else 0) = _
    by_cases ha : a = account
    · -- the account is new and empty
      subst ha
      have hzero : vault.balance v k a = 0 := by
        show ((v.holding a).map _).elim 0 _ = 0
        rw [hnone]
        rfl
      rw [hzero, update_self]
      split_ifs with hk
      · subst hk
        rw [setBook_self, Option.elim_some, Book.amount_put, if_pos rfl]
        rfl
      · rfl
    · rw [update_of_ne ha, balance_eq]
      by_cases hk : k = mint
      · subst hk
        rw [setBook_self, hb, Option.elim_some, Option.elim_some, Book.amount_put, if_neg ha]
      · rw [setBook_of_ne v _ hk]

end Vault

theorem vault_movesExactly : vault.MovesExactly where
  vacant := by
    intro v v' payer mint extensions metadata h
    simp only [vault, Vault.invoke, Option.bind_eq_bind, Option.bind_eq_some_iff, Option.guard_eq_some',
      Option.isNone_iff_eq_none] at h
    obtain ⟨_, hnone, -⟩ := h
    refine ⟨?_, ?_⟩
    · rw [Vault.supply_eq, hnone]
      rfl
    · intro a
      rw [Vault.balance_eq, hnone]
      exact ite_self 0
  still := by
    intro v v' call mint h hmoves
    cases call with
    | createMintAccount payer mint' extensions metadata =>
      simp only [vault, Vault.invoke, Option.bind_eq_bind, Option.bind_eq_some_iff] at h
      obtain ⟨_, -, hv⟩ := h
      obtain rfl := Option.some.inj hv
      exact .refl v
    | initializePermanentDelegate | initializeTransferHook | initializeDefaultAccountState
    | initializePausable | initializeMetadataPointer | initializeMetadata =>
      obtain rfl := Option.some.inj h
      exact .refl v
    | initializeMint2 program mint' decimals mintAuthority freezeAuthority =>
      simp only [vault, Vault.invoke, Option.bind_eq_bind, Option.bind_eq_some_iff] at h
      obtain ⟨_, -, h⟩ := h
      exact Vault.createMint_still h mint
    | createAssociatedToken program payer account wallet mint' =>
      simp only [vault, Vault.invoke, Option.bind_eq_bind, Option.bind_eq_some_iff] at h
      obtain ⟨_, -, h⟩ := h
      exact Vault.createAccount_still h mint
    | mintTo program mint' | burn program mint' | transferChecked program source mint' =>
      have hne : mint ≠ mint' := fun h => hmoves (congrArg some h.symm)
      obtain ⟨hbooks, hof⟩ := Vault.onBook_other h hne
      exact Vault.sameTokens_of_books hbooks hof
    | freezeAccount | thawAccount =>
      refine Vault.onBook_still (fun b b' hb => ?_) h mint
      obtain ⟨hm, ha⟩ := Book.setFrozen_eq_some hb
      exact ⟨by rw [hm], ha⟩
    | setPaused =>
      refine Vault.onBook_still (fun b b' hb => ?_) h mint
      obtain rfl := Book.setPaused_eq_some hb
      exact ⟨rfl, rfl⟩
    | updateMetadataField | aclCreateConfig | aclTogglePermissionless | aclFreeze | aclThaw | gateInitPolicy =>
      contradiction
  mintTo := by
    intro v v' program mint account authority amount h
    obtain ⟨b, b', hf, hof, hs, hs', ha, ha'⟩ := Vault.onBook_self h
    obtain ⟨hsupply, -, hamount⟩ := Book.mintTo_eq_some hf
    have haccount := hof account (List.mem_singleton_self account)
    refine ⟨by rw [hs, hs', hsupply], ?_⟩
    intro a
    rw [ha, ha', hamount]
    by_cases h : a = account
    · simp [h, haccount]
    · simp [h]
  burn := by
    intro v v' program mint account authority amount h
    obtain ⟨b, b', hf, hof, hs, hs', ha, ha'⟩ := Vault.onBook_self h
    obtain ⟨hsupply, -, hamount⟩ := Book.burn_eq_some hf
    have haccount := hof account (List.mem_singleton_self account)
    refine ⟨by rw [hs, hs', hsupply], ?_⟩
    intro a
    rw [ha, ha', ← hamount]
    by_cases h : a = account
    · simp [h, haccount]
    · simp [h]
  transferChecked := by
    intro v v' program source mint destination authority amount decimals remaining h
    obtain ⟨b, b', hf, hof, hs, hs', ha, ha'⟩ := Vault.onBook_self h
    obtain ⟨hmint, hamount⟩ := Book.transfer_eq_some hf
    have hsource := hof source List.mem_cons_self
    have hdestination := hof destination (List.mem_cons_of_mem source List.mem_cons_self)
    refine ⟨by rw [hs, hs', hmint], ?_⟩
    intro a
    rw [ha, ha']
    by_cases hk : v.bookOf a = mint
    · rw [if_pos hk, if_pos hk]
      exact hamount a
    · have h₁ : a ≠ source := fun h => hk (h ▸ hsource)
      have h₂ : a ≠ destination := fun h => hk (h ▸ hdestination)
      rw [if_neg hk, if_neg hk, if_neg h₁, if_neg h₂]

theorem vault_pausesExactly : vault.PausesExactly where
  initializeMint2 := by
    intro v v' program mint decimals mintAuthority freezeAuthority h
    simp only [vault, Vault.invoke, Vault.createMint, Option.bind_eq_bind, Option.bind_eq_some_iff] at h
    obtain ⟨_, -, _, -, hv⟩ := h
    obtain rfl := Option.some.inj hv
    rw [Vault.flag_eq, Vault.setBook_self]
    rfl
  setPaused := by
    intro v v' program mint authority paused h
    obtain ⟨b, b', -, -, hf, rfl⟩ := Vault.onBook_eq_some h
    obtain rfl := Book.setPaused_eq_some hf
    rw [Vault.flag_eq, Vault.setBook_self]
    rfl
  still := by
    intro v v' call mint paused h hswitches hflag
    -- an operation that keeps the flag of the book it works on keeps every flag
    have hbook {program mint' : Pubkey} {accounts : List Pubkey} {f : Book → Option Book}
        (hf : ∀ b b', f b = some b' → b'.mint.paused = b.mint.paused)
        (h : v.onBook program mint' accounts f = some v') : vault.flag v' mint = some paused := by
      obtain ⟨b, b', -, hb, hb', rfl⟩ := Vault.onBook_eq_some h
      rw [Vault.flag_eq] at hflag ⊢
      by_cases hk : mint = mint'
      · subst hk
        rw [hb] at hflag
        rw [Vault.setBook_self, Option.map_some, hf b b' hb']
        exact hflag
      · rw [Vault.setBook_of_ne v b' hk]
        exact hflag
    cases call with
    | createMintAccount payer mint' extensions metadata =>
      simp only [vault, Vault.invoke, Option.bind_eq_bind, Option.bind_eq_some_iff] at h
      obtain ⟨_, -, hv⟩ := h
      obtain rfl := Option.some.inj hv
      exact hflag
    | initializePermanentDelegate | initializeTransferHook | initializeDefaultAccountState
    | initializePausable | initializeMetadataPointer | initializeMetadata =>
      obtain rfl := Option.some.inj h
      exact hflag
    | initializeMint2 program mint' decimals mintAuthority freezeAuthority =>
      simp only [vault, Vault.invoke, Vault.createMint, Option.bind_eq_bind, Option.bind_eq_some_iff,
        Option.guard_eq_some', Option.isNone_iff_eq_none] at h
      obtain ⟨_, -, _, hnone, hv⟩ := h
      obtain rfl := Option.some.inj hv
      rw [Vault.flag_eq] at hflag ⊢
      have hne : mint ≠ mint' := by
        intro heq
        rw [heq, hnone] at hflag
        contradiction
      rw [Vault.setBook_of_ne v _ hne]
      exact hflag
    | createAssociatedToken program payer account wallet mint' =>
      simp only [vault, Vault.invoke, Vault.createAccount, Option.bind_eq_bind, Option.bind_eq_some_iff] at h
      obtain ⟨_, -, b, hb, _, -, hv⟩ := h
      obtain rfl := Option.some.inj hv
      rw [Vault.flag_eq] at hflag ⊢
      show Option.map _ ((v.setBook mint' _).books mint) = _
      by_cases hk : mint = mint'
      · rw [hk, hb] at hflag
        rw [hk, Vault.setBook_self]
        exact hflag
      · rw [Vault.setBook_of_ne v _ hk]
        exact hflag
    | mintTo => exact hbook (fun b b' hb => (Book.mintTo_eq_some hb).2.1) h
    | burn => exact hbook (fun b b' hb => (Book.burn_eq_some hb).2.1) h
    | transferChecked => exact hbook (fun b b' hb => by rw [(Book.transfer_eq_some hb).1]) h
    | freezeAccount | thawAccount => exact hbook (fun b b' hb => by rw [(Book.setFrozen_eq_some hb).1]) h
    | setPaused program mint' authority paused' =>
      have hne : mint ≠ mint' := fun h => hswitches (congrArg some h.symm)
      rw [Vault.flag_eq] at hflag ⊢
      rw [(Vault.onBook_other h hne).1]
      exact hflag
    | updateMetadataField | aclCreateConfig | aclTogglePermissionless | aclFreeze | aclThaw | gateInitPolicy =>
      contradiction

/-- An account as the other programs see it, after its book was written. -/
theorem vault_tokenAccount_put {v : Vault} {account mint : Pubkey} (hof : v.bookOf account = mint) (b : Book)
    (h : Holding) : vault.tokenAccount (v.setBook mint (b.put account h)) account =
      some ⟨token2022Id, mint, h.owner, h.amount, h.frozen⟩ := by
  have hholding : (v.setBook mint (b.put account h)).holding account = some h := by
    show ((v.setBook mint _).books (v.bookOf account)).bind _ = _
    rw [hof, Vault.setBook_self, Option.bind_some]
    exact update_self ..
  show ((v.setBook mint _).holding account).map _ = _
  rw [hholding, ← hof]
  rfl

end ThawGate.Token
