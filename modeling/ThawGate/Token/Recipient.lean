import ThawGate.Token.Circulation

/-!
# Whom a mint credits

`mint_tokens` takes the recipient and the recipient's token account as two unchecked accounts. Where the
account does not exist it is created for the recipient. Where it does, Token-2022 checks that it is of the
mint, and nobody that it is the recipient's: the event then names a wallet that got nothing.
-/

namespace ThawGate.Token

open Exec Function

variable {W : Type} {P : Programs W} {now : Int64} {s s' : State W}

/-- A new associated account is its wallet's, and `mint_to` credits an account of the mint, whose owner it
keeps. -/
structure Programs.OwnsExactly (P : Programs W) : Prop where
  createAssociatedToken : ∀ {w w' program payer account wallet mint},
    P.invoke w (.createAssociatedToken program payer account wallet mint) = some w' →
      ∃ t, P.tokenAccount w' account = some t ∧ t.owner = wallet
  mintTo : ∀ {w w' program mint account authority amount},
    P.invoke w (.mintTo program mint account authority amount) = some w' →
      ∃ t t', P.tokenAccount w account = some t ∧ P.tokenAccount w' account = some t' ∧ t'.mint = mint ∧
        t'.owner = t.owner

/-- What a mint of `amount` is to leave. -/
structure CreditsRecipient (P : Programs W) (s s' : State W) (x : MintTokens) (amount : UInt64) : Prop where
  credited : P.balance s'.world x.mint x.recipientTokenAccount =
    P.balance s.world x.mint x.recipientTokenAccount + amount.toNat
  owned : ∃ t, P.tokenAccount s'.world x.recipientTokenAccount = some t ∧ t.mint = x.mint ∧ t.owner = x.recipient
  others : ∀ mint account, ¬(mint = x.mint ∧ account = x.recipientTokenAccount) →
    P.balance s'.world mint account = P.balance s.world mint account

/-- The recipient's account is to be created, or is the recipient's already. -/
def MintTokens.NamesOwner (P : Programs W) (w : W) (x : MintTokens) : Prop :=
  P.dataIsEmpty w x.recipientTokenAccount = true ∨
    ∃ t, P.tokenAccount w x.recipientTokenAccount = some t ∧ t.owner = x.recipient

/-- The owner of the credited account is the one it had, or the recipient if it is new. -/
theorem Minted.owner (laws : P.OwnsExactly) {x : MintTokens} {amount : UInt64} {c : StablecoinConfig}
    {q : MinterQuota} {m : Mint} (hm : Minted P now s s' x amount c q m) :
    ∃ t', P.tokenAccount s'.world x.recipientTokenAccount = some t' ∧ t'.mint = x.mint ∧
      (t'.owner = x.recipient ↔ x.NamesOwner P s.world) := by
  have hcalled := hm.called
  unfold MintTokens.NamesOwner
  rw [MintTokens.calls, List.foldlM_append] at hcalled
  obtain ⟨w, hcreate, hmint⟩ := Option.bind_eq_some_iff.1 hcalled
  obtain ⟨w', hmint, hrest⟩ := Option.bind_eq_some_iff.1 hmint
  obtain rfl := Option.some.inj hrest
  obtain ⟨t, t', ht, ht', hof, howner⟩ := laws.mintTo hmint
  refine ⟨t', ht', hof, ?_⟩
  rw [howner]
  split_ifs at hcreate with hempty
  · obtain ⟨w₁, hw₁, hrest⟩ := Option.bind_eq_some_iff.1 hcreate
    obtain rfl := Option.some.inj hrest
    obtain ⟨t₁, ht₁, hwallet⟩ := laws.createAssociatedToken hw₁
    obtain rfl := Option.some.inj (ht₁.symm.trans ht)
    exact iff_of_true hwallet (.inl hempty)
  · obtain rfl := Option.some.inj hcreate
    constructor
    · intro hwallet
      exact .inr ⟨t, ht, hwallet⟩
    · rintro (hnew | ⟨t₁, ht₁, hwallet⟩)
      · exact absurd hnew hempty
      · obtain rfl := Option.some.inj (ht₁.symm.trans ht)
        exact hwallet

theorem Minted.credits_iff (laws : P.MovesExactly) (owns : P.OwnsExactly) {x : MintTokens} {amount : UInt64}
    {c : StablecoinConfig} {q : MinterQuota} {m : Mint} (hx : mintHandler P now s x amount = ok s')
    (hm : Minted P now s s' x amount c q m) : CreditsRecipient P s s' x amount ↔ x.NamesOwner P s.world := by
  obtain ⟨t', ht', hof, howner⟩ := hm.owner owns
  rw [← howner]
  constructor
  · intro hcredits
    obtain ⟨t, ht, -, hwallet⟩ := hcredits.owned
    obtain rfl := Option.some.inj (ht.symm.trans ht')
    exact hwallet
  · intro hwallet
    obtain ⟨-, hbalance⟩ := hm.tokens laws
    refine ⟨?_, ⟨t', ht', hof, hwallet⟩, ?_⟩
    · rw [hbalance, if_pos rfl]
    · intro mint account hne
      by_cases hmint : mint = x.mint
      · subst hmint
        rw [hbalance, if_neg fun haccount => hne ⟨rfl, haccount⟩, Nat.add_zero]
      · have hexec : exec P now s (.mintTokens x amount) = ok s' := hx
        refine (exec_sameTokens laws ?_ hexec).balance account
        rw [Instruction.moves, ne_eq, Option.some.injEq]
        exact fun heq => hmint heq.symm

/-- **The recipient.** A `mint_tokens` that succeeds announces the wallet named as recipient, and credits an
account of that wallet exactly when the account was to be created or was the wallet's already. -/
theorem mint_credits_recipient_iff (laws : P.MovesExactly) (owns : P.OwnsExactly) {x : MintTokens} {amount : UInt64}
    (h : mintHandler P now s x amount = ok s') :
    s'.events = .tokensMinted x.mint x.recipient amount x.minter now :: s.events ∧
      (CreditsRecipient P s s' x amount ↔ x.NamesOwner P s.world) := by
  obtain ⟨c, q, m, hm⟩ := mintHandler_ok h
  refine ⟨?_, hm.credits_iff laws owns h⟩
  rw [hm.emitted, (mintAccount_eq_ok.1 hm.mint).2]

/-! ### In the vault -/

theorem vault_ownsExactly : vault.OwnsExactly where
  createAssociatedToken := by
    intro v v' program payer account wallet mint h
    simp only [vault, Vault.invoke, Vault.createAccount, Option.bind_eq_bind, Option.bind_eq_some_iff] at h
    obtain ⟨_, -, b, -, _, -, hv⟩ := h
    obtain rfl := Option.some.inj hv
    have hof : update v.bookOf account mint account = mint := update_self ..
    exact ⟨_, @vault_tokenAccount_put { v with bookOf := update v.bookOf account mint } _ _ hof b _, rfl⟩
  mintTo := by
    intro v v' program mint account authority amount h
    obtain ⟨b, b', hof, hb, hf, rfl⟩ := Vault.onBook_eq_some h
    have haccount : v.bookOf account = mint := hof account (List.mem_singleton_self account)
    simp only [Book.mintTo, Option.bind_eq_bind, Option.bind_eq_some_iff] at hf
    obtain ⟨held, hheld, _, -, hb'⟩ := hf
    obtain rfl := Option.some.inj hb'
    refine ⟨⟨token2022Id, v.bookOf account, held.owner, held.amount, held.frozen⟩, _, ?_,
      vault_tokenAccount_put haccount _ _, rfl, rfl⟩
    show ((v.books (v.bookOf account)).bind _).map _ = _
    rw [haccount, hb, Option.bind_some, hheld]
    rfl

/-- Wallet 7 is minted 5 more, into the account it has. -/
def mintToOwner : MintTokens where
  minter := sampleKey 3
  config := vault.canonical (.config (sampleKey 2))
  pauseState := vault.canonical (.pause (sampleKey 2))
  minterRole := vault.canonical (.role (sampleKey 2) (sampleKey 3) .minter)
  minterQuota := vault.canonical (.quota (sampleKey 2) (sampleKey 3))
  mint := sampleKey 2
  recipientTokenAccount := sampleKey 7
  recipient := sampleKey 7
  tokenProgram := token2022Id
  reserveAttestation := vault.canonical (.reserve (sampleKey 2))

theorem mint_credits_recipient_iff_sample :
    ∃ s', mintHandler vault 90 blacklistedState mintToOwner 5 = ok s' ∧
      CreditsRecipient vault blacklistedState s' mintToOwner 5 := by
  obtain ⟨s', hs'⟩ : ∃ s', mintHandler vault 90 blacklistedState mintToOwner 5 = ok s' := isOk_iff.1 (by decide +kernel)
  have howner : (vault.tokenAccount blacklistedState.world (sampleKey 7)).any fun t => t.owner = sampleKey 7 := by
    decide +kernel
  obtain ⟨t, ht, hwallet⟩ := (Option.any_eq_true _ _).1 howner
  exact ⟨s', hs', (mint_credits_recipient_iff vault_movesExactly vault_ownsExactly hs').2.2
    (.inr ⟨t, ht, of_decide_eq_true hwallet⟩)⟩

/-- The account of wallet 7 passed with wallet 8 as the recipient: the event names wallet 8, and 7 has the 5. -/
theorem mint_credits_another :
    let x := { mintToOwner with recipient := sampleKey 8 }
    let s' := execAll vault blacklistedState [(.mintTokens x 5, 90)]
    (mintHandler vault 90 blacklistedState x 5).isOk ∧
      s'.events.head? = some (.tokensMinted (sampleKey 2) (sampleKey 8) 5 (sampleKey 3) 90) ∧
      (vault.tokenAccount s'.world (sampleKey 7)).map (fun t => (t.owner, t.amount)) = some (sampleKey 7, 6) ∧
      vault.tokenAccount s'.world (sampleKey 8) = none := by
  decide +kernel

end ThawGate.Token
