import ThawGate.Token.Bank
import ThawGate.Token.Freeze
import ThawGate.Token.Reserves

/-!
# `mint_tokens`, `burn_tokens` and `seize`

The instructions that move the supply or count against it. All three read the mint and the token
accounts as they were at the start of the instruction, except `mintPaused`, which `seize` reads after
its thaw.
-/

namespace ThawGate.Token

open Exec

variable {W : Type} {P : Programs W} {now : Int64} {s s' : State W}

/-! ### `mint_tokens` -/

structure MintTokens where
  minter : Pubkey
  config : Pda
  pauseState : Pda
  minterRole : Pda
  minterQuota : Pda
  mint : Pubkey
  recipientTokenAccount : Pubkey
  recipient : Pubkey
  tokenProgram : Pubkey
  reserveAttestation : Pda
  deriving DecidableEq

/-- The mint's quota for a minter and its stored bump. -/
def quotaAccount (l : Ledger) (a : Pda) (mint minter : Pubkey) : Exec Failure MinterQuota := do
  let q ← account (l.quotas a)
  checkSeeds a (.quota mint minter) q.bump
  pure q

theorem quotaAccount_eq_ok {l : Ledger} {a : Pda} {mint minter : Pubkey} {q : MinterQuota} :
    quotaAccount l a mint minter = ok q ↔ l.quotas a = some q ∧ a = ⟨.quota mint minter, q.bump⟩ := by
  simp only [quotaAccount, checkSeeds, bind_eq_ok, require_eq_ok, account_eq_ok, pure_eq, Exec.ok.injEq,
    exists_const]
  constructor
  · intro ⟨_, h, ha, hq⟩
    subst hq
    exact ⟨h, ha⟩
  · exact fun ⟨h, ha⟩ => ⟨q, h, ha, rfl⟩

/-- A limit of 0 is no limit. -/
def MinterQuota.check (q : MinterQuota) (amount : UInt64) : Exec Failure Unit :=
  when (0 < q.limit) do
    let newUsed ← orErr (checkedAdd q.used amount) (.sss .overflow)
    require (newUsed ≤ q.limit) (.sss .minterQuotaExceeded)

/-- The recipient's account when it doesn't exist yet, then the tokens. -/
def MintTokens.calls (P : Programs W) (w : W) (x : MintTokens) (amount : UInt64) : List Call :=
  (if P.dataIsEmpty w x.recipientTokenAccount then
    [.createAssociatedToken x.tokenProgram x.minter x.recipientTokenAccount x.recipient x.mint] else []) ++
  [.mintTo x.tokenProgram x.mint x.recipientTokenAccount (P.address x.config) amount]

def mintHandler (P : Programs W) (now : Int64) (s : State W) (x : MintTokens) (amount : UInt64) :
    Exec Failure (State W) := do
  let l := s.ledger
  let config ← configAccount l x.config
  let pauseState ← pauseAccount l x.pauseState config.mint
  let _ ← roleAccount l x.minterRole config.mint x.minter .minter .minterNotFound
  let quota ← quotaAccount l x.minterQuota config.mint x.minter
  let mint ← mintAccount P s.world x.mint config.mint
  tokenInterface x.tokenProgram
  checkSeeds x.reserveAttestation (.reserve x.mint) (reserveBump P l x.reserveAttestation x.mint)
  require (0 < amount) (.sss .invalidAmount)
  require (!pauseState.paused) (.sss .tokensPaused)
  quota.check amount
  checkReserveAttestation l x.reserveAttestation config mint.supply amount now
  let s ← cpis P s (x.calls P s.world amount)
  let used ← orErr (checkedAdd quota.used amount) (.sss .overflow)
  let totalMinted ← orErr (checkedAdd config.totalMinted amount) (.sss .overflow)
  let l := (l.setQuota x.minterQuota { quota with used }).setConfig x.config { config with totalMinted }
  pure (s.commit l (some (.tokensMinted config.mint x.recipient amount x.minter now)))

/-- What a successful `mint_tokens` found and did. -/
structure Minted (P : Programs W) (now : Int64) (s s' : State W) (x : MintTokens) (amount : UInt64)
    (c : StablecoinConfig) (q : MinterQuota) (m : Mint) : Prop where
  config : configAccount s.ledger x.config = ok c
  unpaused : ∃ p, pauseAccount s.ledger x.pauseState c.mint = ok p ∧ p.paused = false
  minterRole : ∃ r, roleAccount s.ledger x.minterRole c.mint x.minter .minter .minterNotFound = ok r
  quota : quotaAccount s.ledger x.minterQuota c.mint x.minter = ok q
  mint : mintAccount P s.world x.mint c.mint = ok m
  reserveAttestation :
    x.reserveAttestation = ⟨.reserve x.mint, reserveBump P s.ledger x.reserveAttestation x.mint⟩
  positive : 0 < amount
  covered : checkReserveAttestation s.ledger x.reserveAttestation c m.supply amount now = ok ()
  withinLimit : q.check amount = ok ()
  called : (x.calls P s.world amount).foldlM P.invoke s.world = some s'.world
  wrote : ∃ used totalMinted, checkedAdd q.used amount = some used ∧
    checkedAdd c.totalMinted amount = some totalMinted ∧
    s'.ledger = (s.ledger.setQuota x.minterQuota { q with used }).setConfig x.config { c with totalMinted }
  emitted : s'.events = .tokensMinted c.mint x.recipient amount x.minter now :: s.events

theorem mintHandler_ok {x : MintTokens} {amount : UInt64} (h : mintHandler P now s x amount = ok s') :
    ∃ c q m, Minted P now s s' x amount c q m := by
  simp only [mintHandler, checkSeeds, bind_eq_ok, require_eq_ok, orErr_eq_ok, exists_const, cpis_eq_ok, pure_eq,
    Exec.ok.injEq] at h
  obtain ⟨c, hc, p, hp, r, hr, q, hq, m, hm, _, -, hres, hamount, hpaused, _, hlimit, _, hcheck, _,
    ⟨w, hw, rfl⟩, used, hused, total, htotal, hs⟩ := h
  subst hs
  exact ⟨c, q, m, hc, ⟨p, hp, by simpa using hpaused⟩, ⟨r, hr⟩, hq, hm, hres, hamount, hcheck, hlimit, hw,
    ⟨used, total, hused, htotal, rfl⟩, rfl⟩

/-- A mint adds its amount to the supply it found. -/
theorem Minted.supply (laws : P.MintsExactly) {x : MintTokens} {amount : UInt64} {c : StablecoinConfig}
    {q : MinterQuota} {m : Mint} (hm : Minted P now s s' x amount c q m) :
    ∃ m', P.mint s'.world x.mint = some m' ∧ m'.supply.toNat = m.supply.toNat + amount.toNat := by
  have hmint := (mintAccount_eq_ok.1 hm.mint).1
  have hcalled := hm.called
  unfold MintTokens.calls at hcalled
  split at hcalled
  · rw [List.singleton_append, List.foldlM_cons] at hcalled
    obtain ⟨w, hcreate, hcalled⟩ := Option.bind_eq_some_iff.1 hcalled
    rw [List.foldlM_cons] at hcalled
    obtain ⟨w', hmintTo, hcalled⟩ := Option.bind_eq_some_iff.1 hcalled
    obtain rfl := Option.some.inj hcalled
    rw [← laws.createAssociatedToken hcreate] at hmint
    exact laws.mintTo hmintTo hmint
  · rw [List.nil_append, List.foldlM_cons] at hcalled
    obtain ⟨w', hmintTo, hcalled⟩ := Option.bind_eq_some_iff.1 hcalled
    obtain rfl := Option.some.inj hcalled
    exact laws.mintTo hmintTo hmint

/-! ### `burn_tokens` -/

structure BurnTokens where
  burner : Pubkey
  config : Pda
  pauseState : Pda
  burnerRole : Pda
  mint : Pubkey
  burnerTokenAccount : Pubkey
  tokenProgram : Pubkey
  deriving DecidableEq

def burnHandler (P : Programs W) (now : Int64) (s : State W) (x : BurnTokens) (amount : UInt64) :
    Exec Failure (State W) := do
  let l := s.ledger
  let config ← configAccount l x.config
  let pauseState ← pauseAccount l x.pauseState config.mint
  let _ ← roleAccount l x.burnerRole config.mint x.burner .burner .burnerNotFound
  let _ ← mintAccount P s.world x.mint config.mint
  let t ← tokenAccountOf P s.world x.burnerTokenAccount x.mint x.tokenProgram
  require (t.owner = x.burner) (.anchor .constraintTokenOwner)
  require (x.burnerTokenAccount = P.associatedToken x.burner x.mint x.tokenProgram) (.anchor .constraintAssociated)
  tokenInterface x.tokenProgram
  require (0 < amount) (.sss .invalidAmount)
  require (!pauseState.paused) (.sss .tokensPaused)
  let s ← cpi P s (.burn x.tokenProgram x.mint x.burnerTokenAccount x.burner amount)
  let totalBurned ← orErr (checkedAdd config.totalBurned amount) (.sss .overflow)
  let l := l.setConfig x.config { config with totalBurned }
  pure (s.commit l (some (.tokensBurned config.mint amount x.burner now)))

theorem burnHandler_ok {x : BurnTokens} {amount : UInt64} (h : burnHandler P now s x amount = ok s') :
    ∃ c p w totalBurned, configAccount s.ledger x.config = ok c ∧ x.mint = c.mint ∧
      pauseAccount s.ledger x.pauseState c.mint = ok p ∧ p.paused = false ∧
      P.invoke s.world (.burn x.tokenProgram x.mint x.burnerTokenAccount x.burner amount) = some w ∧
      checkedAdd c.totalBurned amount = some totalBurned ∧
      s' = ⟨s.ledger.setConfig x.config { c with totalBurned }, w,
        .tokensBurned c.mint amount x.burner now :: s.events⟩ := by
  simp only [burnHandler, bind_eq_ok, require_eq_ok, orErr_eq_ok, exists_const, cpi_eq_ok, pure_eq,
    Exec.ok.injEq] at h
  obtain ⟨c, hc, p, hp, _, -, m, hm, t, -, -, -, _, -, -, hpaused, _, ⟨w, hw, rfl⟩, total, htotal, hs⟩ := h
  exact ⟨c, p, w, total, hc, (mintAccount_eq_ok.1 hm).2, hp, by simpa using hpaused, hw, htotal, hs.symm⟩

/-! ### `seize` -/

structure Seize where
  seizer : Pubkey
  config : Pda
  seizerRole : Pda
  blacklistEntry : Pda
  mint : Pubkey
  sourceTokenAccount : Pubkey
  sourceAuthority : Pubkey
  treasuryTokenAccount : Pubkey
  tokenProgram : Pubkey
  tokenAclProgram : Pubkey
  mintConfig : Pubkey
  remainingAccounts : List Pubkey
  deriving DecidableEq

/-- Whether the mint has the Pausable extension and is paused. -/
def mintPaused (P : Programs W) (w : W) (mint : Pubkey) : Exec Failure Bool := do
  let m ← orErr (P.mint w mint) .program
  pure m.paused

/-- The transfer of everything by the permanent delegate, with the mint's pause lifted around it. -/
def Seize.calls (P : Programs W) (x : Seize) (amount : UInt64) (decimals : UInt8) (paused : Bool) : List Call :=
  let config := P.address x.config
  let transfer := .transferChecked x.tokenProgram x.sourceTokenAccount x.mint x.treasuryTokenAccount config amount
    decimals x.remainingAccounts
  if paused then
    [.setPaused x.tokenProgram x.mint config false, transfer, .setPaused x.tokenProgram x.mint config true]
  else [transfer]

def seizeHandler (P : Programs W) (now : Int64) (s : State W) (x : Seize) : Exec Failure (State W) := do
  let l := s.ledger
  let config ← configAccount l x.config
  let _ ← roleAccount l x.seizerRole config.mint x.seizer .seizer .seizeNotAuthorized
  let entry ← account (l.blacklist x.blacklistEntry)
  checkSeeds x.blacklistEntry (.blacklist config.mint x.sourceAuthority) entry.bump
  require entry.active (.sss .blacklistEntryRequired)
  let mint ← mintAccount P s.world x.mint config.mint
  let source ← tokenAccountOf P s.world x.sourceTokenAccount x.mint x.tokenProgram
  require (source.owner = x.sourceAuthority) (.anchor .constraintTokenOwner)
  require source.frozen (.sss .accountNotFrozen)
  let _ ← tokenAccountOf P s.world x.treasuryTokenAccount x.mint x.tokenProgram
  tokenInterface x.tokenProgram
  tokenAclAccounts P x.tokenAclProgram x.mint x.mintConfig
  require config.complianceEnabled (.sss .featureNotEnabled)
  require config.enablePermanentDelegate (.sss .permanentDelegateNotEnabled)
  require (0 < source.amount) (.sss .invalidAmount)
  let route : FreezeRoute :=
    ⟨P.address x.config, x.mint, mint, x.sourceTokenAccount, x.mintConfig, x.tokenProgram⟩
  let s ← route.run P s .thaw
  let paused ← mintPaused P s.world x.mint
  let s ← cpis P s (x.calls P source.amount mint.decimals paused)
  let s ← route.run P s .freeze
  let totalBurned ← orErr (checkedAdd config.totalBurned source.amount) (.sss .overflow)
  let l := l.setConfig x.config { config with totalBurned }
  pure (s.commit l (some (.tokensSeized config.mint x.sourceTokenAccount x.treasuryTokenAccount source.amount
    x.seizer now)))

/-- What a successful `seize` found and did: `w₁`, `w₂` and `s'.world` are the other programs after the
thaw, after the transfer and after the freeze. -/
structure Seized (P : Programs W) (now : Int64) (s s' : State W) (x : Seize) (c : StablecoinConfig)
    (m : Mint) (t : TokenAccount) (p : Bool) (w₁ w₂ : W) : Prop where
  config : configAccount s.ledger x.config = ok c
  seizerRole : ∃ r, roleAccount s.ledger x.seizerRole c.mint x.seizer .seizer .seizeNotAuthorized = ok r
  blacklisted : ∃ e, s.ledger.blacklist x.blacklistEntry = some e ∧ e.active ∧
    x.blacklistEntry = ⟨.blacklist c.mint x.sourceAuthority, e.bump⟩
  mint : mintAccount P s.world x.mint c.mint = ok m
  source : tokenAccountOf P s.world x.sourceTokenAccount x.mint x.tokenProgram = ok t
  owner : t.owner = x.sourceAuthority
  frozen : t.frozen
  positive : 0 < t.amount
  enabled : c.complianceEnabled ∧ c.enablePermanentDelegate
  thawed : FreezeRoute.run P s ⟨P.address x.config, x.mint, m, x.sourceTokenAccount, x.mintConfig,
    x.tokenProgram⟩ .thaw = ok { s with world := w₁ }
  paused : mintPaused P w₁ x.mint = ok p
  transferred : (x.calls P t.amount m.decimals p).foldlM P.invoke w₁ = some w₂
  frozenAgain : FreezeRoute.run P { s with world := w₂ } ⟨P.address x.config, x.mint, m,
    x.sourceTokenAccount, x.mintConfig, x.tokenProgram⟩ .freeze = ok { s with world := s'.world }
  wrote : ∃ totalBurned, checkedAdd c.totalBurned t.amount = some totalBurned ∧
    s'.ledger = s.ledger.setConfig x.config { c with totalBurned }
  emitted : s'.events = .tokensSeized c.mint x.sourceTokenAccount x.treasuryTokenAccount t.amount
    x.seizer now :: s.events

theorem seizeHandler_ok {x : Seize} (h : seizeHandler P now s x = ok s') :
    ∃ c m t p w₁ w₂, Seized P now s s' x c m t p w₁ w₂ := by
  simp only [seizeHandler, checkSeeds, bind_eq_ok, require_eq_ok, account_eq_ok, orErr_eq_ok, exists_const,
    cpis_eq_ok, pure_eq, Exec.ok.injEq] at h
  obtain ⟨c, hc, r, hr, e, he, haddr, hactive, m, hm, t, ht, howner, hfrozen, _, -, _, -, _, -, hcomp, hdel,
    hamount, s₁, hthaw, paused, hpaused, _, ⟨w₂, hw₂, rfl⟩, s₃, hfreeze, total, htotal, hs⟩ := h
  obtain ⟨_, w₁, -, -, rfl⟩ := FreezeRoute.run_ok hthaw
  obtain ⟨_, w₃, -, -, rfl⟩ := FreezeRoute.run_ok hfreeze
  subst hs
  exact ⟨c, m, t, paused, w₁, w₂, hc, ⟨r, hr⟩, ⟨e, he, hactive, haddr⟩, hm, ht, howner, hfrozen, hamount,
    ⟨hcomp, hdel⟩, hthaw, hpaused, hw₂, hfreeze, ⟨total, htotal, rfl⟩, rfl⟩

end ThawGate.Token
