import ThawGate.Gate.Metas
import ThawGate.Lib.Run

/-!
# `init_policy`, `update_policy` and `setup_extra_metas`

The instructions that write a mint's policy and its two lists, with Anchor's checks on their accounts, and
the chain as it changes under them and under everybody else. A call that fails changes nothing. What only
makes the runtime refuse more (compute, writable flags, a payer left below its rent) is left out.
-/

namespace ThawGate.Gate

open Borsh Exec

/-! ### Token ACL's config of a mint -/

structure MintConfig where
  mint : Pubkey
  freezeAuthority : Pubkey
  gatingProgram : Pubkey
  deriving DecidableEq

/-- The key at an offset. -/
def keyAt (data : Bytes) (at_ : ℕ) (h : at_ + 32 ≤ data.length) : Pubkey := ⟨slice data at_ 32, key_length h⟩

def parseMintConfig (data : Bytes) : Exec GateError MintConfig :=
  if h : data.length = 100 ∧ data[0]? = some 1 then
    .ok ⟨keyAt data 4 (by omega), keyAt data 36 (by omega), keyAt data 68 (by omega)⟩
  else .err .invalidMintConfig

def readMintConfig (info : Account) : Exec GateError MintConfig := do
  require (info.owner = tokenAclId) .invalidMintConfig
  parseMintConfig info.data

/-! ### Anchor -/

/-- The account signed. No one signs for an address of the gate but the gate. -/
def Address.Signs (signers : Finset Pubkey) : Address → Prop
  | .pda _ => False
  | .key k => k ∈ signers

instance (signers : Finset Pubkey) (a : Address) : Decidable (a.Signs signers) := by
  cases a <;> (dsimp only [Address.Signs]; infer_instance)

/-- `8 + GatePolicy::INIT_SPACE` -/
def policySpace : ℕ := 238

/-- `init, payer = payer, space = 8 + GatePolicy::INIT_SPACE, seeds = [POLICY_SEED, mint], bump`. Lamports that
were sent to the address do not keep it from being created. -/
def initPolicyAccount (env : Env) (mint : Pubkey) (payer policy : Address) (f : Frame) : Exec Failure Frame := do
  require (policy = env.findProgramAddress (.policy mint)) (.anchor .constraintSeeds)
  let rent := env.rent policySpace
  let current := (f.held policy).lamports
  if current = 0 then
    mapErr .runtime <|
      f.invoke {payer, policy} (Svm.createAccount systemId · payer policy rent policySpace gateId)
  else do
    require (payer ≠ policy) (.anchor .tryingToInitPayerAsProgramAccount)
    let f ← mapErr .runtime (topUp policy payer (max rent 1) current f)
    mapErr .runtime (create policy policySpace f)

/-- `Account::exit`: the account is written back. -/
def exit (policy : Address) (p : GatePolicy) (f : Frame) : Exec Failure Frame := do
  let data ← orErr (GatePolicy.account.store (f.held policy).data p) (.anchor .accountDidNotSerialize)
  mapErr .runtime (f.setData gateId policy data)

/-! ### The instructions -/

structure InitPolicy where
  freezeAuthority : Address
  payer : Address
  policy : Address
  mint : Address
  mintConfig : Address
  thawExtraMetas : Address
  freezeExtraMetas : Address
  systemProgram : Address
  remainingAccounts : Finset Address
  signers : Finset Pubkey

def InitPolicy.keys (x : InitPolicy) : Finset Address :=
  {x.freezeAuthority, x.payer, x.policy, x.mint, x.mintConfig, x.thawExtraMetas, x.freezeExtraMetas,
    x.systemProgram} ∪ x.remainingAccounts

/-- The policy that `init_policy` applies its arguments to. -/
def GatePolicy.created (zeroed : GatePolicy) (bump : UInt8) (mint : Pubkey) : GatePolicy :=
  { zeroed with version := policyVersion, bump, mint, reserved := ⟨List.replicate 64 0, reserved_length⟩ }

/-- The accounts of `init_policy`: the frame with the policy's account in it, and what it holds, all zeros. -/
def InitPolicy.tryAccounts (env : Env) (x : InitPolicy) (f : Frame) : Exec Failure (Frame × GatePolicy) := do
  require (x.freezeAuthority.Signs x.signers) (.anchor .accountNotSigner)
  require (x.payer.Signs x.signers) (.anchor .accountNotSigner)
  require (x.systemProgram = .key systemId) (.anchor .invalidProgramId)
  let f ← initPolicyAccount env (env.pubkey x.mint) x.payer x.policy f
  let fields := (f.held x.policy).data.drop GatePolicy.account.discriminator.length
  let zeroed ← orErr ((GatePolicy.codec.dec fields).map Prod.fst) (.anchor .accountDidNotDeserialize)
  require ((f.held x.mint).owner = token2022Id) (.gate .invalidMint)
  pure (f, zeroed)

def initPolicyHandler (env : Env) (x : InitPolicy) (args : PolicyArgs) (f : Frame) : Exec Failure Frame := do
  let accounts ← x.tryAccounts env f
  let f := accounts.1
  let config ← mapErr .gate (readMintConfig (f.held x.mintConfig))
  require (config.mint = env.pubkey x.mint) (.gate .mintConfigMismatch)
  require (config.freezeAuthority = env.pubkey x.freezeAuthority) (.gate .notFreezeAuthority)
  let created := accounts.2.created (env.canonicalBump (.policy (env.pubkey x.mint))) (env.pubkey x.mint)
  let policy ← mapErr .gate (created.apply args)
  let f ← writeBoth env policy x.thawExtraMetas x.freezeExtraMetas x.payer f
  exit x.policy policy f

structure UpdatePolicy where
  authority : Address
  payer : Address
  policy : Address
  mint : Address
  thawExtraMetas : Address
  freezeExtraMetas : Address
  systemProgram : Address
  remainingAccounts : Finset Address
  signers : Finset Pubkey

def UpdatePolicy.keys (x : UpdatePolicy) : Finset Address :=
  {x.authority, x.payer, x.policy, x.mint, x.thawExtraMetas, x.freezeExtraMetas, x.systemProgram} ∪
    x.remainingAccounts

/-- The accounts of `update_policy` and `setup_extra_metas`: the stored policy. -/
def UpdatePolicy.tryAccounts (env : Env) (x : UpdatePolicy) (f : Frame) : Exec Failure GatePolicy := do
  require (x.authority.Signs x.signers) (.anchor .accountNotSigner)
  require (x.payer.Signs x.signers) (.anchor .accountNotSigner)
  require ((f.held x.policy).owner = gateId) (.anchor .accountOwnedByWrongProgram)
  let policy ← orErr (GatePolicy.account.tryDeserialize (f.held x.policy).data) (.anchor .accountDidNotDeserialize)
  require (x.systemProgram = .key systemId) (.anchor .invalidProgramId)
  require (x.policy = .pda ⟨.policy (env.pubkey x.mint), policy.bump⟩) (.anchor .constraintSeeds)
  require (policy.authority = env.pubkey x.authority) (.gate .notPolicyAuthority)
  require (policy.mint = env.pubkey x.mint) (.anchor .constraintHasOne)
  pure policy

/-- `setup_extra_metas_handler`, for the policy in `ctx`. -/
def rewrite (env : Env) (x : UpdatePolicy) (policy : GatePolicy) (f : Frame) : Exec Failure Frame := do
  let f ← writeBoth env policy x.thawExtraMetas x.freezeExtraMetas x.payer f
  exit x.policy policy f

def updatePolicyHandler (env : Env) (x : UpdatePolicy) (args : PolicyArgs) (f : Frame) : Exec Failure Frame := do
  let policy ← x.tryAccounts env f
  let policy ← mapErr .gate (policy.apply args)
  rewrite env x policy f

def setupExtraMetasHandler (env : Env) (x : UpdatePolicy) (f : Frame) : Exec Failure Frame := do
  let policy ← x.tryAccounts env f
  rewrite env x policy f

inductive Instruction where
  | initPolicy (x : InitPolicy) (args : PolicyArgs)
  | updatePolicy (x : UpdatePolicy) (args : PolicyArgs)
  | setupExtraMetas (x : UpdatePolicy)

namespace Instruction

def keys : Instruction → Finset Address
  | initPolicy x _ => x.keys
  | updatePolicy x _ => x.keys
  | setupExtraMetas x => x.keys

def handler (env : Env) : Instruction → Frame → Exec Failure Frame
  | initPolicy x args => initPolicyHandler env x args
  | updatePolicy x args => updatePolicyHandler env x args
  | setupExtraMetas x => setupExtraMetasHandler env x

def process (env : Env) (ix : Instruction) (s : Chain) : Exec Failure Chain := do
  let f ← ix.handler env (.enter ix.keys s)
  mapErr .runtime f.leave

end Instruction

/-! ### What a call writes -/

namespace Env

variable (env : Env)

def policyAddress (mint : Pubkey) : Address := env.findProgramAddress (.policy mint)

def listAddress (v : Variant) (mint : Pubkey) : Address := env.findProgramAddress (v.seeds mint)

end Env

/-- The account at `policy` and both lists of `p.mint` are written for `p`; of the other accounts, only
lamports may have moved. -/
structure Wrote (env : Env) (policy : Address) (p : GatePolicy) (held held' : Chain) : Prop where
  stored : (held' policy).content = (gateId, GatePolicy.account.bytes p)
  lists : ∀ v, ∃ metas, extraMetas p = some metas ∧
    (held' (env.listAddress v p.mint)).content = (gateId, MetaList.pack v.discriminator metas)
  rest : ∀ a, a ≠ policy → (∀ v, a ≠ env.listAddress v p.mint) → (held' a).content = (held a).content

section wrote

variable {env : Env} {f f' : Frame} {p : GatePolicy} {policy : Address}

theorem listAddress_ne (v : Variant) (mint mint' : Pubkey) (b : UInt8) :
    env.listAddress v mint ≠ .pda ⟨.policy mint', b⟩ := by
  cases v <;> exact fun h => by simp [Env.listAddress, Env.findProgramAddress, Variant.seeds] at h

theorem listAddress_inj {v w : Variant} {mint mint' : Pubkey} (h : env.listAddress v mint = env.listAddress w mint') :
    v = w ∧ mint = mint' := by
  cases v <;> cases w <;>
    simp_all [Env.listAddress, Env.findProgramAddress, Variant.seeds]

theorem exit_content (hlen : (f.held policy).data.length = policySpace) (h : exit policy p f = ok f') :
    (f'.held policy).content = (gateId, GatePolicy.account.bytes p) ∧
      ∀ a, a ≠ policy → (f'.held a).content = (f.held a).content := by
  obtain ⟨data, hstore, hset⟩ := bind_eq_ok.1 h
  rw [mapErr_eq_ok] at hset
  obtain ⟨howner, rfl⟩ := Svm.Frame.setData_eq_ok.1 hset
  have hsize : (GatePolicy.account.bytes p).length = (f.held policy).data.length :=
    (GatePolicy.account_bytes_length p).trans hlen.symm
  rw [orErr_eq_ok, AccountType.store, if_pos hsize.le, hsize, List.drop_length, List.append_nil] at hstore
  refine ⟨?_, fun a ha => ?_⟩
  · rw [Svm.Frame.put_held_self, Svm.Account.content, howner, Option.some.inj hstore]
  · rw [Svm.Frame.put_held_of_ne _ _ _ ha]

theorem writeBoth_content {thaw freeze payer : Address} (h : writeBoth env p thaw freeze payer f = ok f') :
    (∀ v, ∃ metas, extraMetas p = some metas ∧
      (f'.held (env.listAddress v p.mint)).content = (gateId, MetaList.pack v.discriminator metas)) ∧
    ∀ a, (∀ v, a ≠ env.listAddress v p.mint) → (f'.held a).content = (f.held a).content := by
  obtain ⟨metas, hmetas, h⟩ := bind_eq_ok.1 h
  obtain ⟨f₁, hthaw, hfreeze⟩ := bind_eq_ok.1 h
  rw [orErr_eq_ok] at hmetas
  obtain ⟨rfl, hthaw⟩ := write_written hthaw
  obtain ⟨rfl, hfreeze⟩ := write_written hfreeze
  refine ⟨fun v => ⟨metas, hmetas, ?_⟩, fun a ha => ?_⟩
  · cases v with
    | thaw =>
      have hne : env.listAddress .thaw p.mint ≠ env.listAddress .freeze p.mint :=
        fun h => Variant.noConfusion (listAddress_inj h).1
      exact (hfreeze.rest _ hne).trans hthaw.list
    | freeze => exact hfreeze.list
  · exact (hfreeze.rest a (ha .freeze)).trans (hthaw.rest a (ha .thaw))

/-- Both lists, then the policy. -/
theorem wrote_of_writeBoth {thaw freeze payer : Address} {f₁ : Frame} {b : UInt8}
    (hpolicy : policy = .pda ⟨.policy p.mint, b⟩) (hlen : (f.held policy).data.length = policySpace)
    (hboth : writeBoth env p thaw freeze payer f = ok f₁) (hexit : exit policy p f₁ = ok f') :
    Wrote env policy p f.held f'.held := by
  obtain ⟨hlists, hrest⟩ := writeBoth_content hboth
  have hne (v : Variant) : env.listAddress v p.mint ≠ policy := by
    rw [hpolicy]
    exact listAddress_ne v _ _ _
  have hkept := hrest policy fun v => (hne v).symm
  obtain ⟨hwritten, hexit⟩ := exit_content ((congrArg List.length (content_data hkept)).trans hlen) hexit
  refine ⟨hwritten, fun v => ?_, fun a ha hav => (hexit a ha).trans (hrest a hav)⟩
  obtain ⟨metas, hmetas, hlist⟩ := hlists v
  exact ⟨metas, hmetas, (hexit _ (hne v)).trans hlist⟩

end wrote

/-! ### The handlers -/

section handlers

variable {env : Env} {f f' : Frame} {args : PolicyArgs}

/-- Anchor's checks let the stored policy through. -/
structure UpdatePolicy.Checked (env : Env) (x : UpdatePolicy) (held : Chain) (p : GatePolicy) : Prop where
  authority_signs : x.authority.Signs x.signers
  payer_signs : x.payer.Signs x.signers
  owner : (held x.policy).owner = gateId
  data : GatePolicy.account.tryDeserialize (held x.policy).data = some p
  systemProgram : x.systemProgram = .key systemId
  policy : x.policy = .pda ⟨.policy (env.pubkey x.mint), p.bump⟩
  authority : p.authority = env.pubkey x.authority
  mint : p.mint = env.pubkey x.mint

theorem UpdatePolicy.tryAccounts_eq_ok {x : UpdatePolicy} {p : GatePolicy} :
    x.tryAccounts env f = ok p ↔ x.Checked env f.held p := by
  rw [tryAccounts, require_bind_eq_ok, require_bind_eq_ok, require_bind_eq_ok, bind_eq_ok]
  simp only [require_bind_eq_ok, orErr_eq_ok, pure_eq, ok.injEq]
  constructor
  · rintro ⟨h₁, h₂, howner, p, hdata, hsystem, hpolicy, hauthority, hmint, rfl⟩
    exact ⟨h₁, h₂, howner, hdata, hsystem, hpolicy, hauthority, hmint⟩
  · rintro ⟨h₁, h₂, howner, hdata, hsystem, hpolicy, hauthority, hmint⟩
    exact ⟨h₁, h₂, howner, p, hdata, hsystem, hpolicy, hauthority, hmint, rfl⟩

theorem rewrite_wrote {x : UpdatePolicy} {p : GatePolicy} (hpolicy : x.policy = .pda ⟨.policy p.mint, p.bump⟩)
    (hlen : (f.held x.policy).data.length = policySpace) (h : rewrite env x p f = ok f') :
    Wrote env x.policy p f.held f'.held := by
  obtain ⟨f₁, hboth, hexit⟩ := bind_eq_ok.1 h
  exact wrote_of_writeBoth hpolicy hlen hboth hexit

theorem initPolicyAccount_sized {mint : Pubkey} {payer policy : Address}
    (h : initPolicyAccount env mint payer policy f = ok f') :
    policy = env.policyAddress mint ∧ Sized policy policySpace f f' := by
  rw [initPolicyAccount, require_bind_eq_ok] at h
  obtain ⟨hpolicy, h⟩ := h
  refine ⟨hpolicy, ?_⟩
  dsimp only at h
  split_ifs at h
  · rw [mapErr_eq_ok] at h
    have hcontent := Svm.Frame.invoke_content
      (g := fun a c => if a = policy then (gateId, List.replicate policySpace 0) else c) h
      (fun a ha c => if_neg fun heq => ha (by simp [heq])) fun _ _ hcall a => Svm.createAccount_content hcall a
    have hself := (hcontent policy).trans (if_pos rfl)
    refine ⟨congrArg Prod.fst hself, ?_, fun a ha => (hcontent a).trans (if_neg ha)⟩
    rw [show (f'.held policy).data = List.replicate policySpace 0 from congrArg Prod.snd hself,
      List.length_replicate]
  · rw [require_bind_eq_ok] at h
    obtain ⟨f₁, htop, hcreate⟩ := bind_eq_ok.1 h.2
    rw [mapErr_eq_ok] at htop hcreate
    have hsized := create_sized hcreate
    exact ⟨hsized.owner, hsized.length, fun a ha => (hsized.rest a ha).trans (topUp_content htop a)⟩

theorem initPolicyHandler_wrote {x : InitPolicy} (h : initPolicyHandler env x args f = ok f') :
    ∃ zeroed : GatePolicy, let p := (zeroed.created (env.canonicalBump (.policy (env.pubkey x.mint)))
        (env.pubkey x.mint)).withArgs args
      x.policy = env.policyAddress p.mint ∧ args.Accepted ∧ Wrote env x.policy p f.held f'.held := by
  obtain ⟨⟨f₁, zeroed⟩, haccounts, h⟩ := bind_eq_ok.1 h
  obtain ⟨config, -, h⟩ := bind_eq_ok.1 h
  rw [require_bind_eq_ok, require_bind_eq_ok] at h
  obtain ⟨p, happly, h⟩ := bind_eq_ok.1 h.2.2
  obtain ⟨f₂, hboth, hexit⟩ := bind_eq_ok.1 h
  rw [mapErr_eq_ok, GatePolicy.apply_eq_ok] at happly
  obtain ⟨hargs, rfl⟩ := happly
  rw [InitPolicy.tryAccounts, require_bind_eq_ok, require_bind_eq_ok, require_bind_eq_ok] at haccounts
  obtain ⟨-, -, -, haccounts⟩ := haccounts
  obtain ⟨f₁', haccount, haccounts⟩ := bind_eq_ok.1 haccounts
  obtain ⟨zeroed', -, haccounts⟩ := bind_eq_ok.1 haccounts
  rw [require_bind_eq_ok, pure_eq, ok.injEq, Prod.mk.injEq] at haccounts
  obtain ⟨-, rfl, rfl⟩ := haccounts
  obtain ⟨hpolicy, hsized⟩ := initPolicyAccount_sized haccount
  refine ⟨zeroed', hpolicy, hargs, ?_⟩
  have hwrote := wrote_of_writeBoth hpolicy hsized.length hboth hexit
  refine ⟨hwrote.stored, hwrote.lists, fun a ha hav => ?_⟩
  exact (hwrote.rest a ha hav).trans (hsized.rest a ha)

end handlers

/-! ### The chain over time -/

inductive Label where
  | call (ix : Instruction)
  | outside

/-- What a program other than the gate, or nobody, can do to an account of the gate: send it lamports. -/
structure Account.Kept (a a' : Account) : Prop where
  content : a'.content = a.content
  lamports : a.lamports ≤ a'.lamports

/-- The result of a call on the chain. -/
def call (env : Env) (ix : Instruction) (s : Chain) : Chain :=
  match ix.process env s with
  | .ok s' => s'
  | _ => s

inductive Step (env : Env) : Chain → Label → Chain → Prop
  | call (s : Chain) (ix : Instruction) : Step env s (.call ix) (call env ix s)
  | outside {s s' : Chain} (h : ∀ p, Account.Kept (s (.pda p)) (s' (.pda p))) : Step env s .outside s'

/-- At the start the gate has no accounts. -/
def machine (env : Env) : Lts Chain Label where
  start s := ∀ p, (s (.pda p)).content = (systemId, [])
  step := Step env

end ThawGate.Gate
