import ThawGate.Gate.Admin
import ThawGate.Gate.Resolution

/-!
# Policy and lists agree

Over every run of the gate's chain, whatever calls succeed or fail in it and whatever lamports arrive, a
policy account is either untouched or holds an accepted policy as `init_policy` labelled it, with both lists
written for it (`run_invariant`). So the gate, called through either list, finds the accounts that the stored
policy speaks of (`gate_reads_stored_policy`).
-/

namespace ThawGate.Gate

open Borsh Exec

/-! ### The invariant -/

/-- The settable fields. -/
def GatePolicy.args (p : GatePolicy) : PolicyArgs :=
  ⟨p.authority, p.issuerProgram, p.checkBlacklist, p.allowlistMode, p.requireSas, p.sasCredential, p.sasSchema,
    p.minKycLevel⟩

/-- What `apply` checks holds of the policy, and the other fields are as `init_policy` writes them. -/
structure Proper (env : Env) (p : GatePolicy) : Prop where
  accepted : p.args.Accepted
  version : p.version = policyVersion
  bump : p.bump = env.canonicalBump (.policy p.mint)
  reserved : p.reserved.1 = List.replicate 64 0

/-- The mint's policy account holds `p`, and each of its lists what `extraMetas` gives for `p`. -/
structure Agrees (env : Env) (s : Chain) (mint : Pubkey) (p : GatePolicy) : Prop where
  mint_eq : p.mint = mint
  proper : Proper env p
  stored : (s (env.policyAddress mint)).content = (gateId, GatePolicy.account.bytes p)
  lists : ∀ v, ∃ metas, extraMetas p = some metas ∧
    (s (env.listAddress v mint)).content = (gateId, MetaList.pack v.discriminator metas)

/-- Every address of a policy is vacant, or it is the mint's canonical one and policy and lists agree. -/
def Invariant (env : Env) (s : Chain) : Prop :=
  ∀ mint bump, (s (.pda ⟨.policy mint, bump⟩)).content = (systemId, []) ∨
    bump = env.canonicalBump (.policy mint) ∧ ∃ p, Agrees env s mint p

section invariant

variable {env : Env} {s s' : Chain} {mint : Pubkey} {p : GatePolicy}

theorem Proper.withArgs {args : PolicyArgs} (h : Proper env p) (hargs : args.Accepted) : Proper env (p.withArgs args) :=
  ⟨hargs, h.version, h.bump, h.reserved⟩

theorem Agrees.owner (h : Agrees env s mint p) : (s (env.policyAddress mint)).owner = gateId :=
  congrArg Prod.fst h.stored

theorem Agrees.data (h : Agrees env s mint p) :
    (s (env.policyAddress mint)).data = GatePolicy.account.bytes p :=
  congrArg Prod.snd h.stored

/-- The stored policy is what Anchor loads. -/
theorem Agrees.load (h : Agrees env s mint p) :
    GatePolicy.account.tryDeserialize (s (env.policyAddress mint)).data = some p := by
  rw [h.data, ← List.append_nil (GatePolicy.account.bytes p)]
  exact GatePolicy.account.tryDeserialize_bytes p []

/-- Accounts whose contents stay keep the agreement. -/
theorem Agrees.of_content (h : Agrees env s mint p)
    (hpolicy : (s' (env.policyAddress mint)).content = (s (env.policyAddress mint)).content)
    (hlists : ∀ v, (s' (env.listAddress v mint)).content = (s (env.listAddress v mint)).content) :
    Agrees env s' mint p := by
  refine ⟨h.mint_eq, h.proper, hpolicy.trans h.stored, fun v => ?_⟩
  obtain ⟨metas, hmetas, hlist⟩ := h.lists v
  exact ⟨metas, hmetas, (hlists v).trans hlist⟩

theorem Wrote.agrees (h : Wrote env (env.policyAddress p.mint) p s s') (hp : Proper env p) :
    Agrees env s' p.mint p :=
  ⟨rfl, hp, h.stored, h.lists⟩

/-- A policy written for one mint leaves the others' as they were. -/
theorem Invariant.of_wrote (hi : Invariant env s) (hp : Proper env p)
    (h : Wrote env (env.policyAddress p.mint) p s s') : Invariant env s' := by
  intro mint bump
  by_cases hself : Address.pda ⟨.policy mint, bump⟩ = env.policyAddress p.mint
  · obtain ⟨rfl, rfl⟩ : mint = p.mint ∧ bump = env.canonicalBump (.policy p.mint) := by
      simpa [Env.policyAddress, Env.findProgramAddress] using hself
    exact .inr ⟨rfl, p, h.agrees hp⟩
  have hkept := h.rest _ hself fun v => (listAddress_ne v _ _ _).symm
  rcases hi mint bump with hvacant | ⟨rfl, p', hagrees⟩
  · exact .inl (hkept.trans hvacant)
  · have hmint : mint ≠ p.mint := by
      rintro rfl
      exact hself rfl
    refine .inr ⟨rfl, p', hagrees.of_content hkept fun v => h.rest _ (listAddress_ne v _ _ _) fun w heq => ?_⟩
    exact hmint (listAddress_inj heq).2

end invariant

/-! ### A call -/

section process

variable {env : Env} {s s' : Chain}

theorem created_proper (zeroed : GatePolicy) (mint : Pubkey) {args : PolicyArgs} (h : args.Accepted) :
    Proper env ((zeroed.created (env.canonicalBump (.policy mint)) mint).withArgs args) :=
  ⟨h, rfl, rfl, rfl⟩

/-- A policy account that can be loaded at all. -/
theorem Invariant.stored {mint : Pubkey} {bump : UInt8} {p : GatePolicy} (hi : Invariant env s)
    (howner : (s (.pda ⟨.policy mint, bump⟩)).owner = gateId)
    (hdata : GatePolicy.account.tryDeserialize (s (.pda ⟨.policy mint, bump⟩)).data = some p) :
    bump = env.canonicalBump (.policy mint) ∧ Agrees env s mint p := by
  rcases hi mint bump with hvacant | ⟨rfl, p', hagrees⟩
  · have hsystem : systemId = gateId := (congrArg Prod.fst hvacant).symm.trans howner
    exact absurd hsystem (by decide)
  · obtain rfl := Option.some.inj (hagrees.load.symm.trans hdata)
    exact ⟨rfl, hagrees⟩

/-- A policy account that Anchor lets through is the mint's own, in agreement with its lists. -/
theorem Invariant.agrees {x : UpdatePolicy} {p : GatePolicy} (hi : Invariant env s) (h : x.Checked env s p) :
    x.policy = env.policyAddress p.mint ∧ Agrees env s p.mint p := by
  have howner := h.owner
  have hdata := h.data
  rw [h.policy] at howner hdata
  obtain ⟨hbump, hagrees⟩ := hi.stored howner hdata
  rw [h.policy, h.mint, hbump]
  exact ⟨rfl, hagrees⟩

theorem Agrees.length {mint : Pubkey} {p : GatePolicy} (h : Agrees env s mint p) :
    (s (env.policyAddress mint)).data.length = policySpace := by
  rw [h.data, GatePolicy.account_bytes_length]
  rfl

/-- Whatever a call that succeeds writes is a proper policy with its lists. -/
theorem handler_wrote {ix : Instruction} {keys : Finset Address} {f : Frame} (hi : Invariant env s)
    (h : ix.handler env (.enter keys s) = ok f) :
    ∃ p, Proper env p ∧ Wrote env (env.policyAddress p.mint) p s f.held := by
  cases ix with
  | initPolicy x args =>
    obtain ⟨zeroed, hpolicy, hargs, hwrote⟩ := initPolicyHandler_wrote h
    rw [hpolicy] at hwrote
    exact ⟨_, created_proper zeroed _ hargs, hwrote⟩
  | updatePolicy x args =>
    obtain ⟨p, hchecked, h⟩ := bind_eq_ok.1 h
    obtain ⟨p', happly, h⟩ := bind_eq_ok.1 h
    rw [UpdatePolicy.tryAccounts_eq_ok] at hchecked
    rw [mapErr_eq_ok, GatePolicy.apply_eq_ok] at happly
    obtain ⟨hargs, rfl⟩ := happly
    obtain ⟨haddress, hagrees⟩ := hi.agrees hchecked
    have hwrote := rewrite_wrote (p := p.withArgs args) (hchecked.mint ▸ hchecked.policy)
      (haddress ▸ hagrees.length) h
    rw [haddress] at hwrote
    exact ⟨_, hagrees.proper.withArgs hargs, hwrote⟩
  | setupExtraMetas x =>
    obtain ⟨p, hchecked, h⟩ := bind_eq_ok.1 h
    rw [UpdatePolicy.tryAccounts_eq_ok] at hchecked
    obtain ⟨haddress, hagrees⟩ := hi.agrees hchecked
    have hwrote := rewrite_wrote (hchecked.mint ▸ hchecked.policy) (haddress ▸ hagrees.length) h
    rw [haddress] at hwrote
    exact ⟨_, hagrees.proper, hwrote⟩

theorem process_invariant {ix : Instruction} (hi : Invariant env s) (h : ix.process env s = ok s') :
    Invariant env s' := by
  obtain ⟨f, hhandler, hleave⟩ := bind_eq_ok.1 h
  obtain ⟨p, hp, hwrote⟩ := handler_wrote hi hhandler
  rw [mapErr_eq_ok, Svm.Frame.leave_eq_ok] at hleave
  obtain ⟨-, rfl⟩ := hleave
  exact hi.of_wrote hp hwrote

end process

/-! ### Runs -/

section runs

variable {env : Env} {s s' : Chain}

theorem start_invariant (h : (machine env).start s) : Invariant env s := fun _ _ => .inl (h _)

theorem step_invariant {l : Label} (hi : Invariant env s) (h : Step env s l s') : Invariant env s' := by
  cases h with
  | call ix =>
    unfold call
    split
    next h => exact process_invariant hi h
    next => exact hi
  | outside h =>
    intro mint bump
    rcases hi mint bump with hvacant | ⟨hbump, p, hagrees⟩
    · exact .inl ((h _).content.trans hvacant)
    · exact .inr ⟨hbump, p, hagrees.of_content (h _).content fun v => (h _).content⟩

theorem run_invariant {h : List Label} (r : (machine env).Run h s) : Invariant env s :=
  r.invariant (I := fun _ => Invariant env) (fun _ => start_invariant) fun _ _ _ _ _ => step_invariant

/-- An address's account as an instruction gets it. -/
def Env.info (env : Env) (s : Chain) (a : Address) : AccountInfo := ⟨env.pubkey a, (s a).owner, (s a).data⟩

/-- **Policy and lists agree**: in every state of a run, a call that fails changes nothing, and a policy account
that Anchor loads is the mint's canonical one and holds a proper policy, with both lists written for it. Token
ACL's resolution of either list, for any owner, gives the gate the accounts at the addresses that this policy
derives; no account is missing, and nothing else is read. -/
theorem gate_reads_stored_policy {h : List Label} (r : (machine env).Run h s) :
    (∀ ix, (∀ s', ix.process env s ≠ ok s') → call env ix s = s) ∧
    ∀ mint bump p, (s (.pda ⟨.policy mint, bump⟩)).owner = gateId →
      GatePolicy.account.tryDeserialize (s (.pda ⟨.policy mint, bump⟩)).data = some p →
      bump = env.canonicalBump (.policy mint) ∧ Agrees env s mint p ∧
      ∀ (c : ThawGate.Accounts) (v : Variant) (b : Base), b.mint.key = mint →
        b.extraMetas = env.info s (env.listAddress v mint) →
        c.info (policyKey c mint) = env.info s (env.policyAddress mint) →
        ∃ ctx, invokeContext c v b = some ctx ∧ ctx.mint = b.mint ∧ ctx.owner = b.owner ∧ ctx.ReadsFrom c p ∧
          ∀ rt op, decide rt ctx op ≠ .ok (.deny .missingAccounts) ∧
            ∀ ctx', CanGate.SameReads p ctx ctx' → decide rt ctx' op = decide rt ctx op := by
  refine ⟨fun ix hfails => ?_, fun mint bump p howner hdata => ?_⟩
  · unfold call
    split
    next s' hs' => exact absurd hs' (hfails s')
    next => rfl
  obtain ⟨rfl, hagrees⟩ := (run_invariant r).stored howner hdata
  refine ⟨rfl, hagrees, fun c v b hmint hlist hpolicy => ?_⟩
  obtain ⟨metas, hmetas, hwritten⟩ := hagrees.lists v
  have hbytes : b.extraMetas.data = MetaList.pack v.discriminator metas := by
    rw [hlist]
    exact congrArg Prod.snd hwritten
  have hinfo : IsPolicyOf b.mint.key (c.info (policyKey c b.mint.key)) p := by
    rw [hmint, hpolicy]
    exact ⟨hagrees.owner, ⟨[], by rw [List.append_nil]; exact hagrees.data⟩, hagrees.mint_eq⟩
  have hload := (b.holder c p).context_loads hinfo
  refine ⟨_, invokeContext_eq hmetas hbytes, rfl, rfl, context_readsFrom c p b, fun rt op => ⟨?_, fun ctx' hsame => ?_⟩⟩
  · exact decide_ne_missing hload op
  · exact decide_congr hload hsame op

end runs

/-! ### A run -/

/-- Addresses that start with a letter for their seeds. -/
def sampleEnv : Env where
  rent len := (128 + len) * 6960
  canonicalBump _ := 255
  address p :=
    let spell (letter : UInt8) (mint : Pubkey) : Pubkey :=
      ⟨letter :: mint.1.take 31, by rw [List.length_cons, List.length_take, mint.2]; rfl⟩
    match p.seeds with
    | .policy mint => spell 112 mint
    | .thawExtraMetas mint => spell 116 mint
    | .freezeExtraMetas mint => spell 102 mint

/-- Wallet 1 is the freeze authority of mint 2, in its config at key 3. -/
def sampleChain : Chain
  | .pda _ => ⟨0, systemId, []⟩
  | .key k =>
    if k = sampleKey 1 then ⟨10 ^ 9, systemId, []⟩
    else if k = sampleKey 2 then ⟨10 ^ 7, token2022Id, []⟩
    else if k = sampleKey 3 then ⟨10 ^ 7, tokenAclId, [1, 0, 0, 0] ++ (sampleKey 2).1 ++ (sampleKey 1).1 ++ gateId.1⟩
    else ⟨0, systemId, []⟩

def sampleInit : InitPolicy where
  freezeAuthority := .key (sampleKey 1)
  payer := .key (sampleKey 1)
  policy := sampleEnv.policyAddress (sampleKey 2)
  mint := .key (sampleKey 2)
  mintConfig := .key (sampleKey 3)
  thawExtraMetas := sampleEnv.listAddress .thaw (sampleKey 2)
  freezeExtraMetas := sampleEnv.listAddress .freeze (sampleKey 2)
  systemProgram := .key systemId
  remainingAccounts := ∅
  signers := {sampleKey 1}

def sampleUpdate : UpdatePolicy where
  authority := .key (sampleKey 1)
  payer := .key (sampleKey 1)
  policy := sampleEnv.policyAddress (sampleKey 2)
  mint := .key (sampleKey 2)
  thawExtraMetas := sampleEnv.listAddress .thaw (sampleKey 2)
  freezeExtraMetas := sampleEnv.listAddress .freeze (sampleKey 2)
  systemProgram := .key systemId
  remainingAccounts := ∅
  signers := {sampleKey 1}

/-- Everything switched on. -/
def sampleFull : PolicyArgs := ⟨sampleKey 1, sssTokenId, true, .bypassForPdas, true, sampleKey 5, sampleKey 6, 1⟩

/-- The blacklist alone. -/
def sampleSmall : PolicyArgs := { sampleFull with allowlistMode := .off, requireSas := false }

/-- The chain after the small policy was made and became the full one. -/
def sampleState : Chain :=
  call sampleEnv (.updatePolicy sampleUpdate sampleFull) (call sampleEnv (.initPolicy sampleInit sampleSmall) sampleChain)

theorem sampleState_run : (machine sampleEnv).Run
    [.call (.updatePolicy sampleUpdate sampleFull), .call (.initPolicy sampleInit sampleSmall)] sampleState := by
  have hstart : (machine sampleEnv).start sampleChain := fun _ => rfl
  exact ((Lts.Run.start hstart).step (Step.call _ _)).step (Step.call _ _)

def sampleStored : GatePolicy :=
  ((⟨0, 0, .default, .default, .default, false, .off, false, .default, .default, 0,
    ⟨List.replicate 64 0, reserved_length⟩⟩ : GatePolicy).created 255 (sampleKey 2)).withArgs sampleFull

/-- What Token ACL sees of `sampleState`; other accounts are empty. -/
def sampleView : ThawGate.Accounts where
  findProgramAddress seeds program :=
    if program = gateId then sampleEnv.pubkey (sampleEnv.policyAddress (sampleKey 2))
    else sampleKey (seeds.foldl (fun h seed => 31 * h + seed.headD 0) 7)
  owner k :=
    if k = sampleEnv.pubkey (sampleEnv.policyAddress (sampleKey 2)) then gateId else systemId
  data k :=
    if k = sampleEnv.pubkey (sampleEnv.policyAddress (sampleKey 2)) then GatePolicy.account.bytes sampleStored else []

/-- A call for wallet 9. -/
def sampleBase : Base where
  caller := ⟨sampleKey 7, systemId, []⟩
  tokenAccount := ⟨sampleKey 8, token2022Id, []⟩
  mint := ⟨sampleKey 2, token2022Id, []⟩
  owner := ⟨sampleKey 9, systemId, []⟩
  flagAccount := ⟨sampleKey 10, systemId, []⟩
  extraMetas := sampleEnv.info sampleState (sampleEnv.listAddress .freeze (sampleKey 2))

theorem gate_reads_stored_policy_sample : ∃ ctx, invokeContext sampleView .freeze sampleBase = some ctx ∧
    ctx.ReadsFrom sampleView sampleStored ∧ ∀ op, decide sampleRuntime ctx op ≠ .ok (.deny .missingAccounts) := by
  have hpolicy := (gate_reads_stored_policy sampleState_run).2 (sampleKey 2) 255 sampleStored (by decide +kernel)
    (by decide +kernel)
  obtain ⟨ctx, hctx, -, -, hreads, hdecide⟩ :=
    hpolicy.2.2 sampleView .freeze sampleBase rfl rfl (by decide +kernel)
  exact ⟨ctx, hctx, hreads, fun op => (hdecide sampleRuntime op).1⟩

end ThawGate.Gate
