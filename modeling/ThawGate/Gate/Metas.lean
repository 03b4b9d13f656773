import ThawGate.Gate.Layout
import ThawGate.Lib.Svm
import ThawGate.MetaList

/-!
# The extra-metas lists

`metas.rs`: the list of a policy, built by the layout that the gate reads its accounts with, and `write`,
which creates or resizes the account of a list, moves lamports so that it holds the rent of its new length,
and writes the metas into it.
-/

namespace ThawGate.Gate

open Borsh Exec

/-! ### Addresses -/

/-- The seeds of the gate's accounts. -/
inductive GateSeeds where
  | policy (mint : Pubkey)
  | thawExtraMetas (mint : Pubkey)
  | freezeExtraMetas (mint : Pubkey)
  deriving DecidableEq

/-- An address of the gate, by what it is derived from. -/
structure Pda where
  seeds : GateSeeds
  bump : UInt8
  deriving DecidableEq

/-- Where an account is: at an address of the gate, or at a key that some signer or other program has. As in
the rest of the development, derivations are told apart by their seeds; only a collision of the hash could
identify two of them, or one with a key. -/
inductive Address where
  | pda (p : Pda)
  | key (k : Pubkey)
  deriving DecidableEq

abbrev Account := Svm.Account Pubkey

abbrev Chain := Address → Account

abbrev Frame := Svm.Frame Address Pubkey

/-- The rent sysvar and the address derivations. -/
structure Env where
  /-- `Rent::minimum_balance` -/
  rent : ℕ → ℕ
  /-- The bump `find_program_address` ends at. -/
  canonicalBump : GateSeeds → UInt8
  /-- `create_program_address`. -/
  address : Pda → Pubkey

namespace Env

variable (env : Env)

def findProgramAddress (s : GateSeeds) : Address := .pda ⟨s, env.canonicalBump s⟩

def pubkey : Address → Pubkey
  | .pda p => env.address p
  | .key k => k

end Env

/-- The system program's id, `11111111111111111111111111111111`. -/
def systemId : Pubkey := Pubkey.default

/-! ### Errors -/

/-- Anchor's own errors. -/
inductive AnchorError where
  | accountNotSigner
  | accountOwnedByWrongProgram
  | accountDidNotDeserialize
  | accountDidNotSerialize
  | invalidProgramId
  | constraintSeeds
  | constraintHasOne
  | tryingToInitPayerAsProgramAccount
  deriving DecidableEq, Repr

inductive Failure where
  | gate (e : GateError)
  | anchor (e : AnchorError)
  | runtime (e : Svm.RuntimeError)
  /-- An error of `spl-tlv-account-resolution`. -/
  | accountResolution
  deriving DecidableEq, Repr

/-! ### The list of a policy -/

def policySeed : Bytes := "policy".toUTF8.data.toList
def seedBlacklist : Bytes := "blacklist".toUTF8.data.toList
def seedAllowlist : Bytes := "allowlist".toUTF8.data.toList
def attestationSeed : Bytes := "attestation".toUTF8.data.toList

/-- The closure `registry_seeds` of `extra_metas`. -/
def registrySeeds (pre : Bytes) : List Seed := [.literal pre, .accountKey mintIndex, .accountKey ownerIndex]

/-- `if place.is_some() { metas.push(…) }`, for a registry's entry. -/
def entryMeta (place : Option ℕ) (issuer : ℕ) (pre : Bytes) : Option (List ExtraAccountMeta) :=
  match place with
  | none => some []
  | some _ => (ExtraAccountMeta.newExternalPdaWithSeeds issuer (registrySeeds pre)).map ([·])

def registryMetas (policy : GatePolicy) (layout : Layout) : Option (List ExtraAccountMeta) :=
  match layout.issuer with
  | none => some []
  | some issuer => do
    let blacklist ← entryMeta layout.blacklist issuer seedBlacklist
    let allowlist ← entryMeta layout.allowlist issuer seedAllowlist
    some (.pubkey policy.issuerProgram :: (blacklist ++ allowlist))

def sasMetas (policy : GatePolicy) (layout : Layout) : Option (List ExtraAccountMeta) :=
  match layout.sas with
  | none => some []
  | some sas => do
    let attestation ← ExtraAccountMeta.newExternalPdaWithSeeds sas
      [.literal attestationSeed, .accountKey (sas + sasCredentialOffset), .accountKey (sas + sasSchemaOffset),
        .accountKey ownerIndex]
    some [.pubkey sasId, .pubkey policy.sasCredential, .pubkey policy.sasSchema, attestation]

/-- The extra-metas list for a policy, in `Layout` order. -/
def extraMetas (policy : GatePolicy) : Option (List ExtraAccountMeta) := do
  let layout := Layout.forPolicy policy
  let first ← ExtraAccountMeta.newWithSeeds [.literal policySeed, .accountKey mintIndex]
  let registry ← registryMetas policy layout
  let sas ← sasMetas policy layout
  some (first :: (registry ++ sas))

theorem length_extraMetas (policy : GatePolicy) :
    ∃ metas, extraMetas policy = some metas ∧ policyIndex + metas.length = (Layout.forPolicy policy).len := by
  obtain ⟨v, b, m, a, i, c, mode, r, cr, s, k, res⟩ := policy
  cases c <;> cases mode <;> cases r <;> exact ⟨_, rfl, rfl⟩

theorem newWithSeeds_fits {seeds : List Seed} {m : ExtraAccountMeta}
    (h : ExtraAccountMeta.newWithSeeds seeds = some m) : m.Fits := by
  obtain ⟨hfits, hm⟩ := Option.ite_none_right_eq_some.1 h
  obtain rfl := Option.some.inj hm
  exact hfits

theorem newExternalPdaWithSeeds_fits {program : ℕ} {seeds : List Seed} {m : ExtraAccountMeta}
    (h : ExtraAccountMeta.newExternalPdaWithSeeds program seeds = some m) : m.Fits := by
  obtain ⟨hfits, hm⟩ := Option.ite_none_right_eq_some.1 h
  obtain rfl := Option.some.inj hm
  exact hfits

theorem entryMeta_fits {place : Option ℕ} {issuer : ℕ} {pre : Bytes} {metas : List ExtraAccountMeta}
    (h : entryMeta place issuer pre = some metas) : ∀ m ∈ metas, m.Fits := by
  cases place with
  | none =>
    obtain rfl := Option.some.inj h
    exact fun _ hm => absurd hm List.not_mem_nil
  | some i =>
    obtain ⟨m, hm, rfl⟩ := Option.map_eq_some_iff.1 h
    rw [List.forall_mem_singleton]
    exact newExternalPdaWithSeeds_fits hm

theorem registryMetas_fits {policy : GatePolicy} {layout : Layout} {metas : List ExtraAccountMeta}
    (h : registryMetas policy layout = some metas) : ∀ m ∈ metas, m.Fits := by
  unfold registryMetas at h
  split at h
  · obtain rfl := Option.some.inj h
    exact fun _ hm => absurd hm List.not_mem_nil
  · obtain ⟨blacklist, hb, h⟩ := Option.bind_eq_some_iff.1 h
    obtain ⟨allowlist, ha, h⟩ := Option.bind_eq_some_iff.1 h
    obtain rfl := Option.some.inj h
    rw [List.forall_mem_cons, List.forall_mem_append]
    exact ⟨trivial, entryMeta_fits hb, entryMeta_fits ha⟩

theorem sasMetas_fits {policy : GatePolicy} {layout : Layout} {metas : List ExtraAccountMeta}
    (h : sasMetas policy layout = some metas) : ∀ m ∈ metas, m.Fits := by
  unfold sasMetas at h
  split at h
  · obtain rfl := Option.some.inj h
    exact fun _ hm => absurd hm List.not_mem_nil
  · obtain ⟨attestation, ha, h⟩ := Option.bind_eq_some_iff.1 h
    obtain rfl := Option.some.inj h
    simp only [List.forall_mem_cons]
    exact ⟨trivial, trivial, trivial, newExternalPdaWithSeeds_fits ha, fun _ hm => absurd hm List.not_mem_nil⟩

/-- Whatever the policy, every meta can be packed, -/
theorem extraMetas_fits {policy : GatePolicy} {metas : List ExtraAccountMeta} (h : extraMetas policy = some metas) :
    ∀ m ∈ metas, m.Fits := by
  simp only [extraMetas, Option.bind_eq_bind, Option.bind_eq_some_iff] at h
  obtain ⟨first, hf, registry, hr, sas, hs, h⟩ := h
  obtain rfl := Option.some.inj h
  rw [List.forall_mem_cons, List.forall_mem_append]
  exact ⟨newWithSeeds_fits hf, registryMetas_fits hr, sasMetas_fits hs⟩

/-! ### Writing it -/

inductive Variant where
  | thaw
  | freeze
  deriving DecidableEq, Repr

namespace Variant

def seeds (mint : Pubkey) : Variant → GateSeeds
  | thaw => .thawExtraMetas mint
  | freeze => .freezeExtraMetas mint

/-- The type of the list: the discriminator of the instruction that it is resolved for. -/
def discriminator : Variant → Bytes
  | thaw => [8, 175, 169, 129, 137, 74, 61, 241]
  | freeze => [214, 141, 109, 75, 248, 1, 45, 29]

end Variant

section write

variable (env : Env) (extraMetas payer : Address) (len rent current : ℕ) (f : Frame)

/-- The list is there: resize it, and give the payer what it holds beyond the rent. -/
def refit : Exec Svm.RuntimeError Frame := do
  let f ← f.resize gateId extraMetas len
  if rent < current then do
    let f ← f.setLamports gateId extraMetas rent
    f.setLamports gateId payer ((f.held payer).lamports + (current - rent))
  else pure f

/-- The list is new: `allocate` and `assign`, not `create_account`, for someone may have sent lamports to the
address already. The gate signs for it. -/
def create : Exec Svm.RuntimeError Frame := do
  let f ← f.invoke {extraMetas} (Svm.allocate systemId · extraMetas len)
  f.invoke {extraMetas} (Svm.assign systemId · extraMetas gateId)

def topUp : Exec Svm.RuntimeError Frame :=
  if current < rent then f.invoke {payer, extraMetas} (Svm.transfer systemId · payer extraMetas (rent - current))
  else pure f

def fill (variant : Variant) (metas : List ExtraAccountMeta) : Exec Failure Frame := do
  let zeros := List.replicate (f.held extraMetas).data.length 0
  let data ← orErr (MetaList.init variant.discriminator zeros metas) .accountResolution
  mapErr .runtime (f.setData gateId extraMetas data)

end write

/-- `metas::write` -/
def write (env : Env) (variant : Variant) (extraMetas : Address) (mint : Pubkey) (payer : Address)
    (metas : List ExtraAccountMeta) (f : Frame) : Exec Failure Frame := do
  require (env.findProgramAddress (variant.seeds mint) = extraMetas) (.gate .invalidExtraMetasAccount)
  let len := MetaList.sizeOf metas.length
  let rent := env.rent len
  let current := (f.held extraMetas).lamports
  let f ← mapErr .runtime <|
    if (f.held extraMetas).owner = gateId then refit extraMetas payer len rent current f
    else create extraMetas len f
  let f ← mapErr .runtime (topUp extraMetas payer rent current f)
  fill extraMetas f variant metas

/-- `metas::write_both` -/
def writeBoth (env : Env) (policy : GatePolicy) (thawExtraMetas freezeExtraMetas payer : Address) (f : Frame) :
    Exec Failure Frame := do
  let list ← orErr (extraMetas policy) .accountResolution
  let f ← write env .thaw thawExtraMetas policy.mint payer list f
  write env .freeze freezeExtraMetas policy.mint payer list f

/-! ### What a write leaves -/

section write

variable {env : Env} {x payer : Address} {len rent current : ℕ} {f f' : Frame} {variant : Variant}
  {metas : List ExtraAccountMeta}

/-- The account at `x` is the gate's and `len` bytes long; of the others, only lamports may have moved. -/
structure Sized (x : Address) (len : ℕ) (f f' : Frame) : Prop where
  owner : (f'.held x).owner = gateId
  length : (f'.held x).data.length = len
  rest : ∀ a, a ≠ x → (f'.held a).content = (f.held a).content

theorem content_owner {a b : Account} (h : a.content = b.content) : a.owner = b.owner := congrArg Prod.fst h

theorem content_data {a b : Account} (h : a.content = b.content) : a.data = b.data := congrArg Prod.snd h

theorem Sized.of_content {f'' : Frame} (h : Sized x len f f')
    (hc : ∀ a, (f''.held a).content = (f'.held a).content) : Sized x len f f'' where
  owner := (content_owner (hc x)).trans h.owner
  length := (congrArg List.length (content_data (hc x))).trans h.length
  rest a ha := (hc a).trans (h.rest a ha)

theorem refit_sized (h : refit x payer len rent current f = ok f') : Sized x len f f' := by
  rw [refit, bind_eq_ok] at h
  obtain ⟨f₁, hresize, h⟩ := h
  rw [Svm.Frame.resize_eq_ok] at hresize
  obtain ⟨-, howner, rfl⟩ := hresize
  have hsized : Sized x len f (f.put x ⟨(f.held x).lamports, (f.held x).owner,
      (f.held x).data.take len ++ List.replicate (len - (f.held x).data.length) 0⟩) := by
    refine ⟨?_, ?_, fun a ha => by rw [Svm.Frame.put_held_of_ne _ _ _ ha]⟩
    · rw [Svm.Frame.put_held_self]
      exact howner
    · rw [Svm.Frame.put_held_self, List.length_append, List.length_take, List.length_replicate]
      omega
  split_ifs at h
  · obtain ⟨f₂, hlist, h⟩ := bind_eq_ok.1 h
    exact (hsized.of_content (Svm.Frame.setLamports_content hlist)).of_content (Svm.Frame.setLamports_content h)
  · obtain rfl := ok.inj h
    exact hsized

theorem create_sized (h : create x len f = ok f') : Sized x len f f' := by
  obtain ⟨f₁, halloc, hassign⟩ := bind_eq_ok.1 h
  have h₁ := Svm.Frame.invoke_update (g := fun a => ⟨a.lamports, a.owner, List.replicate len 0⟩) halloc
    fun _ _ hcall => (Svm.allocate_eq_ok.1 hcall).2
  have h₂ := Svm.Frame.invoke_update (g := fun a => ⟨a.lamports, gateId, a.data⟩) hassign
    fun _ _ hcall => (Svm.assign_eq_ok.1 hcall).2
  refine ⟨?_, ?_, fun a ha => ?_⟩
  · rw [h₂, Function.update_self]
  · rw [h₂, Function.update_self, h₁, Function.update_self]
    exact List.length_replicate
  · rw [h₂, Function.update_of_ne ha, h₁, Function.update_of_ne ha]

theorem topUp_content (h : topUp x payer rent current f = ok f') (a : Address) :
    (f'.held a).content = (f.held a).content := by
  unfold topUp at h
  split_ifs at h
  · refine Svm.Frame.invoke_content (g := fun _ c => c) h (fun _ _ _ => rfl) (fun accounts left hcall k => ?_) a
    obtain ⟨-, rfl⟩ := Svm.transfer_eq_ok.1 hcall
    exact Svm.moved_content k
  · rw [ok.inj h]

theorem discriminator_length (variant : Variant) : variant.discriminator.length = 8 := by
  cases variant <;> rfl

theorem fill_eq_ok (hlen : (f.held x).data.length = MetaList.sizeOf metas.length) :
    fill x f variant metas = ok f' ↔ (f.held x).owner = gateId ∧
      f' = f.put x ⟨(f.held x).lamports, (f.held x).owner, MetaList.pack variant.discriminator metas⟩ := by
  rw [fill, hlen, MetaList.init_zeros, orErr_some, bind_ok, mapErr_eq_ok, Svm.Frame.setData_eq_ok]

/-- The list at `x` holds `metas`; of the other accounts, only lamports may have moved. -/
structure Written (variant : Variant) (x : Address) (metas : List ExtraAccountMeta) (f f' : Frame) : Prop where
  list : (f'.held x).content = (gateId, MetaList.pack variant.discriminator metas)
  rest : ∀ a, a ≠ x → (f'.held a).content = (f.held a).content

theorem write_eq_ok {mint : Pubkey} : write env variant x mint payer metas f = ok f' ↔
    env.findProgramAddress (variant.seeds mint) = x ∧ ∃ f₁ f₂,
      (if (f.held x).owner = gateId then
        refit x payer (MetaList.sizeOf metas.length) (env.rent (MetaList.sizeOf metas.length)) (f.held x).lamports f
      else create x (MetaList.sizeOf metas.length) f) = ok f₁ ∧
      topUp x payer (env.rent (MetaList.sizeOf metas.length)) (f.held x).lamports f₁ = ok f₂ ∧
      fill x f₂ variant metas = ok f' := by
  rw [write, require_bind_eq_ok]
  simp only [bind_eq_ok, mapErr_eq_ok, exists_and_left]

theorem write_written {mint : Pubkey} (h : write env variant x mint payer metas f = ok f') :
    env.findProgramAddress (variant.seeds mint) = x ∧ Written variant x metas f f' := by
  obtain ⟨hx, f₁, f₂, hsize, htop, hfill⟩ := write_eq_ok.1 h
  have hsized : Sized x (MetaList.sizeOf metas.length) f f₁ := by
    split_ifs at hsize
    · exact refit_sized hsize
    · exact create_sized hsize
  have h₂ := hsized.of_content (topUp_content htop)
  obtain ⟨-, rfl⟩ := (fill_eq_ok h₂.length).1 hfill
  refine ⟨hx, ?_, fun a ha => ?_⟩
  · rw [Svm.Frame.put_held_self, Svm.Account.content, h₂.owner]
  · rw [Svm.Frame.put_held_of_ne _ _ _ ha]
    exact h₂.rest a ha

end write

end ThawGate.Gate
