import ThawGate.Gate.State

/-!
# Partial policy updates

`sdk/src/gate/client.ts`: `updatePolicy` reads the stored policy, spreads the changes over it and sends every field of
the result; `cli/src/gate.ts`: `policyFromFlags` makes the changes of `policy update`.

Between the stored policy and the instruction there is a `PolicyInput`, which has one key for the four SAS fields and none for
a credential that is stored while SAS is off. A key of the changes that is there with the value `undefined`
covers the stored one, and the default is sent. `onlyGiven_iff` says for which policies and changes the instruction
carries what is stored of everything that was not given.
-/

namespace ThawGate.Sdk

open Gate

/-! ### Objects -/

/-- A key of an object: not there, there with the value `undefined`, or with a value. -/
inductive Key (α : Type) where
  | absent
  | undefined
  | value (a : α)
  deriving DecidableEq

namespace Key

variable {α : Type}

/-- What reading the key gives; `undefined` is `none`. -/
def read : Key α → Option α
  | value a => some a
  | _ => none

/-- `{ ...stored, ...changes }` -/
def spread (stored changes : Key α) : Key α :=
  match changes with
  | absent => stored
  | key => key

@[simp] theorem read_absent : (absent : Key α).read = none := rfl
@[simp] theorem read_undefined : (undefined : Key α).read = none := rfl
@[simp] theorem read_value (a : α) : (value a).read = some a := rfl
@[simp] theorem spread_absent (stored : Key α) : stored.spread absent = stored := rfl
@[simp] theorem spread_undefined (stored : Key α) : stored.spread undefined = undefined := rfl
@[simp] theorem spread_value (stored : Key α) (a : α) : stored.spread (value a) = value a := rfl

/-- A value stored, and spread over, is read as it was or as it was given, if it was not given as `undefined`. -/
theorem read_spread (stored default : α) (changes : Key α) :
    (spread (value stored) changes).read.getD default = changes.read.getD stored ↔
      (changes = undefined → stored = default) := by
  cases changes with
  | absent => simp
  | undefined => simp [eq_comm]
  | value a => simp

end Key

structure SasInput where
  credential : Pubkey
  schema : Pubkey
  minKycLevel : Key UInt8
  deriving DecidableEq

/-- `sas` is `none` for `null`. -/
structure PolicyInput where
  checkBlacklist : Key Bool
  allowlistMode : Key AllowlistMode
  sas : Key (Option SasInput)
  issuerProgram : Key Pubkey
  authority : Key Pubkey
  deriving DecidableEq

def PolicyInput.spread (stored changes : PolicyInput) : PolicyInput where
  checkBlacklist := stored.checkBlacklist.spread changes.checkBlacklist
  allowlistMode := stored.allowlistMode.spread changes.allowlistMode
  sas := stored.sas.spread changes.sas
  issuerProgram := stored.issuerProgram.spread changes.issuerProgram
  authority := stored.authority.spread changes.authority

/-! ### The client -/

/-- sss-token's `GatePolicyConfig`. -/
structure GatePolicyConfig where
  checkBlacklist : Bool
  allowlistMode : AllowlistMode
  requireSas : Bool
  sasCredential : Pubkey
  sasSchema : Pubkey
  minKycLevel : UInt8
  deriving DecidableEq

def toGatePolicyConfig (p : PolicyInput) : GatePolicyConfig :=
  let sas := p.sas.read.join
  { checkBlacklist := p.checkBlacklist.read.getD false
    allowlistMode := p.allowlistMode.read.getD .off
    requireSas := sas.isSome
    sasCredential := (sas.map SasInput.credential).getD Pubkey.default
    sasSchema := (sas.map SasInput.schema).getD Pubkey.default
    minKycLevel := (sas.bind (·.minKycLevel.read)).getD 0 }

/-- The issuer program of an input that names none. -/
def defaultIssuer (p : PolicyInput) : Pubkey :=
  let listsOn := p.checkBlacklist.read.getD false ∨ p.allowlistMode.read.getD .off ≠ .off
  if listsOn then sssTokenId else Pubkey.default

/-- The gate's `PolicyArgs`; `authority` is the fallback policy admin. -/
def toPolicyArgs (p : PolicyInput) (authority : Pubkey) : PolicyArgs :=
  let config := toGatePolicyConfig p
  { authority := p.authority.read.getD authority
    issuerProgram := p.issuerProgram.read.getD (defaultIssuer p)
    checkBlacklist := config.checkBlacklist
    allowlistMode := config.allowlistMode
    requireSas := config.requireSas
    sasCredential := config.sasCredential
    sasSchema := config.sasSchema
    minKycLevel := config.minKycLevel }

/-- A stored policy as an input. -/
def policyToInput (p : GatePolicy) : PolicyInput where
  checkBlacklist := .value p.checkBlacklist
  allowlistMode := .value p.allowlistMode
  sas := .value (if p.requireSas then some ⟨p.sasCredential, p.sasSchema, .value p.minKycLevel⟩ else none)
  issuerProgram := .value p.issuerProgram
  authority := .value p.authority

/-- The instruction `updatePolicy` builds: its signers and its arguments. -/
structure UpdatePolicyIx where
  authority : Pubkey
  payer : Pubkey
  args : PolicyArgs
  deriving DecidableEq

structure UpdateOptions where
  authority : Option Pubkey
  payer : Option Pubkey

/-- `stored` is what `getPolicy` found for the mint, and `mintText` the mint in base58. -/
def updatePolicy (wallet : Option Pubkey) (mintText : String) (stored : Option GatePolicy) (changes : PolicyInput)
    (opts : UpdateOptions) : Exec String UpdatePolicyIx :=
  match stored with
  | none => .err ("mint " ++ mintText ++ " has no ThawGate policy")
  | some current =>
    let authority := (opts.authority.or wallet).getD current.authority
    let merged := (policyToInput current).spread changes
    .ok ⟨authority, opts.payer.getD authority, toPolicyArgs merged current.authority⟩

/-! ### What was given -/

namespace PolicyInput

variable (changes : PolicyInput) (p : GatePolicy)

/-- The four SAS fields: stored if `sas` was not given, those of no SAS policy for `null`, else those of the object, with
the stored level if it names none. -/
def givenSas : Bool × Pubkey × Pubkey × UInt8 :=
  match changes.sas.read with
  | none => (p.requireSas, p.sasCredential, p.sasSchema, p.minKycLevel)
  | some none => (false, Pubkey.default, Pubkey.default, 0)
  | some (some sas) => (true, sas.credential, sas.schema, sas.minKycLevel.read.getD p.minKycLevel)

/-- The given value of every field that was given, and the stored value of every other. -/
def given : PolicyArgs where
  authority := changes.authority.read.getD p.authority
  issuerProgram := changes.issuerProgram.read.getD p.issuerProgram
  checkBlacklist := changes.checkBlacklist.read.getD p.checkBlacklist
  allowlistMode := changes.allowlistMode.read.getD p.allowlistMode
  requireSas := (changes.givenSas p).1
  sasCredential := (changes.givenSas p).2.1
  sasSchema := (changes.givenSas p).2.2.1
  minKycLevel := (changes.givenSas p).2.2.2

/-- The instruction for the changes carries what was given and what is stored, and where the gate accepts it the policy
is the stored one but for what was given. -/
def OnlyGiven : Prop :=
  ∀ wallet mintText opts ix, updatePolicy wallet mintText (some p) changes opts = .ok ix →
    ix.args = changes.given p ∧ ∀ p', p.apply ix.args = .ok p' → p' = p.withArgs (changes.given p)

/-- There is nothing in the policy's SAS fields behind `require_sas`. -/
def NoCredential : Prop :=
  p.sasCredential = Pubkey.default ∧ p.sasSchema = Pubkey.default ∧ p.minKycLevel = 0

/-- The issuer program of a policy that names none. -/
def issuerOf (checkBlacklist : Bool) (allowlistMode : AllowlistMode) : Pubkey :=
  if checkBlacklist ∨ allowlistMode ≠ .off then sssTokenId else Pubkey.default

/-- What the changes leave to a default is stored like that. A key that is `undefined` is left to one, the SAS
fields of a policy without SAS are, and so is the level of an object that names none. -/
structure LeavesDefaults : Prop where
  checkBlacklist : changes.checkBlacklist = .undefined → p.checkBlacklist = false
  allowlistMode : changes.allowlistMode = .undefined → p.allowlistMode = .off
  issuerProgram : changes.issuerProgram = .undefined → p.issuerProgram =
    issuerOf (changes.checkBlacklist.read.getD p.checkBlacklist) (changes.allowlistMode.read.getD p.allowlistMode)
  sas : match changes.sas with
    | .absent => p.requireSas = true ∨ NoCredential p
    | .undefined => p.requireSas = false ∧ NoCredential p
    | .value none => True
    | .value (some sas) => sas.minKycLevel.read = none → p.minKycLevel = 0

variable {changes p}

theorem onlyGiven_iff_args :
    changes.OnlyGiven p ↔ toPolicyArgs ((policyToInput p).spread changes) p.authority = changes.given p := by
  constructor
  · intro h
    exact (h none "" ⟨none, none⟩ _ rfl).1
  · rintro hargs wallet mintText opts ix hix
    obtain rfl := Exec.ok.inj hix
    exact ⟨hargs, fun p' hp' => hargs ▸ (GatePolicy.apply_eq_ok.1 hp').2⟩

theorem sas_eq_iff : let config := toGatePolicyConfig ((policyToInput p).spread changes)
    (config.requireSas = (changes.givenSas p).1 ∧ config.sasCredential = (changes.givenSas p).2.1 ∧
      config.sasSchema = (changes.givenSas p).2.2.1 ∧ config.minKycLevel = (changes.givenSas p).2.2.2) ↔
      match changes.sas with
      | .absent => p.requireSas = true ∨ NoCredential p
      | .undefined => p.requireSas = false ∧ NoCredential p
      | .value none => True
      | .value (some sas) => sas.minKycLevel.read = none → p.minKycLevel = 0 := by
  dsimp only [toGatePolicyConfig, PolicyInput.spread, policyToInput, givenSas]
  cases hsas : changes.sas with
  | absent =>
    cases hrequire : p.requireSas with
    | true => simp
    | false => simp [NoCredential, eq_comm (b := p.sasCredential), eq_comm (b := p.sasSchema), eq_comm (b := p.minKycLevel)]
  | undefined =>
    simp [NoCredential, eq_comm (b := p.sasCredential), eq_comm (b := p.sasSchema), eq_comm (b := p.minKycLevel),
      eq_comm (b := p.requireSas)]
  | value sas =>
    cases sas with
    | none => simp
    | some sas =>
      cases hlevel : sas.minKycLevel.read with
      | none => simp [hlevel, eq_comm (b := p.minKycLevel)]
      | some level => simp [hlevel]

/-- Where the lists are not left to a default, the issuer program of the merged input is the one of the lists given. -/
theorem defaultIssuer_spread (hblacklist : changes.checkBlacklist = .undefined → p.checkBlacklist = false)
    (hallowlist : changes.allowlistMode = .undefined → p.allowlistMode = .off) :
    defaultIssuer ((policyToInput p).spread changes) =
      issuerOf (changes.checkBlacklist.read.getD p.checkBlacklist) (changes.allowlistMode.read.getD p.allowlistMode) := by
  rw [defaultIssuer, issuerOf, PolicyInput.spread, policyToInput]
  dsimp only
  rw [(Key.read_spread p.checkBlacklist false _).2 hblacklist, (Key.read_spread p.allowlistMode .off _).2 hallowlist]

end PolicyInput

theorem args_eq_iff {changes : PolicyInput} {p : GatePolicy} :
    toPolicyArgs ((policyToInput p).spread changes) p.authority = changes.given p ↔ changes.LeavesDefaults p := by
  have hblacklist := Key.read_spread p.checkBlacklist false changes.checkBlacklist
  have hallowlist := Key.read_spread p.allowlistMode .off changes.allowlistMode
  have hauthority := (Key.read_spread p.authority p.authority changes.authority).2 fun _ => rfl
  have hissuer := Key.read_spread p.issuerProgram (defaultIssuer ((policyToInput p).spread changes)) changes.issuerProgram
  have hsas := @PolicyInput.sas_eq_iff changes p
  simp only [toPolicyArgs, PolicyInput.given, PolicyArgs.mk.injEq]
  constructor
  · rintro ⟨-, hissuer', hblacklist', hallowlist', hsas'⟩
    refine ⟨hblacklist.1 hblacklist', hallowlist.1 hallowlist', ?_, hsas.1 hsas'⟩
    rw [← PolicyInput.defaultIssuer_spread (hblacklist.1 hblacklist') (hallowlist.1 hallowlist')]
    exact hissuer.1 hissuer'
  · rintro ⟨hblacklist', hallowlist', hissuer', hsas'⟩
    rw [← PolicyInput.defaultIssuer_spread hblacklist' hallowlist'] at hissuer'
    exact ⟨hauthority, hissuer.2 hissuer', hblacklist.2 hblacklist', hallowlist.2 hallowlist', hsas.2 hsas'⟩

/-- An update touches only what was given exactly when what its changes leave to a default is stored like that. -/
theorem onlyGiven_iff (changes : PolicyInput) (p : GatePolicy) : changes.OnlyGiven p ↔ changes.LeavesDefaults p := by
  rw [PolicyInput.onlyGiven_iff_args, args_eq_iff]

/-! ### The command line -/

/-- The policy flags; `sas` is `some false` for `--no-sas`. -/
structure PolicyFlags where
  blacklist : Option String
  allowlist : Option String
  sasCredential : Option String
  sasSchema : Option String
  minKyc : Option String
  sas : Option Bool

def allowlistModes : List (String × AllowlistMode) :=
  [("off", .off), ("allowOnly", .allowOnly), ("bypassForPdas", .bypassForPdas)]

def onOff (v flag : String) : Exec String Bool :=
  if v = "on" ∨ v = "true" then .ok true
  else if v = "off" ∨ v = "false" then .ok false
  else .err (flag ++ " takes on or off, not " ++ v)

section flags

-- `new PublicKey`, and `Number` where it gives an integer
variable (publicKey : String → Exec String Pubkey) (integer : String → Option Int)

/-- The key of a flag, or the stored one. -/
def keyFromFlag (flag : Option String) (stored : Option Pubkey) : Exec String (Option Pubkey) :=
  match flag with
  | none => .ok stored
  | some v => if v = "" then .ok stored else do
    let key ← publicKey v
    pure (some key)

def PolicyFlags.sasGiven (f : PolicyFlags) : Bool := f.sasCredential.isSome || f.sasSchema.isSome || f.minKyc.isSome

def sasFromFlags (f : PolicyFlags) (current : Option GatePolicy) : Exec String (Key (Option SasInput)) :=
  if f.sas = some false then
    if f.sasGiven then .err "--no-sas can't be combined with --sas-credential, --sas-schema or --min-kyc"
    else .ok (.value none)
  else if f.sasGiven then do
    let stored := current.filter GatePolicy.requireSas
    let credential ← keyFromFlag publicKey f.sasCredential (stored.map GatePolicy.sasCredential)
    let schema ← keyFromFlag publicKey f.sasSchema (stored.map GatePolicy.sasSchema)
    match credential, schema with
    | some credential, some schema =>
      let minKycLevel := match f.minKyc with
        | some v => integer v
        | none => some (((stored.map fun p : GatePolicy => p.minKycLevel.toNat).getD 0 : Nat) : Int)
      match minKycLevel with
      | none => .err "--min-kyc takes 0-255"
      | some level =>
        if level < 0 ∨ 255 < level then .err "--min-kyc takes 0-255"
        else .ok (.value (some ⟨credential, schema, .value (UInt8.ofNat level.toNat)⟩))
    | _, _ => .err "a SAS policy needs both --sas-credential and --sas-schema"
  else .ok .absent

def blacklistFromFlag : Option String → Exec String (Key Bool)
  | none => .ok .absent
  | some v => do
    let on ← onOff v "--blacklist"
    pure (.value on)

def allowlistFromFlag : Option String → Exec String (Key AllowlistMode)
  | none => .ok .absent
  | some v =>
    match allowlistModes.lookup v with
    | some mode => .ok (.value mode)
    | none => .err ("--allowlist takes off, allowOnly, bypassForPdas, not " ++ v)

def policyFromFlags (f : PolicyFlags) (current : Option GatePolicy) : Exec String PolicyInput := do
  let checkBlacklist ← blacklistFromFlag f.blacklist
  let allowlistMode ← allowlistFromFlag f.allowlist
  let sas ← sasFromFlags publicKey integer f current
  pure ⟨checkBlacklist, allowlistMode, sas, .absent, .absent⟩

variable {publicKey integer} {f : PolicyFlags} {current : Option GatePolicy}

theorem blacklistFromFlag_ne {v : Option String} {key : Key Bool} (h : blacklistFromFlag v = .ok key) : key ≠ .undefined := by
  cases v with
  | none =>
    cases h
    exact nofun
  | some v =>
    obtain ⟨on, -, h⟩ := Exec.bind_eq_ok.1 h
    cases h
    exact nofun

theorem allowlistFromFlag_ne {v : Option String} {key : Key AllowlistMode} (h : allowlistFromFlag v = .ok key) :
    key ≠ .undefined := by
  cases v with
  | none =>
    cases h
    exact nofun
  | some v =>
    rw [allowlistFromFlag] at h
    cases hmode : allowlistModes.lookup v with
    | none =>
      rw [hmode] at h
      cases h
    | some mode =>
      rw [hmode] at h
      cases h
      exact nofun

/-- The `sas` of the flags is not there, `null`, or an object with a level. -/
theorem sasFromFlags_cases {sas : Key (Option SasInput)} (h : sasFromFlags publicKey integer f current = .ok sas) :
    sas = .absent ∨ sas = .value none ∨ ∃ credential schema level, sas = .value (some ⟨credential, schema, .value level⟩) := by
  rw [sasFromFlags] at h
  by_cases hoff : f.sas = some false
  · rw [if_pos hoff] at h
    split at h
    · cases h
    · cases h
      exact .inr (.inl rfl)
  · rw [if_neg hoff] at h
    by_cases hgiven : f.sasGiven = true
    · rw [if_pos hgiven] at h
      obtain ⟨credential, -, h⟩ := Exec.bind_eq_ok.1 h
      obtain ⟨schema, -, h⟩ := Exec.bind_eq_ok.1 h
      cases credential with
      | none => cases h
      | some credential =>
        cases schema with
        | none => cases h
        | some schema =>
          dsimp only at h
          split at h
          · cases h
          · split at h
            · cases h
            · cases h
              exact .inr (.inr ⟨_, _, _, rfl⟩)
    · rw [if_neg hgiven] at h
      cases h
      exact .inl rfl

/-- `policy update` touches only what its flags give, but for SAS fields that are stored while SAS is off. -/
theorem policyFromFlags_onlyGiven {changes : PolicyInput} (h : policyFromFlags publicKey integer f current = .ok changes)
    {p : GatePolicy} (hp : p.requireSas = true ∨ PolicyInput.NoCredential p) : changes.OnlyGiven p := by
  rw [policyFromFlags] at h
  obtain ⟨checkBlacklist, hblacklist, h⟩ := Exec.bind_eq_ok.1 h
  obtain ⟨allowlistMode, hallowlist, h⟩ := Exec.bind_eq_ok.1 h
  obtain ⟨sas, hsas, h⟩ := Exec.bind_eq_ok.1 h
  cases h
  rw [PolicyInput.onlyGiven_iff_args, args_eq_iff]
  refine ⟨fun h => absurd h (blacklistFromFlag_ne hblacklist), fun h => absurd h (allowlistFromFlag_ne hallowlist),
    nofun, ?_⟩
  rcases sasFromFlags_cases hsas with rfl | rfl | ⟨credential, schema, level, rfl⟩
  · exact hp
  · trivial
  · exact nofun

end flags

/-! ### Samples -/

/-- A policy with SAS. -/
def sasPolicy : GatePolicy where
  version := policyVersion
  bump := 255
  mint := sampleKey 1
  authority := sampleKey 2
  issuerProgram := sssTokenId
  checkBlacklist := true
  allowlistMode := .off
  requireSas := true
  sasCredential := sampleKey 3
  sasSchema := sampleKey 4
  minKycLevel := 2
  reserved := ⟨List.replicate 64 0, reserved_length⟩

/-- `{ checkBlacklist: undefined, sas: undefined }` -/
def undefinedChanges : PolicyInput := ⟨.undefined, .absent, .undefined, .absent, .absent⟩

/-- `{ sas: { credential, schema } }` -/
def levelChanges : PolicyInput := ⟨.absent, .absent, .value (some ⟨sampleKey 3, sampleKey 4, .absent⟩), .absent, .absent⟩

/-- Two keys that are there with the value `undefined` turn the blacklist and SAS off, and the gate takes the policy; an
object without a level takes the stored level away. -/
theorem stored_policy_dropped : ¬undefinedChanges.OnlyGiven sasPolicy ∧ ¬levelChanges.OnlyGiven sasPolicy ∧
    ∃ ix p', updatePolicy none "" (some sasPolicy) undefinedChanges ⟨none, none⟩ = .ok ix ∧
      sasPolicy.apply ix.args = .ok p' ∧ p'.checkBlacklist = false ∧ p'.requireSas = false ∧
      p'.sasCredential = Pubkey.default := by
  refine ⟨?_, ?_, _, _, rfl, rfl, rfl, rfl, rfl⟩
  · rw [PolicyInput.onlyGiven_iff_args]
    decide
  · rw [PolicyInput.onlyGiven_iff_args]
    decide

end ThawGate.Sdk
