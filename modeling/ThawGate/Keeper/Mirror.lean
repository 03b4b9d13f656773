import ThawGate.Gate.Holder
import ThawGate.Keeper.Policy

/-!
# The keeper's mirror of the gate

The keeper reads an owner's accounts (`ownerReads`) and judges them with its own copy of the freeze rule.
`Mirrors` says that its answers are the gate's: a freeze reason where the gate allows the freeze with that
code, a compliant code where the gate allows the thaw with that code, and `unknown` where the gate denies
both. Both sides evaluate the same facts whenever every account is readable to the gate, and both refuse
a malformed account, but for one kind: a blacklist entry whose reason is not UTF-8 (`mirrors_iff`).
-/

namespace ThawGate.Keeper

open Borsh Exec

/-- An account is read only where the policy consults it. -/
def readIf {α : Type} (on : Prop) [Decidable on] (x : Exec Empty α) : Exec Empty (Option α) :=
  if on then do pure (some (← x)) else .ok none

theorem readIf_eq {α : Type} {on : Prop} [Decidable on] {x : Exec Empty α} {a : α} (h : x = .ok a) :
    readIf on x = .ok (if on then some a else none) := by
  rw [readIf, h, bind_ok, pure_eq]
  split_ifs <;> rfl

/-- What `check` reads of one owner. -/
def ownerReads (policy : GatePolicy) (owner : Pubkey) (offCurve : Bool)
    (blacklist allowlist attestation : Option RawAccount) : Exec Empty OwnerReads := do
  let attestation ← readIf policy.requireSas
    (readAttestation attestation policy.sasCredential policy.sasSchema owner)
  let blacklist ← readIf policy.checkBlacklist
    (readBlacklistEntry blacklist policy.issuerProgram policy.mint owner)
  let allowlist ← readIf (policy.allowlistMode ≠ .off)
    (readAllowlistEntry allowlist policy.issuerProgram policy.mint owner)
  pure ⟨blacklist, allowlist, attestation, offCurve⟩

/-- The RPC's view of an owner's accounts. -/
structure RawAccounts where
  blacklist : Option RawAccount
  allowlist : Option RawAccount
  attestation : Option RawAccount

structure SeesAll (r : Gate.OwnerAccounts) (raw : RawAccounts) : Prop where
  blacklist : Sees r.blacklist raw.blacklist
  allowlist : Sees r.allowlist raw.allowlist
  attestation : Sees r.attestation raw.attestation

/-! ### What each read comes to -/

section reads

variable {rt : Gate.Runtime} {p : Gate.GatePolicy} {owner : Pubkey} {r : Gate.OwnerAccounts}
  {raw : RawAccounts}

/-- The blacklist entry, for the keeper: what the account says, `bad`, or the entry behind a reason that
it skipped. -/
theorem blacklist_read (p : Gate.GatePolicy) (owner : Pubkey) (h : SeesAll r raw) :
    ∃ e, readBlacklistEntry raw.blacklist p.issuerProgram p.mint owner = .ok e ∧
      ((∃ s, Gate.BlacklistSays p owner r s ∧ e = .of s) ∨
        (SkipsReason p.issuerProgram p.mint owner r.blacklist ∧ ∃ s, e = .of s) ∨
        (Gate.blacklistRegistry.Malformed p.issuerProgram p.mint owner r.blacklist ∧
          ¬SkipsReason p.issuerProgram p.mint owner r.blacklist ∧ e = .bad)) := by
  rcases Gate.EntryType.says_or_malformed Gate.blacklistRegistry p.issuerProgram p.mint owner
    r.blacklist with ⟨s, hs⟩ | hbad
  · exact ⟨_, readBlacklistEntry_of_said h.blacklist hs, .inl ⟨s, hs, rfl⟩⟩
  by_cases hskip : SkipsReason p.issuerProgram p.mint owner r.blacklist
  · obtain ⟨s, hs⟩ := readBlacklistEntry_of_skipsReason h.blacklist hskip
    exact ⟨_, hs, .inr (.inl ⟨hskip, s, rfl⟩)⟩
  · exact ⟨_, readBlacklistEntry_of_malformed h.blacklist hbad hskip, .inr (.inr ⟨hbad, hskip, rfl⟩)⟩

theorem allowlist_read (p : Gate.GatePolicy) (owner : Pubkey) (h : SeesAll r raw) :
    ∃ e, readAllowlistEntry raw.allowlist p.issuerProgram p.mint owner = .ok e ∧
      ((∃ s, Gate.AllowlistSays p owner r s ∧ e = .of s) ∨
        (Gate.allowlistRegistry.Malformed p.issuerProgram p.mint owner r.allowlist ∧ e = .bad)) := by
  rcases Gate.EntryType.says_or_malformed Gate.allowlistRegistry p.issuerProgram p.mint owner
    r.allowlist with ⟨s, hs⟩ | hbad
  · exact ⟨_, readAllowlistEntry_of_said h.allowlist hs, .inl ⟨s, hs, rfl⟩⟩
  · exact ⟨_, readAllowlistEntry_of_malformed h.allowlist hbad, .inr ⟨hbad, rfl⟩⟩

/-- `credentialState` is the gate's verdict on the same attestation. -/
theorem credentialState_verdict (a : Gate.Attestation) (n : Nat) (minKycLevel : UInt8) (now : Int64) :
    match Gate.Sas.verdict a minKycLevel now with
    | .ok c => credentialState (.present a.expiry n a.kycLevel) minKycLevel now = .of c
    | _ => credentialState (.present a.expiry n a.kycLevel) minKycLevel now = .bad := by
  unfold Gate.Sas.verdict credentialState
  simp only
  by_cases hexp : a.expiry ≠ 0 ∧ a.expiry < now
  · rw [if_pos hexp, if_pos hexp]
    rfl
  rw [if_neg hexp, if_neg hexp]
  by_cases hmin : 0 < minKycLevel
  swap
  · rw [if_neg hmin, if_neg hmin]
    rfl
  rw [if_pos hmin, if_pos hmin]
  cases a.kycLevel with
  | none => rfl
  | some level =>
    simp only
    by_cases hlow : level < minKycLevel
    · rw [if_pos hlow, if_pos hlow]
      rfl
    · rw [if_neg hlow, if_neg hlow]
      rfl

theorem attestation_read (p : Gate.GatePolicy) (owner : Pubkey) (now : Int64) (h : SeesAll r raw) :
    ∃ e, readAttestation raw.attestation p.sasCredential p.sasSchema owner = .ok e ∧
      ((∃ c, Gate.Sas.Says p owner now r.attestation c ∧ credentialState e p.minKycLevel now = .of c) ∨
        (Gate.Sas.Malformed p owner now r.attestation ∧ credentialState e p.minKycLevel now = .bad)) := by
  by_cases hempty : r.attestation.data = []
  · exact ⟨_, readAttestation_of_empty h.attestation hempty _ _, .inl ⟨.missing, hempty, rfl⟩⟩
  by_cases hholds : ∃ a, Gate.Attestation.Holds p owner r.attestation a
  swap
  · refine ⟨_, readAttestation_of_not_holds h.attestation hempty (not_exists.1 hholds), .inr ⟨?_, rfl⟩⟩
    exact ⟨hempty, fun a ha => absurd ⟨a, ha⟩ hholds⟩
  obtain ⟨a, ha⟩ := hholds
  have hgate : Gate.readAttestation r.attestation p owner now = Gate.Sas.verdict a p.minKycLevel now :=
    Gate.Sas.readAttestation_of_holds hempty ha
  have hstate := credentialState_verdict a a.data.1.length p.minKycLevel now
  refine ⟨_, readAttestation_of_holds h.attestation ha, ?_⟩
  rcases Gate.Sas.says_or_malformed p owner now r.attestation with ⟨c, hc⟩ | hbad
  · rw [← hgate, Gate.Sas.read_of_said hc] at hstate
    exact .inl ⟨c, hc, hstate⟩
  · rw [← hgate, Gate.Sas.read_of_malformed hbad] at hstate
    exact .inr ⟨hbad, hstate⟩

/-- An account that the policy consults, and that the keeper calls `bad`. -/
def BadRead (rt : Gate.Runtime) (p : Gate.GatePolicy) (owner : Pubkey) (r : Gate.OwnerAccounts) : Prop :=
  (p.allowlistMode ≠ .off ∧ Gate.allowlistRegistry.Malformed p.issuerProgram p.mint owner r.allowlist) ∨
    (Gate.AttestationRead rt p owner r ∧ Gate.Sas.Malformed p owner rt.unixTimestamp r.attestation)

/-- The blacklist input: what the gate consults, an entry behind a skipped reason, or bad. -/
theorem blacklistRead_cases (reads : OwnerReads) (h : SeesAll r raw) {b : EntryRead}
    (hb : readBlacklistEntry raw.blacklist p.issuerProgram p.mint owner = .ok b)
    (hread : reads.blacklist = if p.checkBlacklist then some b else none) :
    (∃ s, Gate.Consulted (p.checkBlacklist = true) (Gate.BlacklistSays p owner r) s ∧
      blacklistRead (.of p) reads = some (.ofOption s)) ∨
    ((p.checkBlacklist = true ∧ SkipsReason p.issuerProgram p.mint owner r.blacklist) ∧
      ∃ s, blacklistRead (.of p) reads = some (.ofOption s)) ∨
    ((p.checkBlacklist = true ∧
        Gate.blacklistRegistry.Malformed p.issuerProgram p.mint owner r.blacklist) ∧
      ¬SkipsReason p.issuerProgram p.mint owner r.blacklist ∧
      blacklistRead (.of p) reads = some .bad) := by
  by_cases hon : p.checkBlacklist = true
  swap
  · refine .inl ⟨none, hon, ?_⟩
    exact if_neg (by exact hon)
  have hin : blacklistRead (.of p) reads = some b := by
    rw [blacklistRead, if_pos (by exact hon), hread, if_pos hon]
  obtain ⟨b', hb', hcases⟩ := blacklist_read p owner h
  obtain rfl : b = b' := ok.inj (hb.symm.trans hb')
  rcases hcases with ⟨s, hs, rfl⟩ | ⟨hskip, s, rfl⟩ | ⟨hbad, hskip, rfl⟩
  · exact .inl ⟨some s, ⟨hon, hs⟩, hin⟩
  · exact .inr (.inl ⟨⟨hon, hskip⟩, some s, hin⟩)
  · exact .inr (.inr ⟨⟨hon, hbad⟩, hskip, hin⟩)

theorem allowlistRead_cases (reads : OwnerReads) (h : SeesAll r raw) {a : EntryRead}
    (ha : readAllowlistEntry raw.allowlist p.issuerProgram p.mint owner = .ok a)
    (hread : reads.allowlist = if p.allowlistMode ≠ .off then some a else none) :
    (∃ s, Gate.Consulted (p.allowlistMode ≠ .off) (Gate.AllowlistSays p owner r) s ∧
      allowlistRead (.of p) reads = some (.ofOption s)) ∨
    ((p.allowlistMode ≠ .off ∧
        Gate.allowlistRegistry.Malformed p.issuerProgram p.mint owner r.allowlist) ∧
      allowlistRead (.of p) reads = some .bad) := by
  by_cases hon : p.allowlistMode ≠ .off
  swap
  · refine .inl ⟨none, hon, ?_⟩
    exact if_neg (by exact hon)
  have hin : allowlistRead (.of p) reads = some a := by
    rw [allowlistRead, if_pos (by exact hon), hread, if_pos hon]
  obtain ⟨a', ha', hcases⟩ := allowlist_read p owner h
  obtain rfl : a = a' := ok.inj (ha.symm.trans ha')
  rcases hcases with ⟨s, hs, rfl⟩ | ⟨hbad, rfl⟩
  · exact .inl ⟨some s, ⟨hon, hs⟩, hin⟩
  · exact .inr ⟨⟨hon, hbad⟩, hin⟩

/-- The credential input: the gate's, or none where the attestation is malformed. -/
theorem credentialInput_read (reads : OwnerReads) {a : Option Gate.Entry} {t : AttestationRead}
    (ha : Gate.Consulted (p.allowlistMode ≠ .off) (Gate.AllowlistSays p owner r) a)
    (hcurve : reads.ownerOffCurve = Gate.isOffCurve rt owner)
    (hread : reads.attestation = if p.requireSas then some t else none)
    (ht : (∃ c, Gate.Sas.Says p owner rt.unixTimestamp r.attestation c ∧
        credentialState t p.minKycLevel rt.unixTimestamp = .of c) ∨
      (Gate.Sas.Malformed p owner rt.unixTimestamp r.attestation ∧
        credentialState t p.minKycLevel rt.unixTimestamp = .bad)) :
    (∃ sas, credentialInput (.of p) reads (.ofOption a) rt.unixTimestamp = some (.of sas) ∧
      match sas with
      | .notRequired => p.requireSas = false
      | .bypassed => p.requireSas = true ∧ Gate.Bypassed rt p owner r
      | .checked c => Gate.AttestationRead rt p owner r ∧
          Gate.Sas.Says p owner rt.unixTimestamp r.attestation c) ∨
    ((Gate.AttestationRead rt p owner r ∧ Gate.Sas.Malformed p owner rt.unixTimestamp r.attestation) ∧
      credentialInput (.of p) reads (.ofOption a) rt.unixTimestamp = none) := by
  have hbypass : ((GatePolicy.of p).allowlistMode = .bypassForPdas ∧ EntryRead.ofOption a = .active ∧
      reads.ownerOffCurve = true) ↔ Gate.Bypassed rt p owner r := by
    rw [hcurve, EntryRead.ofOption_active]
    refine and_congr_right fun hmode => and_congr_left' ?_
    rw [ha.active_iff]
    exact and_iff_right fun hoff => by simp [GatePolicy.of, hoff] at hmode
  unfold credentialInput
  by_cases hsas : p.requireSas = true
  swap
  · rw [if_neg (by exact hsas)]
    exact .inl ⟨.notRequired, rfl, by simpa using hsas⟩
  rw [if_pos (by exact hsas)]
  by_cases hby : Gate.Bypassed rt p owner r
  · rw [if_pos (hbypass.2 hby)]
    exact .inl ⟨.bypassed, rfl, hsas, hby⟩
  rw [if_neg (mt hbypass.1 hby), hread, if_pos hsas]
  simp only [show (GatePolicy.of p).minKycLevel = p.minKycLevel from rfl]
  rcases ht with ⟨c, hc, hstate⟩ | ⟨hbad, hstate⟩
  · rw [hstate, if_neg (by cases c <;> simp [Credential.of])]
    exact .inl ⟨.checked c, rfl, ⟨hsas, hby⟩, hc⟩
  · rw [hstate, if_pos rfl]
    exact .inr ⟨⟨⟨hsas, hby⟩, hbad⟩, rfl⟩

/-- The keeper evaluates the gate's facts, or leaves the owner unjudged for a malformed account, or has
taken an entry with an unreadable reason at its word. -/
theorem ownerReads_cases (rt : Gate.Runtime) (p : Gate.GatePolicy) (owner : Pubkey) (h : SeesAll r raw)
    {offCurve : Bool} (hcurve : offCurve = Gate.isOffCurve rt owner) :
    ∃ reads, ownerReads (.of p) owner offCurve raw.blacklist raw.allowlist raw.attestation = .ok reads ∧
      ((∃ facts, Gate.Gathers rt p owner r facts ∧ SameFacts (.of p) reads rt.unixTimestamp facts) ∨
      (Gate.Unreadable rt p owner r ∧
        (¬(p.checkBlacklist = true ∧ SkipsReason p.issuerProgram p.mint owner r.blacklist) ∨
          BadRead rt p owner r) ∧
        freezeReason (.of p) reads rt.unixTimestamp = none ∧
        ownerVerdict (.of p) reads (some rt.unixTimestamp) = .unknown) ∨
      ((p.checkBlacklist = true ∧ SkipsReason p.issuerProgram p.mint owner r.blacklist) ∧
        ¬BadRead rt p owner r ∧ ownerVerdict (.of p) reads (some rt.unixTimestamp) ≠ .unknown)) := by
  obtain ⟨b, hb, -⟩ := blacklist_read p owner h
  obtain ⟨a, ha, -⟩ := allowlist_read p owner h
  obtain ⟨t, ht, htcases⟩ := attestation_read p owner rt.unixTimestamp h
  let reads : OwnerReads := ⟨if p.checkBlacklist then some b else none,
    if p.allowlistMode ≠ .off then some a else none, if p.requireSas then some t else none, offCurve⟩
  have hreads : ownerReads (.of p) owner offCurve raw.blacklist raw.allowlist raw.attestation =
      .ok reads := by
    unfold ownerReads
    refine (congrArg (· >>= _) (readIf_eq ht)).trans ?_
    rw [bind_ok]
    refine (congrArg (· >>= _) (readIf_eq hb)).trans ?_
    rw [bind_ok]
    refine (congrArg (· >>= _) (readIf_eq ha)).trans ?_
    rw [bind_ok, pure_eq]
    rfl
  refine ⟨reads, hreads, ?_⟩
  have hblack := blacklistRead_cases reads h hb rfl
  obtain ⟨eb, heb⟩ : ∃ e, blacklistRead (.of p) reads = some e := by
    rcases hblack with ⟨s, -, hs⟩ | ⟨-, s, hs⟩ | ⟨-, -, hs⟩ <;> exact ⟨_, hs⟩
  obtain ⟨as, has, hallow⟩ | ⟨hbad, hallow⟩ := allowlistRead_cases reads h ha rfl
  swap
  · exact .inr (.inl ⟨.inr (.inl hbad), .inr (.inl hbad), unknown_of_bad heb hallow (.inr (.inl rfl))⟩)
  obtain ⟨sas, hinput, hsas⟩ | ⟨hbad, hnone⟩ :=
    credentialInput_read reads has hcurve rfl htcases
  swap
  · exact .inr (.inl ⟨.inr (.inr hbad), .inr (.inr hbad),
      unknown_of_bad heb hallow (.inr (.inr hnone))⟩)
  have hgood : ¬BadRead rt p owner r := by
    rintro (hbad | ⟨hread, hbad⟩)
    · exact has.not_malformed hbad
    · cases sas with
      | notRequired => exact absurd hread.1 (by simp [show p.requireSas = false from hsas])
      | bypassed => exact hread.2 hsas.2
      | checked c => exact hsas.2.not_malformed hbad
  rcases hblack with ⟨bs, hbs, hblack⟩ | ⟨hskip, bs, hblack⟩ | ⟨hbad, hskip, hblack⟩
  · exact .inl ⟨⟨true, bs, as, p.allowlistMode, sas⟩, ⟨hbs, has, rfl, hsas⟩, hblack, hallow, rfl, hinput⟩
  · have hsame : SameFacts (.of p) reads rt.unixTimestamp ⟨true, bs, as, p.allowlistMode, sas⟩ :=
      ⟨hblack, hallow, rfl, hinput⟩
    refine .inr (.inr ⟨hskip, hgood, ?_⟩)
    rw [ownerVerdict_of_facts hsame]
    cases Gate.flag ⟨true, bs, as, p.allowlistMode, sas⟩ <;> simp
  · exact .inr (.inl ⟨.inl hbad, .inl fun h => hskip h.2, unknown_of_bad hblack hallow (.inl rfl)⟩)

end reads

/-! ### The mirror -/

/-- The keeper's answers for an owner are the gate's, on the same accounts and at the same time. -/
structure Mirrors (rt : Gate.Runtime) (ctx : Gate.CanGate) (policy : GatePolicy) (reads : OwnerReads) :
    Prop where
  freezes : ∀ reason, freezeReason policy reads rt.unixTimestamp = some reason ↔
    Gate.decide rt ctx .freeze = .ok (.allow reason.allow)
  thaws : ∀ code, ownerVerdict policy reads (some rt.unixTimestamp) = .compliant code ↔
    Gate.decide rt ctx .thaw = .ok (.allow code.allow)
  unknowns : ownerVerdict policy reads (some rt.unixTimestamp) = .unknown ↔
    (∃ d, Gate.decide rt ctx .thaw = .ok (.deny d)) ∧ ∃ d, Gate.decide rt ctx .freeze = .ok (.deny d)

section mirrors

variable {rt : Gate.Runtime} {ctx : Gate.CanGate} {policy : GatePolicy} {reads : OwnerReads}

theorem mirrors_of_facts {p : Gate.GatePolicy} {facts : Gate.Facts} (hload : ctx.Loads p)
    (hfacts : Gate.Gathers rt p ctx.owner.key (ctx.ownerAccounts p) facts)
    (hsame : SameFacts policy reads rt.unixTimestamp facts)
    (himmutable : Gate.hasImmutableOwner rt ctx.tokenAccount = true) : Mirrors rt ctx policy reads := by
  have hthaw := Gate.decide_of_gathers hload hfacts .thaw
  have hfreeze := Gate.decide_of_gathers hload hfacts .freeze
  have hflag (i : Bool) : Gate.flag { facts with immutableOwner := i } = Gate.flag facts := rfl
  have hadmitted (i : Bool) : Gate.admittedBy { facts with immutableOwner := i } = Gate.admittedBy facts :=
    rfl
  simp only [Gate.evaluate, Gate.immutableOwnerFor, himmutable, hflag, hadmitted, Bool.true_eq_false,
    if_false] at hthaw hfreeze
  have hreason := freezeReason_of_facts hsame
  have hverdict := ownerVerdict_of_facts hsame
  cases hf : Gate.flag facts with
  | some f =>
    simp only [hf, Option.map_some] at hthaw hfreeze hreason hverdict
    refine ⟨fun reason => ?_, fun code => ?_, ?_⟩
    · rw [hreason, hfreeze, Option.some_inj, ok.injEq, Gate.Decision.allow.injEq,
        ← FreezeReason.allow_of f]
      exact ⟨fun h => congrArg _ h, fun h => FreezeReason.allow_inj h⟩
    · simp [hverdict, hthaw]
    · simp [hverdict, hfreeze]
  | none =>
    simp only [hf, Option.map_none] at hthaw hfreeze hreason hverdict
    refine ⟨fun reason => ?_, fun code => ?_, ?_⟩
    · simp [hreason, hfreeze]
    · rw [hverdict, hthaw, OwnerVerdict.compliant.injEq, ok.injEq, Gate.Decision.allow.injEq,
        ← CompliantCode.allow_of]
      exact ⟨fun h => congrArg _ h, fun h => CompliantCode.allow_inj h⟩
    · simp [hverdict, hthaw]

theorem mirrors_of_denied (hdeny : ∃ d, ∀ op, Gate.decide rt ctx op = .ok (.deny d)) :
    Mirrors rt ctx policy reads ↔ freezeReason policy reads rt.unixTimestamp = none ∧
      ownerVerdict policy reads (some rt.unixTimestamp) = .unknown := by
  obtain ⟨d, hd⟩ := hdeny
  constructor
  · intro h
    refine ⟨?_, h.unknowns.2 ⟨⟨d, hd .thaw⟩, d, hd .freeze⟩⟩
    cases hreason : freezeReason policy reads rt.unixTimestamp with
    | none => rfl
    | some reason =>
      have hallow := (h.freezes reason).1 hreason
      simp [hd] at hallow
  · rintro ⟨hreason, hverdict⟩
    refine ⟨fun reason => ?_, fun code => ?_, ?_⟩
    · simp [hreason, hd]
    · simp [hverdict, hd]
    · simp [hverdict, hd]

end mirrors

/-- **The keeper mirrors the gate**, for every policy the gate can write, every owner, any content of the
accounts and any time, exactly when it does not skip a blacklist reason that is not UTF-8, or refuses the
owner for another account anyway. -/
theorem mirrors_iff (rt : Gate.Runtime) (p : Gate.GatePolicy) (h : Gate.Holder) (info : AccountInfo)
    (raw : RawAccounts) (offCurve : Pubkey → Bool) (hpolicy : Gate.IsPolicyOf h.mint.key info p)
    (hdata : info.data = Gate.GatePolicy.account.bytes p) (hraw : SeesAll h.accounts raw)
    (hcurve : offCurve h.owner.key = Gate.isOffCurve rt h.owner.key)
    (himmutable : Gate.hasImmutableOwner rt h.tokenAccount = true) :
    ∃ policy reads, decodeGatePolicy info.data = .ok (some policy) ∧
      ownerReads policy h.owner.key (offCurve h.owner.key) raw.blacklist raw.allowlist raw.attestation =
        .ok reads ∧
      (Mirrors rt (h.context p info) policy reads ↔
        (¬(p.checkBlacklist = true ∧
            SkipsReason p.issuerProgram p.mint h.owner.key h.accounts.blacklist) ∨
          BadRead rt p h.owner.key h.accounts)) := by
  have hload := h.context_loads hpolicy
  have hconsults : ((h.context p info).ownerAccounts p).ConsultedAs p h.accounts := h.context_consults
  obtain ⟨reads, hreads, hcases⟩ := ownerReads_cases rt p h.owner.key hraw hcurve
  refine ⟨.of p, reads, hdata ▸ decodeGatePolicy_bytes p, hreads, ?_⟩
  rcases hcases with ⟨facts, hfacts, hsame⟩ | ⟨hbad, hcond, hunknown⟩ | ⟨hskip, hgood, hknown⟩
  · refine iff_of_true ?_ (.inl fun hskip => hfacts.readable (.inl ⟨hskip.1, hskip.2.malformed⟩))
    exact mirrors_of_facts hload (hconsults.symm.gathers hfacts) hsame himmutable
  · have hdeny := Gate.decide_of_unreadable hload (hconsults.unreadable.2 hbad)
    exact iff_of_true ((mirrors_of_denied hdeny).2 hunknown) hcond
  · have hbad : Gate.Unreadable rt p h.owner.key h.accounts := .inl ⟨hskip.1, hskip.2.malformed⟩
    have hdeny := Gate.decide_of_unreadable hload (hconsults.unreadable.2 hbad)
    refine iff_of_false (fun hm => hknown ((mirrors_of_denied hdeny).1 hm).2) ?_
    rintro (hnot | hbad)
    · exact hnot hskip
    · exact hgood hbad

/-- An owner without any account at the entry's and the attestation's address is mirrored. -/
theorem mirrors_iff_absent :
    ∃ policy reads, decodeGatePolicy (Gate.policyAccount Gate.samplePolicy).data = .ok (some policy) ∧
      ownerReads policy (sampleKey 5) false none none none = .ok reads ∧
      Mirrors Gate.sampleRuntime ((Gate.sampleHolder ⟨Gate.absentAccount, Gate.absentAccount,
        Gate.absentAccount⟩).context Gate.samplePolicy (Gate.policyAccount Gate.samplePolicy)) policy reads := by
  obtain ⟨policy, reads, hpolicy, hreads, hiff⟩ := mirrors_iff Gate.sampleRuntime Gate.samplePolicy
    (Gate.sampleHolder ⟨Gate.absentAccount, Gate.absentAccount, Gate.absentAccount⟩)
    (Gate.policyAccount Gate.samplePolicy) ⟨none, none, none⟩ (fun _ => false)
    (Gate.policyAccount_isPolicyOf Gate.samplePolicy) rfl
    ⟨.inr ⟨rfl, rfl⟩, .inr ⟨rfl, rfl⟩, .inr ⟨rfl, rfl⟩⟩ rfl (by decide)
  exact ⟨policy, reads, hpolicy, hreads, hiff.2 (.inl fun hskip => hskip.2.malformed.1 rfl)⟩

/-- An active entry of mint 1 for wallet 5 whose one-byte reason is not UTF-8. -/
def skippedEntry : AccountInfo :=
  ⟨sampleKey 8, sssTokenId, Token.BlacklistEntry.account.discriminator ++ (sampleKey 1).1 ++
    (sampleKey 5).1 ++ [1, 0, 0, 0, 255] ++ List.replicate 40 0 ++ [1, 0]⟩

/-- The keeper takes it for a blacklisted owner's; the gate denies both operations on it. -/
theorem skippedEntry_not_mirrored :
    decodeGatePolicy (Gate.policyAccount Gate.samplePolicy).data = .ok (some (.of Gate.samplePolicy)) ∧
      ownerReads (.of Gate.samplePolicy) (sampleKey 5) false
        (some ⟨skippedEntry.owner, skippedEntry.data⟩) none none =
          .ok ⟨some .active, none, some .missing, false⟩ ∧
      freezeReason (.of Gate.samplePolicy) ⟨some .active, none, some .missing, false⟩ 1000 =
        some .blacklisted ∧
      Gate.decide Gate.sampleRuntime ((Gate.sampleHolder ⟨skippedEntry, Gate.absentAccount,
        Gate.absentAccount⟩).context Gate.samplePolicy (Gate.policyAccount Gate.samplePolicy)) .freeze =
          .ok (.deny .badRegistryEntry) ∧
      Gate.decide Gate.sampleRuntime ((Gate.sampleHolder ⟨skippedEntry, Gate.absentAccount,
        Gate.absentAccount⟩).context Gate.samplePolicy (Gate.policyAccount Gate.samplePolicy)) .thaw =
          .ok (.deny .badRegistryEntry) :=
  ⟨decodeGatePolicy_bytes _, by decide +kernel, by decide +kernel, by decide +kernel, by decide +kernel⟩

end ThawGate.Keeper
