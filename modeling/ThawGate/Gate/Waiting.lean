import ThawGate.Gate.Holder

/-!
# Waiting

The same accounts decided on at two clock values. Time only moves an attestation past its expiry, and an
expired attestation is a flag: whatever is freezable stays so, and nothing becomes thawable by waiting.
-/

namespace ThawGate.Gate

theorem Attestation.Expired.mono {a : Attestation} {now later : Int64} (h : a.Expired now) (hle : now ≤ later) :
    a.Expired later :=
  ⟨h.1, Int64.lt_of_lt_of_le h.2 hle⟩

section credential

variable {policy : GatePolicy} {owner : Pubkey} {now later : Int64} {info : AccountInfo}

/-- An account that is malformed later was so before: the check of the data byte comes after the expiry. -/
theorem Sas.Malformed.anti (h : Sas.Malformed policy owner later info) (hle : now ≤ later) :
    Sas.Malformed policy owner now info := by
  obtain ⟨hempty, hbad⟩ := h
  refine ⟨hempty, fun a ha => ?_⟩
  obtain ⟨hlive, hlevel⟩ := hbad a ha
  exact ⟨fun hexp => hlive (hexp.mono hle), hlevel⟩

/-- A credential that is no good stays no good; one that was too low may have expired meanwhile. -/
theorem Sas.says_mono {c : Credential} (h : Sas.Says policy owner now info c) (hc : c ≠ .valid)
    (hle : now ≤ later) : ∃ c', Sas.Says policy owner later info c' ∧ c' ≠ .valid := by
  cases c with
  | missing => exact ⟨.missing, h, hc⟩
  | expired =>
    obtain ⟨hempty, a, ha, hexp⟩ := h
    exact ⟨.expired, ⟨hempty, a, ha, hexp.mono hle⟩, by simp⟩
  | levelTooLow =>
    obtain ⟨hempty, a, ha, -, hlevel⟩ := h
    by_cases hexp : a.Expired later
    · exact ⟨.expired, ⟨hempty, a, ha, hexp⟩, by simp⟩
    · exact ⟨.levelTooLow, ⟨hempty, a, ha, hexp, hlevel⟩, hc⟩
  | valid => exact absurd rfl hc

/-- What was malformed before still is, or its expiry has passed. -/
theorem Sas.Malformed.still_or_expired (h : Sas.Malformed policy owner now info) (later : Int64) :
    Sas.Malformed policy owner later info ∨ Sas.Says policy owner later info .expired := by
  obtain ⟨hempty, hbad⟩ := h
  by_cases hexp : ∃ a, Attestation.Holds policy owner info a ∧ a.Expired later
  · exact .inr ⟨hempty, hexp⟩
  · refine .inl ⟨hempty, fun a ha => ⟨fun hlate => hexp ⟨a, ha, hlate⟩, (hbad a ha).2⟩⟩

end credential

section judged

variable {rt : Runtime} {policy : GatePolicy} {owner : Pubkey} {r : OwnerAccounts} {now later : Int64}

theorem Unreadable.anti (h : Unreadable (rt.atTime later) policy owner r) (hle : now ≤ later) :
    Unreadable (rt.atTime now) policy owner r := by
  obtain hbad | hbad | ⟨hread, hbad⟩ := h
  · exact .inl hbad
  · exact .inr (.inl hbad)
  · exact .inr (.inr ⟨hread, hbad.anti hle⟩)

theorem Flagged.mono (h : Flagged (rt.atTime now) policy owner r) (hle : now ≤ later) :
    Flagged (rt.atTime later) policy owner r := by
  obtain hflag | hflag | ⟨hread, c, hsays, hc⟩ := h
  · exact .inl hflag
  · exact .inr (.inl hflag)
  · exact .inr (.inr ⟨hread, Sas.says_mono hsays hc hle⟩)

/-- What could not be read before still cannot, or the owner is flagged now. -/
theorem Unreadable.still_or_flagged (h : Unreadable (rt.atTime now) policy owner r) (later : Int64) :
    Unreadable (rt.atTime later) policy owner r ∨ Flagged (rt.atTime later) policy owner r := by
  obtain hbad | hbad | ⟨hread, hbad⟩ := h
  · exact .inl (.inl hbad)
  · exact .inl (.inr (.inl hbad))
  · obtain hstill | hexp := hbad.still_or_expired later
    · exact .inl (.inr (.inr ⟨hread, hstill⟩))
    · exact .inr (.inr (.inr ⟨hread, .expired, hexp, by simp⟩))

end judged

/-! ### The decisions -/

/-- `decide` allows this operation. -/
def Allows (rt : Runtime) (ctx : CanGate) (op : Op) : Prop := ∃ a, decide rt ctx op = .ok (.allow a)

section allowed

variable {rt : Runtime} {ctx : CanGate} {policy : GatePolicy} {op : Op}

theorem allows_iff_of_decided {d : Decision} (h : decide rt ctx op = .ok d) : Allows rt ctx op ↔ d.Allowed := by
  rw [Allows, h]
  constructor
  · rintro ⟨a, ha⟩
    exact ⟨a, Exec.ok.inj ha⟩
  · rintro ⟨a, rfl⟩
    exact ⟨a, rfl⟩

theorem not_allows_of_denied {d : Deny} (h : decide rt ctx op = .ok (.deny d)) : ¬Allows rt ctx op := by
  rw [allows_iff_of_decided h]
  rintro ⟨a, ha⟩
  cases ha

/-- An allowed operation has found the policy, in a complete list, and could read every account. -/
theorem Allows.readable (h : Allows rt ctx op) :
    ∃ policy, ctx.Loads policy ∧ ¬Unreadable rt policy ctx.owner.key (ctx.ownerAccounts policy) := by
  by_cases hload : ∃ policy, ctx.Loads policy
  swap
  · obtain ⟨d, hd⟩ := decide_of_not_loads rt (not_exists.1 hload)
    exact absurd h (not_allows_of_denied (hd op))
  obtain ⟨policy, hload⟩ := hload
  refine ⟨policy, hload, fun hbad => ?_⟩
  obtain ⟨d, hd⟩ := decide_of_unreadable hload hbad
  exact not_allows_of_denied (hd op) h

theorem allows_freeze_iff (hload : ctx.Loads policy)
    (hread : ¬Unreadable rt policy ctx.owner.key (ctx.ownerAccounts policy)) :
    Allows rt ctx .freeze ↔ Flagged rt policy ctx.owner.key (ctx.ownerAccounts policy) := by
  obtain ⟨_, freeze, -, hfreeze, hiff, -⟩ := decide_of_readable hload hread
  rw [allows_iff_of_decided hfreeze, hiff]

theorem allows_thaw_iff (hload : ctx.Loads policy)
    (hread : ¬Unreadable rt policy ctx.owner.key (ctx.ownerAccounts policy)) :
    Allows rt ctx .thaw ↔ hasImmutableOwner rt ctx.tokenAccount = true ∧
      ¬Flagged rt policy ctx.owner.key (ctx.ownerAccounts policy) := by
  obtain ⟨thaw, _, hthaw, -, -, hiff⟩ := decide_of_readable hload hread
  rw [allows_iff_of_decided hthaw, hiff]

end allowed

/-- **Time only tightens**: on the same accounts, a freeze that passes now passes at every later clock value, and
a thaw that passes later passes now. -/
theorem decide_monotone (rt : Runtime) (ctx : CanGate) {now later : Int64} (h : now ≤ later) :
    ((∃ a, decide (rt.atTime now) ctx .freeze = .ok (.allow a)) →
        ∃ a, decide (rt.atTime later) ctx .freeze = .ok (.allow a)) ∧
      ((∃ a, decide (rt.atTime later) ctx .thaw = .ok (.allow a)) →
        ∃ a, decide (rt.atTime now) ctx .thaw = .ok (.allow a)) := by
  change (Allows (rt.atTime now) ctx .freeze → Allows (rt.atTime later) ctx .freeze) ∧
    (Allows (rt.atTime later) ctx .thaw → Allows (rt.atTime now) ctx .thaw)
  constructor
  · intro hfreeze
    obtain ⟨policy, hload, hread⟩ := hfreeze.readable
    have hflag := (allows_freeze_iff hload hread).1 hfreeze
    exact (allows_freeze_iff hload fun hbad => hread (hbad.anti h)).2 (hflag.mono h)
  · intro hthaw
    obtain ⟨policy, hload, hread⟩ := hthaw.readable
    obtain ⟨himmutable, hflag⟩ := (allows_thaw_iff hload hread).1 hthaw
    have hbefore : ¬Unreadable (rt.atTime now) policy ctx.owner.key (ctx.ownerAccounts policy) := by
      intro hbad
      obtain hstill | hflagged := hbad.still_or_flagged later
      · exact hread hstill
      · exact hflag hflagged
    exact (allows_thaw_iff hload hbefore).2 ⟨himmutable, fun hflagged => hflag (hflagged.mono h)⟩

/-- The credential of wallet 5 under mint 1's policy, level 2, with this expiry. -/
def sampleCredential (expiry : Int64) : AccountInfo :=
  ⟨sampleKey 8, sasId, Attestation.account.bytes
    ⟨sampleKey 5, sampleKey 3, sampleKey 4, ⟨[2], by decide⟩, sampleKey 6, expiry⟩⟩

/-- Mint 1's gate called for wallet 5, whose credential expires after 1000. -/
def sampleWaiting : CanGate :=
  (sampleHolder ⟨absentAccount, absentAccount, sampleCredential 1000⟩).context samplePolicy
    (policyAccount samplePolicy)

theorem decide_monotone_sample :
    (∃ a, decide (sampleRuntime.atTime 2000) sampleWaiting .freeze = .ok (.allow a)) ∧
      ∃ a, decide (sampleRuntime.atTime 0) sampleWaiting .thaw = .ok (.allow a) :=
  ⟨(@decide_monotone sampleRuntime sampleWaiting 1001 2000 (by decide)).1
      ⟨.credentialExpired, by decide +kernel⟩,
    (@decide_monotone sampleRuntime sampleWaiting 0 1000 (by decide)).2 ⟨.kyc, by decide +kernel⟩⟩

end ThawGate.Gate
