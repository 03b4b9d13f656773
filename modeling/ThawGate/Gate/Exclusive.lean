import ThawGate.Gate.Decide

/-!
# Thaw and freeze are exclusive, and fail closed

For every account list and every clock value the handler decides both operations without a panic,
never allows both, denies both when it cannot read what the policy consults, and otherwise freezes
exactly the flagged owners.
-/

namespace ThawGate.Gate

section loaded

variable {rt : Runtime} {ctx : CanGate} {policy : GatePolicy}

/-- On readable accounts a freeze passes exactly for a flagged owner, and a thaw exactly for an
unflagged one with an ImmutableOwner account. -/
theorem decide_of_readable (hload : ctx.Loads policy)
    (hread : ¬Unreadable rt policy ctx.owner.key (ctx.ownerAccounts policy)) :
    ∃ thaw freeze, decide rt ctx .thaw = .ok thaw ∧ decide rt ctx .freeze = .ok freeze ∧
      (freeze.Allowed ↔ Flagged rt policy ctx.owner.key (ctx.ownerAccounts policy)) ∧
      (thaw.Allowed ↔ hasImmutableOwner rt ctx.tokenAccount = true ∧
        ¬Flagged rt policy ctx.owner.key (ctx.ownerAccounts policy)) := by
  obtain ⟨facts, hfacts⟩ | hbad :=
    gathers_or_unreadable rt policy ctx.owner.key (ctx.ownerAccounts policy)
  swap
  · exact absurd hbad hread
  refine ⟨_, _, decide_of_gathers hload hfacts .thaw, decide_of_gathers hload hfacts .freeze, ?_, ?_⟩
  · rw [evaluate_freeze_iff, ← hfacts.flagged_iff]
    rfl
  · rw [evaluate_thaw_iff, ← hfacts.flagged_iff]
    rfl

end loaded

/-- **Exclusive and fail-closed**: `decide` never panics and never allows both operations. Without this
mint's policy account, on a list shorter than the policy's layout, or with a malformed account among
those it reads, both are denied. Otherwise a freeze is allowed exactly when the policy flags the owner,
and with an ImmutableOwner account exactly one of the two is. -/
theorem decide_exclusive (rt : Runtime) (ctx : CanGate) :
    ∃ thaw freeze, decide rt ctx .thaw = .ok thaw ∧ decide rt ctx .freeze = .ok freeze ∧
      ¬(thaw.Allowed ∧ freeze.Allowed) ∧
      ((∀ policy, ¬ctx.Loads policy) → thaw.Denied ∧ freeze.Denied) ∧
      ∀ policy, ctx.Loads policy →
        (Unreadable rt policy ctx.owner.key (ctx.ownerAccounts policy) → thaw.Denied ∧ freeze.Denied) ∧
        (¬Unreadable rt policy ctx.owner.key (ctx.ownerAccounts policy) →
          (freeze.Allowed ↔ Flagged rt policy ctx.owner.key (ctx.ownerAccounts policy)) ∧
          (hasImmutableOwner rt ctx.tokenAccount = true → (thaw.Allowed ↔ ¬freeze.Allowed))) := by
  by_cases hload : ∃ policy, ctx.Loads policy
  swap
  · obtain ⟨d, hd⟩ := decide_of_not_loads rt (not_exists.1 hload)
    refine ⟨_, _, hd .thaw, hd .freeze, by simp [Decision.Allowed], fun _ => ⟨⟨d, rfl⟩, d, rfl⟩, ?_⟩
    exact fun policy hpolicy => absurd ⟨policy, hpolicy⟩ hload
  obtain ⟨policy, hload⟩ := hload
  have hunique : ∀ policy', ctx.Loads policy' → policy' = policy := by
    intro policy' hload'
    obtain ⟨info, hinfo, hpolicy⟩ := hload.found
    obtain ⟨info', hinfo', hpolicy'⟩ := hload'.found
    obtain rfl := Option.some.inj (hinfo'.symm.trans hinfo)
    exact Option.some.inj
      ((loadPolicy_eq_some.2 hpolicy').symm.trans (loadPolicy_eq_some.2 hpolicy))
  by_cases hread : Unreadable rt policy ctx.owner.key (ctx.ownerAccounts policy)
  · obtain ⟨d, hd⟩ := decide_of_unreadable hload hread
    refine ⟨_, _, hd .thaw, hd .freeze, by simp [Decision.Allowed], fun _ => ⟨⟨d, rfl⟩, d, rfl⟩, ?_⟩
    intro policy' hload'
    obtain rfl := hunique policy' hload'
    exact ⟨fun _ => ⟨⟨d, rfl⟩, d, rfl⟩, fun hreadable => absurd hread hreadable⟩
  · obtain ⟨thaw, freeze, hthaw, hfreeze, hfreeze_iff, hthaw_iff⟩ := decide_of_readable hload hread
    refine ⟨thaw, freeze, hthaw, hfreeze, ?_, fun hnone => absurd hload (hnone policy), ?_⟩
    · rintro ⟨ht, hf⟩
      exact (hthaw_iff.1 ht).2 (hfreeze_iff.1 hf)
    · intro policy' hload'
      obtain rfl := hunique policy' hload'
      refine ⟨fun hbad => absurd hbad hread, fun _ => ⟨hfreeze_iff, fun himmutable => ?_⟩⟩
      rw [hthaw_iff, hfreeze_iff]
      exact and_iff_right himmutable

end ThawGate.Gate
