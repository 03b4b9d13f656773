import ThawGate.Lib.LastWrite
import ThawGate.Token.Authority

/-!
# Who was granted what

Roles are in accounts, and no event tells of them; the instructions do. `accountable` traces every privileged
instruction of a run to the grants before it: its signer has the role it asks for by the last word on that role, and
each word on a role was the then master authority's of the same mint, of whom there is one.
-/

namespace ThawGate.Token

open Borsh Exec Function Lts

variable {W : Type} {P : Programs W} {now : Int64} {s s' : State W}

/-! ### Words on roles -/

/-- The role records that an instruction writes, the last one first, and whether it makes them active. -/
def Instruction.grants : Instruction → List (Pda × Bool)
  | .initializeStablecoin x _ => [(x.masterRole, true)]
  | .updateMinter x _ _ _ => [(x.minterRole, true)]
  | .updateRoles x _ _ active => [(x.targetRole, active)]
  | .transferAuthority x _ => [(x.newMasterRole, true), (x.oldMasterRole, false)]
  | _ => []

def Label.grants : Label → List (Pda × Bool)
  | .tx ix _ true => ix.grants
  | _ => []

/-- What an instruction asks of its signer: one of these roles on the mint of this config. -/
structure Demand where
  config : Pda
  signer : Pubkey
  roles : List RoleType

/-- `initialize` anyone may call; `attest_reserves` asks for the attestor, and the confidential-transfer instructions
for the owner of the token account. -/
def Instruction.demand : Instruction → Option Demand
  | .mintTokens x _ => some ⟨x.config, x.minter, [.minter]⟩
  | .burnTokens x _ => some ⟨x.config, x.burner, [.burner]⟩
  | .freezeAccount x | .thawAccount x => some ⟨x.config, x.operator, [.blacklister, .masterAuthority]⟩
  | .pause x | .unpause x => some ⟨x.config, x.operator, [.pauser, .masterAuthority]⟩
  | .updateMinter x _ _ _ => some ⟨x.config, x.authority, [.masterAuthority]⟩
  | .updateRoles x _ _ _ => some ⟨x.config, x.authority, [.masterAuthority]⟩
  | .transferAuthority x _ => some ⟨x.config, x.authority, [.masterAuthority]⟩
  | .addToBlacklist x _ => some ⟨x.config, x.operator, [.blacklister]⟩
  | .removeFromBlacklist x => some ⟨x.config, x.operator, [.blacklister]⟩
  | .seize x => some ⟨x.config, x.seizer, [.seizer]⟩
  | .enableTokenAcl x _ => some ⟨x.config, x.authority, [.masterAuthority]⟩
  | .setReserveAttestor x _ _ => some ⟨x.config, x.authority, [.masterAuthority]⟩
  | .addToAllowlistV3 x => some ⟨x.config, x.authority, [.masterAuthority]⟩
  | .removeFromAllowlistV3 x => some ⟨x.config, x.authority, [.masterAuthority]⟩
  | .initializeStablecoin .. | .attestReserves .. | .configureConfidentialAccount .. | .applyPendingBalance .. => none

/-! ### The records after a run -/

def Ledger.activeRole (l : Ledger) (a : Pda) : Option Bool := (l.roles a).map RoleRecord.active

theorem activeRole_setRole (l : Ledger) (a b : Pda) (r : RoleRecord) :
    (l.setRole b r).activeRole a = ([(b, r.active)].lookup a).or (l.activeRole a) := by
  unfold Ledger.activeRole
  show (update l.roles b (some r) a).map _ = _
  by_cases h : a = b
  · simp [h]
  · rw [update_of_ne h, List.lookup_cons, beq_false_of_ne h]
    rfl

theorem exec_grants {ix : Instruction} (hx : exec P now s ix = ok s') (a : Pda) :
    s'.ledger.activeRole a = (ix.grants.lookup a).or (s.ledger.activeRole a) := by
  have frame := exec_frame hx
  cases ix with
  | initializeStablecoin x args =>
    obtain ⟨-, -, -, _, _, -, -, rfl⟩ := initializeHandler_ok hx
    exact activeRole_setRole _ a _ _
  | updateMinter x minter limit period =>
    obtain ⟨_, _, -, -, -, -, rfl⟩ := handlerUpdateMinter_ok hx
    exact activeRole_setRole _ a _ _
  | updateRoles x holder role active =>
    obtain ⟨_, _, -, -, -, -, rfl⟩ := handlerUpdateRoles_ok hx
    exact activeRole_setRole _ a _ _
  | transferAuthority x newAuthority =>
    obtain ⟨c, r, -, -, -, -, rfl⟩ := handlerTransferAuthority_ok hx
    refine (activeRole_setRole _ a _ _).trans ?_
    rw [activeRole_setRole]
    simp only [Instruction.grants, List.lookup_cons]
    cases a == x.newMasterRole <;> rfl
  | _ =>
    unfold Ledger.activeRole
    rw [frame.roles (by simp [Instruction.writes])]
    rfl

/-- **Run.** A record is active exactly when the last word on it made it so. -/
theorem activeRole_eq_lastWrite {h : List Label} (r : (machine P).Run h s) (a : Pda) :
    s.ledger.activeRole a = lastWrite Label.grants a h := by
  refine r.read_eq_lastWrite (fun s a => s.ledger.activeRole a) ?_ ?_ a
  · intro s hs a
    rw [hs.1]
    rfl
  · intro s e s' _ hs a
    cases hs with
    | succeeded hx => exact exec_grants hx a
    | failed | outside => rfl

theorem hasRole_iff_lastWrite {h : List Label} (r : (machine P).Run h s) {mint holder : Pubkey} {role : RoleType} :
    s.ledger.HasRole P mint holder role ↔ lastWrite Label.grants (P.canonical (.role mint holder role)) h = some true := by
  rw [← activeRole_eq_lastWrite r]
  unfold Ledger.activeRole Ledger.HasRole
  rw [Option.map_eq_some_iff]

/-! ### What the instructions check -/

/-- The signer holds one of the roles. -/
def Demand.Met (d : Demand) (P : Programs W) (l : Ledger) (mint : Pubkey) : Prop :=
  d.config = P.canonical (.config mint) ∧ ∃ role ∈ d.roles, l.HasRole P mint d.signer role

section met

variable {l : Ledger} {config role : Pda} {signer : Pubkey} {kind : RoleType} {e : SssError} {c : StablecoinConfig}
  {r : RoleRecord}

/-- The config and the record of an instruction that asks for one role. -/
theorem met_of_role (hl : l.Authorities P) (hc : configAccount l config = ok c)
    (hr : roleAccount l role c.mint signer kind e = ok r) : Demand.Met ⟨config, signer, [kind]⟩ P l c.mint := by
  obtain ⟨hr, hat, hactive, -⟩ := hl.roleAccount hr
  rw [hat] at hr
  exact ⟨(hl.configAccount hc).2, kind, List.mem_singleton_self kind, r, hr, hactive⟩

/-- The same for the role or the master authority, in whatever record it is. -/
theorem met_of_authorizes (hl : l.Authorities P) (hc : configAccount l config = ok c) (hr : l.roles role = some r)
    (hauth : r.Authorizes kind signer c.mint) : Demand.Met ⟨config, signer, [kind, .masterAuthority]⟩ P l c.mint := by
  refine ⟨(hl.configAccount hc).2, ?_⟩
  rcases hl.hasRole hr hauth with h | h
  · exact ⟨kind, by simp, h⟩
  · exact ⟨.masterAuthority, by simp, h⟩

/-- The allowlist instructions go by the record's address alone. -/
theorem met_of_allowlist (hl : l.Authorities P) (h : allowlistAuthority l config role signer = ok c) :
    Demand.Met ⟨config, signer, [.masterAuthority]⟩ P l c.mint := by
  simp only [allowlistAuthority, checkSeeds, bind_eq_ok, require_eq_ok, account_eq_ok, exists_const, pure_eq,
    Exec.ok.injEq] at h
  obtain ⟨c', hc, -, r, hr, hat, hactive, rfl⟩ := h
  have hrole := hl.role_at hr
  have hseeds : Seeds.role c'.mint signer .masterAuthority = .role r.mint r.holder r.role :=
    congrArg Pda.seeds (hat.symm.trans hrole)
  rw [hrole, ← hseeds] at hr
  exact ⟨(hl.configAccount hc).2, .masterAuthority, by simp, r, hr, hactive⟩

end met

theorem burnHandler_met (hl : s.ledger.Authorities P) {x : BurnTokens} {amount : UInt64}
    (h : burnHandler P now s x amount = ok s') : ∃ mint, Demand.Met ⟨x.config, x.burner, [.burner]⟩ P s.ledger mint := by
  simp only [burnHandler, bind_eq_ok] at h
  obtain ⟨c, hc, -, -, r, hr, -⟩ := h
  exact ⟨c.mint, met_of_role hl hc hr⟩

/-- An instruction that succeeds found its demand met. -/
theorem exec_demand (hl : s.ledger.Authorities P) {ix : Instruction} (hx : exec P now s ix = ok s') {d : Demand}
    (hd : ix.demand = some d) : ∃ mint, d.Met P s.ledger mint := by
  cases ix with
  | initializeStablecoin x args => cases hd
  | attestReserves x reserves asOf reportUri => cases hd
  | configureConfidentialAccount x | applyPendingBalance x => cases hd
  | mintTokens x amount =>
    obtain rfl := Option.some.inj hd
    obtain ⟨c, q, m, hm⟩ := mintHandler_ok hx
    obtain ⟨r, hr⟩ := hm.minterRole
    exact ⟨c.mint, met_of_role hl hm.config hr⟩
  | burnTokens x amount =>
    obtain rfl := Option.some.inj hd
    exact burnHandler_met hl hx
  | freezeAccount x | thawAccount x =>
    obtain rfl := Option.some.inj hd
    obtain ⟨c, r, _, _, _, _, hc, hr, hauth, -⟩ := handlerFreezeOrThaw_ok hx
    exact ⟨c.mint, met_of_authorizes hl hc hr hauth⟩
  | pause x | unpause x =>
    obtain rfl := Option.some.inj hd
    obtain ⟨c, _, r, _, hc, -, -, -, hr, hauth, -⟩ := handlerSetPaused_ok hx
    exact ⟨c.mint, met_of_authorizes hl hc hr hauth⟩
  | updateMinter x minter limit period =>
    obtain rfl := Option.some.inj hd
    obtain ⟨c, r, hc, hr, -⟩ := handlerUpdateMinter_ok hx
    exact ⟨c.mint, met_of_role hl hc hr⟩
  | updateRoles x holder role active =>
    obtain rfl := Option.some.inj hd
    obtain ⟨c, r, hc, hr, -⟩ := handlerUpdateRoles_ok hx
    exact ⟨c.mint, met_of_role hl hc hr⟩
  | transferAuthority x newAuthority =>
    obtain rfl := Option.some.inj hd
    obtain ⟨c, r, hc, hr, -⟩ := handlerTransferAuthority_ok hx
    exact ⟨c.mint, met_of_role hl hc hr⟩
  | addToBlacklist x reason =>
    obtain rfl := Option.some.inj hd
    obtain ⟨c, r, _, _, hc, hr, -⟩ := handlerAddToBlacklist_ok hx
    exact ⟨c.mint, met_of_role hl hc hr⟩
  | removeFromBlacklist x =>
    obtain rfl := Option.some.inj hd
    obtain ⟨c, r, _, hc, hr, -⟩ := handlerRemoveFromBlacklist_ok hx
    exact ⟨c.mint, met_of_role hl hc hr⟩
  | seize x =>
    obtain rfl := Option.some.inj hd
    obtain ⟨c, m, t, p, w₁, w₂, hz⟩ := seizeHandler_ok hx
    obtain ⟨r, hr⟩ := hz.seizerRole
    exact ⟨c.mint, met_of_role hl hz.config hr⟩
  | enableTokenAcl x policy =>
    obtain rfl := Option.some.inj hd
    obtain ⟨c, r, _, hc, -, hr, -⟩ := enableTokenAclHandler_ok hx
    exact ⟨c.mint, met_of_role hl hc hr⟩
  | setReserveAttestor x attestor maxStaleness =>
    obtain rfl := Option.some.inj hd
    obtain ⟨c, r, _, _, hc, -, hr, -⟩ := setReserveAttestorHandler_ok hx
    exact ⟨c.mint, met_of_role hl hc hr⟩
  | addToAllowlistV3 x =>
    obtain rfl := Option.some.inj hd
    obtain ⟨c, _, hc, -⟩ := addToAllowlistHandler_ok hx
    exact ⟨c.mint, met_of_allowlist hl hc⟩
  | removeFromAllowlistV3 x =>
    obtain rfl := Option.some.inj hd
    obtain ⟨c, _, hc, -⟩ := removeFromAllowlistHandler_ok hx
    exact ⟨c.mint, met_of_allowlist hl hc⟩

/-- A word on a role is its mint's master authority's, or it is the first one for the mint. -/
theorem exec_word (hl : s.ledger.Authorities P) {ix : Instruction} (hx : exec P now s ix = ok s') {a : Pda} {v : Bool}
    (ha : (a, v) ∈ ix.grants) : ∃ mint holder role, a = P.canonical (.role mint holder role) ∧
      ((∃ signer, ix.demand = some ⟨P.canonical (.config mint), signer, [.masterAuthority]⟩) ∨
        role = .masterAuthority ∧ v = true ∧ s.ledger.configs (P.canonical (.config mint)) = none) := by
  cases ix with
  | initializeStablecoin x args =>
    obtain ⟨⟨hconfig, hvacant⟩, -, ⟨hmaster, -⟩, -⟩ := initializeHandler_ok hx
    obtain ⟨rfl, rfl⟩ := Prod.mk.inj (List.mem_singleton.1 ha)
    refine ⟨x.mint, x.authority, .masterAuthority, hmaster, .inr ⟨rfl, rfl, ?_⟩⟩
    rw [← hconfig]
    exact Ledger.configs_of_vacant hvacant
  | updateMinter x minter limit period =>
    obtain ⟨c, _, hc, -, hrole, -⟩ := handlerUpdateMinter_ok hx
    obtain ⟨rfl, rfl⟩ := Prod.mk.inj (List.mem_singleton.1 ha)
    exact ⟨c.mint, minter, .minter, hrole, .inl ⟨x.authority, by rw [← (hl.configAccount hc).2]; rfl⟩⟩
  | updateRoles x holder role active =>
    obtain ⟨c, _, hc, -, hrole, -⟩ := handlerUpdateRoles_ok hx
    obtain ⟨rfl, rfl⟩ := Prod.mk.inj (List.mem_singleton.1 ha)
    exact ⟨c.mint, holder, role, hrole, .inl ⟨x.authority, by rw [← (hl.configAccount hc).2]; rfl⟩⟩
  | transferAuthority x newAuthority =>
    obtain ⟨c, r, hc, hr, hnew, -⟩ := handlerTransferAuthority_ok hx
    have hconfig := (hl.configAccount hc).2
    have hold := (hl.roleAccount hr).2.1
    have hdemand : ∃ signer, (Instruction.transferAuthority x newAuthority).demand =
        some ⟨P.canonical (.config c.mint), signer, [.masterAuthority]⟩ := ⟨x.authority, by rw [← hconfig]; rfl⟩
    rcases List.mem_cons.1 ha with ha | ha
    · obtain ⟨rfl, rfl⟩ := Prod.mk.inj ha
      exact ⟨c.mint, newAuthority, .masterAuthority, hnew, .inl hdemand⟩
    · obtain ⟨rfl, rfl⟩ := Prod.mk.inj (List.mem_singleton.1 ha)
      exact ⟨c.mint, x.authority, .masterAuthority, hold, .inl hdemand⟩
  | _ => cases ha

/-- Before a mint has a config, there is no word on a role of it. -/
theorem lastWrite_of_unconfigured {h : List Label} (r : (machine P).Run h s) {mint : Pubkey}
    (hnone : s.ledger.configs (P.canonical (.config mint)) = none) (holder : Pubkey) (role : RoleType) :
    lastWrite Label.grants (P.canonical (.role mint holder role)) h = none := by
  have hl := Ledger.Authorities.of_reachable r.reachable
  rw [← activeRole_eq_lastWrite r, Ledger.activeRole, Option.map_eq_none_iff]
  cases hr : s.ledger.roles (P.canonical (.role mint holder role)) with
  | none => rfl
  | some record =>
    obtain ⟨c, hc⟩ := hl.configured hr
    have hmint := (Seeds.role.inj (congrArg Pda.seeds (hl.role_at hr))).1
    rw [← hmint, hnone] at hc
    cases hc

theorem master_unique {h : List Label} (r : (machine P).Run h s) {mint k k' : Pubkey}
    (hk : lastWrite Label.grants (P.canonical (.role mint k .masterAuthority)) h = some true)
    (hk' : lastWrite Label.grants (P.canonical (.role mint k' .masterAuthority)) h = some true) : k = k' := by
  have hl := Ledger.Authorities.of_reachable r.reachable
  obtain ⟨q, hq, hactive⟩ := (hasRole_iff_lastWrite r).2 hk
  obtain ⟨q', hq', hactive'⟩ := (hasRole_iff_lastWrite r).2 hk'
  obtain ⟨hmint, hholder, hrole⟩ := Seeds.role.inj (congrArg Pda.seeds (hl.role_at hq))
  obtain ⟨hmint', hholder', hrole'⟩ := Seeds.role.inj (congrArg Pda.seeds (hl.role_at hq'))
  obtain ⟨c, hc⟩ := hl.configured hq
  have hcmint : c.mint = q.mint := (Seeds.config.inj (congrArg Pda.seeds (hl.config_at hc))).symm
  rw [hholder, hholder', hl.holder hq hrole.symm hactive hc hcmint,
    hl.holder hq' hrole'.symm hactive' hc (by rw [hcmint, ← hmint, hmint'])]

/-- **Accountability.** Wherever a privileged instruction succeeded in a run, the last word on a role it asks for had
given that role on its mint to its signer. Whoever had a word on a role of a mint was its master authority, but for
the first word, which is `initialize`'s. And at any time there is one master authority of a mint at most. -/
theorem accountable {h₁ h₂ : List Label} {ix : Instruction} (r : (machine P).Run (h₂ ++ .tx ix now true :: h₁) s) :
    (∀ d, ix.demand = some d → ∃ mint, d.config = P.canonical (.config mint) ∧ ∃ role ∈ d.roles,
      lastWrite Label.grants (P.canonical (.role mint d.signer role)) h₁ = some true) ∧
    (∀ a v, (a, v) ∈ ix.grants → ∃ mint holder role, a = P.canonical (.role mint holder role) ∧
      ((∃ signer, ix.demand = some ⟨P.canonical (.config mint), signer, [.masterAuthority]⟩) ∨
        role = .masterAuthority ∧ v = true ∧
          ∀ k kind, lastWrite Label.grants (P.canonical (.role mint k kind)) h₁ = none)) ∧
    ∀ mint k k', lastWrite Label.grants (P.canonical (.role mint k .masterAuthority)) h₁ = some true →
      lastWrite Label.grants (P.canonical (.role mint k' .masterAuthority)) h₁ = some true → k = k' := by
  obtain ⟨s₁, s₂, r₁, hs, -⟩ := r.between
  have hl := Ledger.Authorities.of_reachable r₁.reachable
  have hx : exec P now s₁ ix = ok s₂ := by
    cases hs with
    | succeeded hx => exact hx
  refine ⟨?_, ?_, fun mint k k' hk hk' => master_unique r₁ hk hk'⟩
  · intro d hd
    obtain ⟨mint, hconfig, role, hrole, hholds⟩ := exec_demand hl hx hd
    exact ⟨mint, hconfig, role, hrole, (hasRole_iff_lastWrite r₁).1 hholds⟩
  · intro a v ha
    obtain ⟨mint, holder, role, hat, hby⟩ := exec_word hl hx ha
    refine ⟨mint, holder, role, hat, hby.imp_right fun ⟨hrole, hv, hnone⟩ => ⟨hrole, hv, ?_⟩⟩
    exact lastWrite_of_unconfigured r₁ hnone

/-- Key 3, whom key 1 made a pauser before handing mint 2 over, pauses it. -/
theorem accountable_pause : ∃ h₁ s, (machine bank).Run (.tx (.pause pauseSample) 40 true :: h₁) s ∧
    ∃ role ∈ [RoleType.pauser, .masterAuthority],
      lastWrite Label.grants (bank.canonical (.role (sampleKey 2) (sampleKey 3) role)) h₁ = some true := by
  obtain ⟨h₁, r₁⟩ : (machine bank).Reachable (execAll bank sampleStart handoverSample) :=
    execAll_reachable sampleStart_reachable
  have hok : (exec bank 40 (execAll bank sampleStart handoverSample) (.pause pauseSample)).isOk := by decide +kernel
  obtain ⟨s', hx⟩ := Exec.isOk_iff.1 hok
  have r : (machine bank).Run ([] ++ .tx (.pause pauseSample) 40 true :: h₁) s' := r₁.step (.succeeded hx)
  obtain ⟨mint, hconfig, hholds⟩ := (accountable r).1 _ rfl
  obtain rfl : sampleKey 2 = mint := Seeds.config.inj (congrArg Pda.seeds hconfig)
  exact ⟨h₁, s', r, hholds⟩

end ThawGate.Token
