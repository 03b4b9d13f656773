import ThawGate.Token.Machine

/-!
# Who holds authority

`Ledger.Authorities` is the invariant: a config and a role record live where their own fields say,
no record exists for a mint without a config, and the records that are active master authorities of a
mint are its config's authority and nobody else.

A record can be written at an address only by instructions that derive the address from the fields
they write, so the first two hold. The third is lost only where a record of the role
`MasterAuthority` or a config's authority is written: `initialize` writes both for a mint that had
neither, `update_roles` refuses the role, and `transfer_authority` clears the signer's record, sets
another one and names its holder in the config. It refuses a record that is active, so the two are
different records, even when the key held the authority before or is the signer's own.
-/

namespace ThawGate.Token

open Exec Function

variable {W : Type} {P : Programs W} {now : Int64} {s s' : State W} {l l' : Ledger}

structure Ledger.Authorities (P : Programs W) (l : Ledger) : Prop where
  config_at : ∀ {a c}, l.configs a = some c → a = P.canonical (.config c.mint)
  role_at : ∀ {a r}, l.roles a = some r → a = P.canonical (.role r.mint r.holder r.role)
  configured : ∀ {a r}, l.roles a = some r → ∃ c, l.configs (P.canonical (.config r.mint)) = some c
  master : ∀ {a c}, l.configs a = some c →
    ∃ r, l.roles (P.canonical (.role c.mint c.authority .masterAuthority)) = some r ∧ r.active
  holder : ∀ {a r b c}, l.roles a = some r → r.role = .masterAuthority → r.active →
    l.configs b = some c → c.mint = r.mint → r.holder = c.authority

/-- `holder` has the role on the mint: the record at the derived address is there and active. -/
def Ledger.HasRole (P : Programs W) (l : Ledger) (mint holder : Pubkey) (role : RoleType) : Prop :=
  ∃ r, l.roles (P.canonical (.role mint holder role)) = some r ∧ r.active

/-- The account at `a` is an active master authority record of the mint. -/
structure Ledger.IsMaster (l : Ledger) (mint : Pubkey) (a : Pda) (r : RoleRecord) : Prop where
  account : l.roles a = some r
  mint : r.mint = mint
  role : r.role = .masterAuthority
  active : r.active

namespace Ledger.Authorities

theorem empty : (Ledger.empty).Authorities P where
  config_at h := by contradiction
  role_at h := by contradiction
  configured h := by contradiction
  master h := by contradiction
  holder h := by contradiction

/-! ### What the invariant says of accounts that passed their constraints -/

theorem configAccount (hl : l.Authorities P) {a : Pda} {c : StablecoinConfig} (h : configAccount l a = ok c) :
    l.configs a = some c ∧ a = P.canonical (.config c.mint) :=
  have hc := (configAccount_eq_ok.1 h).1
  ⟨hc, hl.config_at hc⟩

theorem roleAccount (hl : l.Authorities P) {a : Pda} {mint holder : Pubkey} {role : RoleType} {e : SssError}
    {r : RoleRecord} (h : roleAccount l a mint holder role e = ok r) :
    l.roles a = some r ∧ a = P.canonical (.role mint holder role) ∧ r.active ∧
      r.mint = mint ∧ r.holder = holder ∧ r.role = role := by
  obtain ⟨hr, ha, hactive, hrole⟩ := roleAccount_eq_ok.1 h
  have hat := hl.role_at hr
  have hseeds : Seeds.role mint holder role = .role r.mint r.holder r.role := congrArg Pda.seeds (ha.symm.trans hat)
  rw [hseeds]
  injection hseeds with hmint hholder _
  exact ⟨hr, hat, hactive, hmint.symm, hholder.symm, hrole⟩

/-- The config of a mint is the one at the derived address. -/
theorem config_unique (hl : l.Authorities P) {a b : Pda} {c d : StablecoinConfig} (hc : l.configs a = some c)
    (hd : l.configs b = some d) (h : c.mint = d.mint) : a = b ∧ c = d := by
  have hab : a = b := by rw [hl.config_at hc, hl.config_at hd, h]
  subst hab
  exact ⟨rfl, Option.some.inj (hc.symm.trans hd)⟩

/-! ### What one instruction preserves -/

theorem of_same (hl : l.Authorities P) (h : l.SameAuthority l') : l'.Authorities P := by
  have back {a : Pda} {c' : StablecoinConfig} (hc' : l'.configs a = some c') :
      ∃ c, l.configs a = some c ∧ c.mint = c'.mint ∧ c.authority = c'.authority := by
    obtain ⟨c, hc, hfixed⟩ := h.config_before hc'
    have hm : c.fixed.mint = c'.fixed.mint := by rw [hfixed]
    have ha : c.fixed.authority = c'.fixed.authority := by rw [hfixed]
    exact ⟨c, hc, hm, ha⟩
  have hr := h.roles
  refine ⟨?_, ?_, ?_, ?_, ?_⟩
  · intro a c' hc'
    obtain ⟨c, hc, hm, -⟩ := back hc'
    rw [hl.config_at hc, hm]
  · intro a r h
    rw [hr] at h
    exact hl.role_at h
  · intro a r hrole
    rw [hr] at hrole
    obtain ⟨c, hc⟩ := hl.configured hrole
    have hmap := h.configs (P.canonical (.config r.mint))
    rw [hc, Option.map_some] at hmap
    obtain ⟨c', hc', -⟩ := Option.map_eq_some_iff.1 hmap
    exact ⟨c', hc'⟩
  · intro a c' hc'
    obtain ⟨c, hc, hm, ha⟩ := back hc'
    rw [hr, ← hm, ← ha]
    exact hl.master hc
  · intro a r b c' hrole hmaster hactive hc' hmint
    rw [hr] at hrole
    obtain ⟨c, hc, hm, ha⟩ := back hc'
    rw [← ha]
    exact hl.holder hrole hmaster hactive hc (hm.trans hmint)

/-- Writing a record of another role than the master's, at the address its fields derive. -/
theorem setRole (hl : l.Authorities P) {a : Pda} {r : RoleRecord} {c : StablecoinConfig}
    (ha : a = P.canonical (.role r.mint r.holder r.role)) (hrole : r.role ≠ .masterAuthority)
    (hc : l.configs (P.canonical (.config r.mint)) = some c) : (l.setRole a r).Authorities P where
  config_at h := hl.config_at h
  role_at := by
    intro b r' h
    obtain ⟨hb, rfl⟩ | ⟨-, h⟩ := update_eq_some.1 h
    · exact hb.trans ha
    · exact hl.role_at h
  configured := by
    intro b r' h
    obtain ⟨-, rfl⟩ | ⟨-, h⟩ := update_eq_some.1 h
    · exact ⟨c, hc⟩
    · exact hl.configured h
  master := by
    intro b d hd
    obtain ⟨r', hr', hactive⟩ := hl.master hd
    refine ⟨r', update_eq_some.2 (.inr ⟨?_, hr'⟩), hactive⟩
    rw [ha, ne_eq, P.canonical_inj]
    intro h
    injection h with _ _ h
    exact hrole h.symm
  holder := by
    intro b r' b' d h hmaster hactive hd hmint
    obtain ⟨-, rfl⟩ | ⟨-, h⟩ := update_eq_some.1 h
    · contradiction
    · exact hl.holder h hmaster hactive hd hmint

/-- A mint's first config and record. Neither address had an account, so the mint had no config and
no record. -/
theorem initializeMint (hl : l.Authorities P) {a b : Pda} {c : StablecoinConfig} {r : RoleRecord}
    (ha : a = P.canonical (.config c.mint)) (hvacant : l.configs a = none)
    (hb : b = P.canonical (.role c.mint c.authority .masterAuthority)) (hmint : r.mint = c.mint)
    (hholder : r.holder = c.authority) (hrole : r.role = .masterAuthority) (hactive : r.active) :
    ((l.setConfig a c).setRole b r).Authorities P := by
  have fresh {b' : Pda} {r' : RoleRecord} (h : l.roles b' = some r') : r'.mint ≠ c.mint := by
    intro hm
    obtain ⟨d, hd⟩ := hl.configured h
    rw [hm, ← ha, hvacant] at hd
    contradiction
  refine ⟨?_, ?_, ?_, ?_, ?_⟩
  · intro a' c' h
    obtain ⟨ha', rfl⟩ | ⟨-, h⟩ := update_eq_some.1 h
    · exact ha'.trans ha
    · exact hl.config_at h
  · intro b' r' h
    obtain ⟨hb', rfl⟩ | ⟨-, h⟩ := update_eq_some.1 h
    · rw [hb', hb, hmint, hholder, hrole]
    · exact hl.role_at h
  · intro b' r' h
    obtain ⟨-, rfl⟩ | ⟨-, h⟩ := update_eq_some.1 h
    · exact ⟨c, update_eq_some.2 (.inl ⟨by rw [hmint, ha], rfl⟩)⟩
    · obtain ⟨d, hd⟩ := hl.configured h
      refine ⟨d, update_eq_some.2 (.inr ⟨?_, hd⟩)⟩
      intro heq
      rw [heq, hvacant] at hd
      contradiction
  · intro a' c' h
    obtain ⟨-, rfl⟩ | ⟨ha', h⟩ := update_eq_some.1 h
    · exact ⟨r, update_eq_some.2 (.inl ⟨hb.symm, rfl⟩), hactive⟩
    · obtain ⟨r', hr', hactive'⟩ := hl.master h
      refine ⟨r', update_eq_some.2 (.inr ⟨?_, hr'⟩), hactive'⟩
      rw [hb, ne_eq, P.canonical_inj]
      intro heq
      injection heq with hm _ _
      exact ha' (by rw [hl.config_at h, hm, ha])
  · intro b' r' a' c' h hmaster' hactive' hc' hm
    obtain ⟨-, rfl⟩ | ⟨-, h⟩ := update_eq_some.1 h
    · obtain ⟨-, rfl⟩ | ⟨ha', hc'⟩ := update_eq_some.1 hc'
      · exact hholder
      · exact absurd (by rw [hl.config_at hc', hm, hmint, ha]) ha'
    · obtain ⟨-, rfl⟩ | ⟨-, hc'⟩ := update_eq_some.1 hc'
      · exact absurd hm.symm (fresh h)
      · exact hl.holder h hmaster' hactive' hc' hm

/-- The authority of `c` moves from the holder of `r` to the holder of `q`. -/
theorem transfer (hl : l.Authorities P) {a old new : Pda} {c : StablecoinConfig} {r q : RoleRecord}
    (hc : l.configs a = some c) (hold : l.roles old = some r) (hactive : r.active) (hrmint : r.mint = c.mint)
    (hrole : r.role = .masterAuthority) (hnew : new = P.canonical (.role c.mint q.holder .masterAuthority))
    (hinactive : ∀ r', l.roles new = some r' → r'.active = false) (hqmint : q.mint = c.mint)
    (hqrole : q.role = .masterAuthority) (hqactive : q.active) :
    (((l.setConfig a { c with authority := q.holder }).setRole old { r with active := false }).setRole new q).Authorities
      P := by
  -- the two records are different ones: the old is active, the new is not
  have hne : old ≠ new := by
    intro h
    rw [h] at hold
    rw [hinactive r hold] at hactive
    contradiction
  have hrholder : r.holder = c.authority := hl.holder hold hrole hactive hc hrmint.symm
  -- an active master record of this mint is the old one
  have honly {b : Pda} {r' : RoleRecord} (h : l.roles b = some r') (hm : r'.role = .masterAuthority)
      (hact : r'.active) (hmint : r'.mint = c.mint) : b = old := by
    have hholder := hl.holder h hm hact hc hmint.symm
    rw [hl.role_at h, hl.role_at hold, hm, hrole, hmint, hrmint, hholder, hrholder]
  refine ⟨?_, ?_, ?_, ?_, ?_⟩
  · intro a' c' h
    obtain ⟨ha', rfl⟩ | ⟨-, h⟩ := update_eq_some.1 h
    · rw [ha', hl.config_at hc]
    · exact hl.config_at h
  · intro b r' h
    obtain ⟨hb, rfl⟩ | ⟨-, h⟩ := update_eq_some.1 h
    · rw [hb, hnew, hqmint, hqrole]
    · obtain ⟨hb, rfl⟩ | ⟨-, h⟩ := update_eq_some.1 h
      · rw [hb, hl.role_at hold]
      · exact hl.role_at h
  · have hkept {m : Pubkey} {d : StablecoinConfig} (h : l.configs (P.canonical (.config m)) = some d) :
        ∃ d, update l.configs a (some { c with authority := q.holder }) (P.canonical (.config m)) = some d := by
      by_cases ha : P.canonical (.config m) = a
      · exact ⟨_, update_eq_some.2 (.inl ⟨ha, rfl⟩)⟩
      · exact ⟨d, update_eq_some.2 (.inr ⟨ha, h⟩)⟩
    have hcmint : l.configs (P.canonical (.config c.mint)) = some c := by rw [← hl.config_at hc, hc]
    intro b r' h
    obtain ⟨-, rfl⟩ | ⟨-, h⟩ := update_eq_some.1 h
    · rw [hqmint]
      exact hkept hcmint
    · obtain ⟨-, rfl⟩ | ⟨-, h⟩ := update_eq_some.1 h
      · obtain ⟨d, hd⟩ := hl.configured hold
        exact hkept hd
      · obtain ⟨d, hd⟩ := hl.configured h
        exact hkept hd
  · intro a' c' h
    obtain ⟨-, rfl⟩ | ⟨ha', h⟩ := update_eq_some.1 h
    · exact ⟨q, update_eq_some.2 (.inl ⟨hnew.symm, rfl⟩), hqactive⟩
    · -- another mint's master record is not one of the two
      have hmint : c'.mint ≠ c.mint := fun hm => ha' (hl.config_unique h hc hm).1
      obtain ⟨r', hr', hact⟩ := hl.master h
      refine ⟨r', update_eq_some.2 (.inr ⟨?_, update_eq_some.2 (.inr ⟨?_, hr'⟩)⟩), hact⟩
      · rw [hnew, ne_eq, P.canonical_inj]
        intro heq
        injection heq with hm _ _
        exact hmint hm
      · rw [hl.role_at hold, ne_eq, P.canonical_inj]
        intro heq
        injection heq with hm _ _
        exact hmint (hm.trans hrmint)
  · intro b r' a' c' h hmaster hact hc' hm
    obtain ⟨-, rfl⟩ | ⟨-, h⟩ := update_eq_some.1 h
    · obtain ⟨-, rfl⟩ | ⟨ha', hc'⟩ := update_eq_some.1 hc'
      · rfl
      · exact absurd (hl.config_unique hc' hc (hm.trans hqmint)).1 ha'
    · obtain ⟨-, rfl⟩ | ⟨hb, h⟩ := update_eq_some.1 h
      · contradiction
      · obtain ⟨-, rfl⟩ | ⟨-, hc'⟩ := update_eq_some.1 hc'
        · exact absurd (honly h hmaster hact hm.symm) hb
        · exact hl.holder h hmaster hact hc' hm

/-- **Step.** Every instruction that succeeds keeps the invariant. -/
theorem exec (hl : s.ledger.Authorities P) {ix : Instruction} (h : exec P now s ix = ok s') :
    s'.ledger.Authorities P := by
  by_cases hix : .role ∈ ix.writes
  · cases ix <;> simp only [Instruction.writes, List.mem_cons, List.not_mem_nil, reduceCtorEq, or_false] at hix
    case initializeStablecoin x args =>
      obtain ⟨⟨hconfig, hv⟩, -, ⟨hmaster, -⟩, _, _, -, -, rfl⟩ := initializeHandler_ok h
      exact (hl.initializeMint (c := initializeConfig P x args) (r := initializeMasterRole P now x) hconfig
        (configs_of_vacant hv) hmaster rfl rfl rfl rfl).of_same (.of_eq rfl rfl)
    case updateMinter x minter limit period =>
      obtain ⟨c, r, hc, -, hrole, -, rfl⟩ := handlerUpdateMinter_ok h
      obtain ⟨hc, hat⟩ := hl.configAccount hc
      rw [hat] at hc
      exact (hl.setRole (r := ⟨c.mint, minter, .minter, true, now, x.minterRole.bump⟩) hrole (by simp) hc).of_same
        (.of_eq rfl rfl)
    case updateRoles x holder role active =>
      obtain ⟨c, r, hc, -, htarget, hrole, rfl⟩ := handlerUpdateRoles_ok h
      obtain ⟨hc, hat⟩ := hl.configAccount hc
      rw [hat] at hc
      exact hl.setRole (r := ⟨c.mint, holder, role, active, now, x.targetRole.bump⟩) htarget hrole hc
    case transferAuthority x newAuthority =>
      obtain ⟨c, r, hc, hr, hnew, hinactive, rfl⟩ := handlerTransferAuthority_ok h
      obtain ⟨hc, -⟩ := hl.configAccount hc
      obtain ⟨hr, -, hactive, hmint, -, hrole⟩ := hl.roleAccount hr
      exact hl.transfer (q := ⟨c.mint, newAuthority, .masterAuthority, true, now, x.newMasterRole.bump⟩) hc hr
        hactive hmint hrole hnew hinactive rfl rfl rfl
  · exact hl.of_same (exec_sameAuthority hix h)

/-- **Run.** -/
theorem of_reachable (h : (machine P).Reachable s) : s.ledger.Authorities P := by
  refine h.invariant (I := fun s => s.ledger.Authorities P) ?_ ?_
  · intro s hs
    rw [hs.1]
    exact empty
  · intro s e s' hl hs
    cases hs with
    | succeeded h => exact hl.exec h
    | failed => exact hl
    | outside => exact hl

/-- A record found anywhere that authorizes an operator is at the derived address. -/
theorem hasRole (hl : l.Authorities P) {a : Pda} {r : RoleRecord} {also : RoleType} {operator mint : Pubkey}
    (hr : l.roles a = some r) (h : r.Authorizes also operator mint) :
    l.HasRole P mint operator also ∨ l.HasRole P mint operator .masterAuthority := by
  have hat := hl.role_at hr
  rw [h.mint, h.holder] at hat
  obtain hrole | hrole := h.role
  · exact .inl ⟨r, by rw [← hrole, ← hat, hr], h.active⟩
  · exact .inr ⟨r, by rw [← hrole, ← hat, hr], h.active⟩

theorem pauser (hl : s.ledger.Authorities P) {paused : Bool} {refused : SssError}
    {event : Pubkey → Pubkey → Int64 → Event} {x : PauseOrUnpause}
    (h : handlerSetPaused paused refused event P now s x = ok s') :
    s.ledger.HasRole P x.mint x.operator .pauser ∨ s.ledger.HasRole P x.mint x.operator .masterAuthority := by
  obtain ⟨c, p, r, sw, -, hmint, -, -, hr, hauth, -⟩ := handlerSetPaused_ok h
  rw [← hmint]
  exact hl.hasRole hr hauth

theorem freezer (hl : s.ledger.Authorities P) {op : FreezeOp} {event : Pubkey → Pubkey → Pubkey → Int64 → Event}
    {x : FreezeOrThaw} (h : handlerFreezeOrThaw op event P now s x = ok s') :
    s.ledger.HasRole P x.mint x.operator .blacklister ∨
      s.ledger.HasRole P x.mint x.operator .masterAuthority := by
  obtain ⟨c, r, m, t, c', w, -, hr, hauth, hm, -⟩ := handlerFreezeOrThaw_ok h
  rw [(mintAccount_eq_ok.1 hm).2]
  exact hl.hasRole hr hauth

end Ledger.Authorities

/-- **Roles and authority.** In every reachable state a record at a derived address stores the mint,
holder and role it is derived from; each configured mint has one active master authority, the
config's; and the operator of a successful `pause`, `unpause`, `freeze_account` or `thaw_account` holds
an active qualifying record of that mint, whatever record was passed. -/
theorem roles_and_authority (h : (machine P).Reachable s) :
    (∀ mint holder role r, s.ledger.roles (P.canonical (.role mint holder role)) = some r →
      r.mint = mint ∧ r.holder = holder ∧ r.role = role) ∧
    (∀ a c, s.ledger.configs a = some c → a = P.canonical (.config c.mint) ∧
      ∃ r, s.ledger.IsMaster c.mint (P.canonical (.role c.mint c.authority .masterAuthority)) r ∧
        r.holder = c.authority ∧ ∀ b q, s.ledger.IsMaster c.mint b q →
          b = P.canonical (.role c.mint c.authority .masterAuthority)) ∧
    (∀ now s' x, handlerPause P now s x = ok s' ∨ handlerUnpause P now s x = ok s' →
      s.ledger.HasRole P x.mint x.operator .pauser ∨ s.ledger.HasRole P x.mint x.operator .masterAuthority) ∧
    (∀ now s' x, handlerFreeze P now s x = ok s' ∨ handlerThaw P now s x = ok s' →
      s.ledger.HasRole P x.mint x.operator .blacklister ∨
        s.ledger.HasRole P x.mint x.operator .masterAuthority) := by
  have hl := Ledger.Authorities.of_reachable h
  refine ⟨?_, ?_, ?_, ?_⟩
  · intro mint holder role r hr
    have hseeds := congrArg Pda.seeds (hl.role_at hr)
    injection hseeds with hmint hholder hrole
    exact ⟨hmint.symm, hholder.symm, hrole.symm⟩
  · intro a c hc
    obtain ⟨r, hr, hactive⟩ := hl.master hc
    have hseeds := congrArg Pda.seeds (hl.role_at hr)
    injection hseeds with hmint hholder hrole
    refine ⟨hl.config_at hc, r, ⟨hr, hmint.symm, hrole.symm, hactive⟩, hholder.symm, ?_⟩
    intro b q hq
    rw [hl.role_at hq.account, hq.mint, hq.role, hl.holder hq.account hq.role hq.active hc hq.mint.symm]
  · intro now s' x hx
    exact hx.elim hl.pauser hl.pauser
  · intro now s' x hx
    exact hx.elim hl.freezer hl.freezer

/-- Key 1 grants key 3 the role of pauser and hands mint 2 over to key 4. -/
def handoverSample : List (Instruction × Int64) :=
  [(initializeSample, 10),
    (.updateRoles
      { authority := sampleKey 1
        config := bank.canonical (.config (sampleKey 2))
        authorityRole := bank.canonical (.role (sampleKey 2) (sampleKey 1) .masterAuthority)
        targetRole := bank.canonical (.role (sampleKey 2) (sampleKey 3) .pauser) }
      (sampleKey 3) .pauser true, 20),
    (.transferAuthority
      { authority := sampleKey 1
        config := bank.canonical (.config (sampleKey 2))
        oldMasterRole := bank.canonical (.role (sampleKey 2) (sampleKey 1) .masterAuthority)
        newMasterRole := bank.canonical (.role (sampleKey 2) (sampleKey 4) .masterAuthority) }
      (sampleKey 4), 30)]

def pauseSample : PauseOrUnpause where
  operator := sampleKey 3
  config := bank.canonical (.config (sampleKey 2))
  pauseState := bank.canonical (.pause (sampleKey 2))
  operatorRole := bank.canonical (.role (sampleKey 2) (sampleKey 3) .pauser)
  mint := sampleKey 2
  tokenProgram := token2022Id

theorem roles_and_authority_sample :
    let s := execAll bank sampleStart handoverSample
    ((s.ledger.configs pauseSample.config).map (·.authority) = some (sampleKey 4) ∧
      (handlerPause bank 40 s pauseSample).isOk) ∧
    (s.ledger.HasRole bank (sampleKey 2) (sampleKey 3) .pauser ∨
      s.ledger.HasRole bank (sampleKey 2) (sampleKey 3) .masterAuthority) := by
  intro s
  have hrun : (s.ledger.configs pauseSample.config).map (·.authority) = some (sampleKey 4) ∧
      (handlerPause bank 40 s pauseSample).isOk := by decide +kernel
  obtain ⟨s', hs'⟩ := Exec.isOk_iff.1 hrun.2
  exact ⟨hrun, (roles_and_authority (execAll_reachable sampleStart_reachable)).2.2.1 40 s' pauseSample (.inl hs')⟩

end ThawGate.Token
