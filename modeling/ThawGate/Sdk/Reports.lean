import ThawGate.Sdk.Client
import ThawGate.Logs.Transcript

/-!
# What the client reports

`explain` and `freezeIfInvalid` against the simulation they made. A success is read from the logs: one
without a frame of ThawGate's is taken for Token ACL's early return on an account that is already in the
target state. The logs of a foreign gating program have no such frame either, and `reports_right_iff` says for which
simulations the reading is right: `explain` tells `canUnlock` and `freezable` exactly for a thaw or a freeze that
succeeded, and `freezeIfInvalid` tells `frozen` only of an account that is frozen.
-/

namespace ThawGate.Sdk

open Logs

/-! ### Verdicts -/

/-- A frame of the program begins in the logs. -/
def Invokes (program : Text) (logs : List Text) : Prop := ∃ line ∈ logs, invokeLine line = some program

section verdicts

variable {logs : List Text} {action : GateAction} {gateId : Text} {errorCode : Option Nat}

theorem foldl_gateInvoked (s : GateScan) :
    (logs.foldl (GateScan.read gateId) s).gateInvoked = true ↔ s.gateInvoked = true ∨ Invokes gateId logs := by
  induction logs generalizing s with
  | nil => simp [Invokes]
  | cons line logs ih =>
    have hread : (s.read gateId line).gateInvoked = true ↔ s.gateInvoked = true ∨ invokeLine line = some gateId := by
      rw [GateScan.read]
      cases invokeLine line with
      | some program => simp
      | none =>
        dsimp only
        by_cases hexit : exitLine line = true
        · simp [hexit]
        · rw [if_neg hexit, apply_ite fun t : GateScan => t.gateInvoked, ite_self]
          simp
    rw [List.foldl_cons, ih, hread, or_assoc]
    simp [Invokes]

theorem gateInvoked_iff : (parseGateLogs logs gateId).gateInvoked = true ↔ Invokes gateId logs := by
  rw [parseGateLogs, scanGateLogs, foldl_gateInvoked]
  exact or_iff_right Bool.false_ne_true

/-- A success is read as allowed when the gate was called, and as skipped when it was not. -/
theorem classify_succeeded :
    (Invokes gateId logs ∧ ∃ code reason, classifyGateLogs logs true action gateId errorCode = .allowed code reason) ∨
      (¬Invokes gateId logs ∧ ∃ reason, classifyGateLogs logs true action gateId errorCode = .skipped reason) := by
  rw [← gateInvoked_iff]
  unfold classifyGateLogs
  dsimp only
  rw [if_pos rfl]
  by_cases hinvoked : (parseGateLogs logs gateId).gateInvoked = true
  · rw [if_pos hinvoked]
    exact .inl ⟨hinvoked, _, _, rfl⟩
  · rw [if_neg hinvoked]
    exact .inr ⟨hinvoked, _, rfl⟩

/-- A failure is read as a denial or as a failure. -/
theorem classify_failed :
    (∃ code reason, classifyGateLogs logs false action gateId errorCode = .denied code reason) ∨
      ∃ program message reason, classifyGateLogs logs false action gateId errorCode = .failed program message reason := by
  unfold classifyGateLogs
  dsimp only
  rw [if_neg Bool.false_ne_true]
  split
  · exact .inl ⟨_, _, rfl⟩
  · split
    · exact .inl ⟨_, _, rfl⟩
    · split
      · exact .inr ⟨_, _, _, rfl⟩
      · exact .inr ⟨_, _, _, rfl⟩

theorem of_skipped {succeeded : Bool} {reason : String}
    (h : classifyGateLogs logs succeeded action gateId errorCode = .skipped reason) :
    succeeded = true ∧ ¬Invokes gateId logs := by
  cases succeeded with
  | true =>
    rcases @classify_succeeded logs action gateId errorCode with ⟨-, _, _, hallowed⟩ | ⟨hinvokes, -⟩
    · cases hallowed.symm.trans h
    · exact ⟨rfl, hinvokes⟩
  | false =>
    rcases @classify_failed logs action gateId errorCode with ⟨_, _, hdenied⟩ | ⟨_, _, _, hfailed⟩
    · cases hdenied.symm.trans h
    · cases hfailed.symm.trans h

end verdicts

/-! ### explain -/

section explain

variable {c : GateClient} {rpc : Rpc} {mint wallet : Text} {optPayer optTokenAccount : Option Text}

/-- An early return names no thaw and no freeze that would succeed. -/
theorem prepareExplain_returns {e : Explanation}
    (h : c.prepareExplain rpc mint wallet optPayer optTokenAccount = .ok (.inl e)) :
    e.status ≠ .canUnlock ∧ e.status ≠ .freezable := by
  rw [GateClient.prepareExplain] at h
  obtain ⟨config, -, h⟩ := Exec.bind_eq_ok.1 h
  obtain ⟨info, -, h⟩ := Exec.bind_eq_ok.1 h
  dsimp only at h
  split at h
  · cases h
    exact ⟨nofun, nofun⟩
  · cases config with
    | none =>
      cases h
      exact ⟨nofun, nofun⟩
    | some config =>
      dsimp only at h
      split at h
      · cases h
        exact ⟨nofun, nofun⟩
      · -- past the last early return there is a simulation
        obtain ⟨payer, -, h⟩ := Exec.bind_eq_ok.1 h
        obtain ⟨ix, -, h⟩ := Exec.bind_eq_ok.1 h
        cases h

/-- The status of a report on a success. -/
theorem reportExplain_succeeded (q : Question) {sim : Simulated} (herr : sim.err = none) :
    ((c.reportExplain q sim).status = .canUnlock ↔ q.action = .thaw ∧
        (q.config.gatingProgram = c.gateProgramId ∨ Invokes c.gateProgramId sim.logs)) ∧
      ((c.reportExplain q sim).status = .freezable ↔ q.action = .freeze ∧ Invokes c.gateProgramId sim.logs) := by
  rw [GateClient.reportExplain, decide_eq_true herr]
  dsimp only
  rcases @classify_succeeded sim.logs q.action c.gateProgramId sim.errorCode with
    ⟨hinvokes, code, reason, hverdict⟩ | ⟨hinvokes, reason, hverdict⟩
  · rw [hverdict, if_neg (show ¬(GateVerdict.allowed code reason).isFailed = true from Bool.false_ne_true)]
    by_cases hgate : q.config.gatingProgram = c.gateProgramId
    · rw [if_neg (not_not_intro hgate)]
      cases q.action <;> simp [GateVerdict.isDenied, GateVerdict.isAllowed, hgate, hinvokes]
    · rw [if_pos hgate]
      cases q.action <;> simp [GateVerdict.isAllowed, hinvokes]
  · rw [hverdict, if_neg (show ¬(GateVerdict.skipped reason).isFailed = true from Bool.false_ne_true)]
    by_cases hgate : q.config.gatingProgram = c.gateProgramId
    · rw [if_neg (not_not_intro hgate)]
      cases q.action <;> simp [GateVerdict.isDenied, GateVerdict.isAllowed, hgate, hinvokes]
    · rw [if_pos hgate]
      cases q.action <;> simp [GateVerdict.isAllowed, hgate, hinvokes]

/-- A report on a failure names no thaw and no freeze that would succeed. -/
theorem reportExplain_failed (q : Question) {sim : Simulated} (herr : sim.err ≠ none) :
    (c.reportExplain q sim).status ≠ .canUnlock ∧ (c.reportExplain q sim).status ≠ .freezable := by
  rw [GateClient.reportExplain, decide_eq_false herr]
  dsimp only
  rcases @classify_failed sim.logs q.action c.gateProgramId sim.errorCode with
    ⟨code, reason, hverdict⟩ | ⟨program, message, reason, hverdict⟩
  · rw [hverdict]
    cases q.action <;> simp [GateVerdict.isFailed, GateVerdict.isDenied, GateVerdict.isAllowed, apply_ite Explanation.status]
  · rw [hverdict]
    simp [GateVerdict.isFailed]

theorem simulate_eq_ok {ixs : List Instruction} {payer : Text} {sim : Simulated} :
    simulate rpc ixs payer = .ok sim ↔ ∃ value, rpc.simulateTransaction ixs payer = .ok value ∧ value.read = sim := by
  rw [simulate, Exec.bind_eq_ok]
  constructor
  · rintro ⟨value, hvalue, h⟩
    cases h
    exact ⟨value, hvalue, rfl⟩
  · rintro ⟨value, hvalue, rfl⟩
    exact ⟨value, hvalue, rfl⟩

/-- The permissionless `action` was simulated and succeeded, on an account that was not `already` in the state it leads
to. -/
def GateClient.Takes (c : GateClient) (rpc : Rpc) (mint wallet : Text) (optPayer optTokenAccount : Option Text)
    (already : Bool) (action : GateAction) : Prop :=
  ∃ q value, c.prepareExplain rpc mint wallet optPayer optTokenAccount = .ok (.inr q) ∧ q.action = action ∧
    rpc.simulateTransaction q.ixs q.payer = .ok value ∧ value.err = none ∧ already = false

/-- `explain` tells `canUnlock`, or `freezable`, exactly for a thaw, or a freeze, that succeeded in the simulation. -/
def GateClient.ExplainsRight (c : GateClient) (rpc : Rpc) (mint wallet : Text) (optPayer optTokenAccount : Option Text)
    (already : Bool) : Prop :=
  ∀ e, c.explain rpc mint wallet optPayer optTokenAccount = .ok e →
    (e.status = .canUnlock ↔ c.Takes rpc mint wallet optPayer optTokenAccount already .thaw) ∧
      (e.status = .freezable ↔ c.Takes rpc mint wallet optPayer optTokenAccount already .freeze)

/-- A simulation whose success `explain` reads right. On a mint of ThawGate's a thaw that succeeded has to have
found the account frozen; for a freeze, and for any action of a foreign gate, a frame of ThawGate's has to stand in the
logs exactly when there was something to do. -/
def GateClient.Legible (c : GateClient) (q : Question) (value : SimValue) (already : Bool) : Prop :=
  value.err = none →
    if q.action = .thaw ∧ q.config.gatingProgram = c.gateProgramId then already = false
    else (Invokes c.gateProgramId (value.logs.getD []) ↔ already = false)

theorem takes_iff {already : Bool} {action : GateAction} {q : Question} {value : SimValue}
    (hq : c.prepareExplain rpc mint wallet optPayer optTokenAccount = .ok (.inr q))
    (hvalue : rpc.simulateTransaction q.ixs q.payer = .ok value) :
    c.Takes rpc mint wallet optPayer optTokenAccount already action ↔
      q.action = action ∧ value.err = none ∧ already = false := by
  constructor
  · rintro ⟨q', value', hq', haction, hvalue', herr, halready⟩
    cases hq.symm.trans hq'
    cases hvalue.symm.trans hvalue'
    exact ⟨haction, herr, halready⟩
  · rintro ⟨haction, herr, halready⟩
    exact ⟨q, value, hq, haction, hvalue, herr, halready⟩

/-- The report on one simulation is right exactly when the simulation is legible. -/
theorem report_right_iff {already : Bool} {q : Question} {value : SimValue}
    (hq : c.prepareExplain rpc mint wallet optPayer optTokenAccount = .ok (.inr q))
    (hvalue : rpc.simulateTransaction q.ixs q.payer = .ok value) :
    (((c.reportExplain q value.read).status = .canUnlock ↔
        c.Takes rpc mint wallet optPayer optTokenAccount already .thaw) ∧
      ((c.reportExplain q value.read).status = .freezable ↔
        c.Takes rpc mint wallet optPayer optTokenAccount already .freeze)) ↔
      c.Legible q value already := by
  rw [takes_iff hq hvalue, takes_iff hq hvalue, GateClient.Legible]
  by_cases hnone : value.err = none
  · obtain ⟨hthaw, hfreeze⟩ := @reportExplain_succeeded c q value.read hnone
    rw [hthaw, hfreeze]
    cases haction : q.action
    · by_cases hgate : q.config.gatingProgram = c.gateProgramId <;> simp [hnone, hgate, eq_comm, SimValue.read]
    · simp [hnone, SimValue.read]
  · obtain ⟨hthaw, hfreeze⟩ := @reportExplain_failed c q value.read hnone
    simp [hthaw, hfreeze, hnone]

theorem explain_right_iff {already : Bool} :
    c.ExplainsRight rpc mint wallet optPayer optTokenAccount already ↔
      ∀ q value, c.prepareExplain rpc mint wallet optPayer optTokenAccount = .ok (.inr q) →
        rpc.simulateTransaction q.ixs q.payer = .ok value → c.Legible q value already := by
  constructor
  · intro hright q value hq hvalue
    refine (report_right_iff hq hvalue).1 (hright _ ?_)
    rw [GateClient.explain, hq, Exec.bind_ok]
    dsimp only
    rw [simulate_eq_ok.2 ⟨value, hvalue, rfl⟩, Exec.bind_ok]
    rfl
  · intro hlegible e he
    rw [GateClient.explain] at he
    obtain ⟨prepared, hprepared, he⟩ := Exec.bind_eq_ok.1 he
    cases prepared with
    | inl returned =>
      cases he
      -- nothing was simulated, and the early returns are neither
      obtain ⟨hunlock, hfreezable⟩ := prepareExplain_returns hprepared
      have hnone (action : GateAction) : ¬c.Takes rpc mint wallet optPayer optTokenAccount already action := by
        rintro ⟨q, value, hq, -⟩
        cases hprepared.symm.trans hq
      exact ⟨iff_of_false hunlock (hnone _), iff_of_false hfreezable (hnone _)⟩
    | inr q =>
      dsimp only at he
      obtain ⟨sim, hsim, he⟩ := Exec.bind_eq_ok.1 he
      obtain ⟨value, hvalue, rfl⟩ := simulate_eq_ok.1 hsim
      cases he
      exact (report_right_iff hprepared hvalue).2 (hlegible q value hprepared hvalue)

end explain

/-! ### freezeIfInvalid -/

section freeze

variable {c : GateClient} {rpc : Rpc} {tokenAccount : Text}

/-- `freezeIfInvalid` tells `frozen` only if the account was frozen when it was read, or `already` frozen when the freeze
was simulated, or the freeze it sent was confirmed. -/
def GateClient.FreezesRight (c : GateClient) (rpc : Rpc) (tokenAccount : Text) (already : Bool) : Prop :=
  ∀ r, c.freezeIfInvalid rpc tokenAccount = .ok r → r.frozen = true →
    (∃ acc, rpc.tokenAccount tokenAccount = .ok (some acc) ∧ acc.isFrozen = true) ∨ already = true ∨
      ∃ caller ix signature, c.prepareFreeze rpc tokenAccount = .ok (.inr (caller, ix)) ∧
        rpc.send [ix] = .ok signature ∧ r.signature = some signature

/-- A success without a frame of ThawGate's has to have found the account frozen. -/
def GateClient.FreezeLegible (c : GateClient) (value : SimValue) (already : Bool) : Prop :=
  value.err = none → Invokes c.gateProgramId (value.logs.getD []) ∨ already = true

theorem prepareFreeze_returns {r : FreezeResult} (h : c.prepareFreeze rpc tokenAccount = .ok (.inl r)) :
    ∃ acc, rpc.tokenAccount tokenAccount = .ok (some acc) ∧ acc.isFrozen = true := by
  rw [GateClient.prepareFreeze] at h
  obtain ⟨caller, -, h⟩ := Exec.bind_eq_ok.1 h
  obtain ⟨info, hinfo, h⟩ := Exec.bind_eq_ok.1 h
  obtain ⟨acc, hacc, h⟩ := Exec.bind_eq_ok.1 h
  rw [Exec.orErr_eq_ok] at hacc
  by_cases hfrozen : acc.isFrozen = true
  · exact ⟨acc, by rw [hinfo, hacc], hfrozen⟩
  · rw [if_neg hfrozen] at h
    obtain ⟨ix, -, h⟩ := Exec.bind_eq_ok.1 h
    cases h

theorem prepareFreeze_thawed {caller : Text} {ix : Instruction}
    (h : c.prepareFreeze rpc tokenAccount = .ok (.inr (caller, ix))) :
    ¬∃ acc, rpc.tokenAccount tokenAccount = .ok (some acc) ∧ acc.isFrozen = true := by
  rw [GateClient.prepareFreeze] at h
  obtain ⟨_, -, h⟩ := Exec.bind_eq_ok.1 h
  obtain ⟨info, hinfo, h⟩ := Exec.bind_eq_ok.1 h
  obtain ⟨acc, hacc, h⟩ := Exec.bind_eq_ok.1 h
  rw [Exec.orErr_eq_ok] at hacc
  rintro ⟨acc', hacc', hfrozen⟩
  rw [hinfo, hacc] at hacc'
  cases hacc'
  rw [if_pos hfrozen] at h
  cases h

theorem freeze_right_iff {already : Bool} : c.FreezesRight rpc tokenAccount already ↔
    ∀ caller ix value, c.prepareFreeze rpc tokenAccount = .ok (.inr (caller, ix)) →
      rpc.simulateTransaction [ix] caller = .ok value → c.FreezeLegible value already := by
  constructor
  · intro hright caller ix value hprepared hvalue hnone
    by_cases hinvokes : Invokes c.gateProgramId (value.logs.getD [])
    · exact .inl hinvokes
    · -- a skip is told as frozen, and nothing is sent
      obtain ⟨reason, hskipped⟩ : ∃ reason, classifyGateLogs value.read.logs true .freeze c.gateProgramId
          value.read.errorCode = .skipped reason :=
        (classify_succeeded.resolve_left fun h => hinvokes h.1).2
      have hresult : c.freezeIfInvalid rpc tokenAccount = .ok ⟨true, true, none, reason, none⟩ := by
        rw [GateClient.freezeIfInvalid, hprepared, Exec.bind_ok]
        dsimp only
        rw [simulate_eq_ok.2 ⟨value, hvalue, rfl⟩, Exec.bind_ok, decide_eq_true (show value.read.err = none from hnone),
          hskipped]
        rfl
      rcases hright _ hresult rfl with hread | halready | ⟨_, _, signature, _, _, hsignature⟩
      · exact absurd hread (prepareFreeze_thawed hprepared)
      · exact .inr halready
      · cases hsignature
  · intro hlegible r hr hfrozen
    rw [GateClient.freezeIfInvalid] at hr
    obtain ⟨prepared, hprepared, hr⟩ := Exec.bind_eq_ok.1 hr
    cases prepared with
    | inl returned => exact .inl (prepareFreeze_returns hprepared)
    | inr prepared =>
      obtain ⟨caller, ix⟩ := prepared
      dsimp only at hr
      obtain ⟨sim, hsim, hr⟩ := Exec.bind_eq_ok.1 hr
      obtain ⟨value, hvalue, rfl⟩ := simulate_eq_ok.1 hsim
      have hread := hlegible caller ix value hprepared hvalue
      cases hverdict : classifyGateLogs value.read.logs (value.read.err = none) .freeze c.gateProgramId
          value.read.errorCode with
      | skipped reason =>
        obtain ⟨hnone, hinvokes⟩ := of_skipped hverdict
        exact .inr (.inl ((hread (of_decide_eq_true hnone)).resolve_left hinvokes))
      | denied code reason =>
        rw [hverdict] at hr
        cases hr
        cases hfrozen
      | failed program message reason =>
        rw [hverdict] at hr
        cases hr
        cases hfrozen
      | allowed code reason =>
        rw [hverdict] at hr
        obtain ⟨signature, hsend, hr⟩ := Exec.bind_eq_ok.1 hr
        cases hr
        exact .inr (.inr ⟨caller, ix, signature, hprepared, hsend, rfl⟩)

end freeze

/-- **Reports.** What `explain` and `freezeIfInvalid` report is right for exactly the simulations they read right. -/
theorem reports_right_iff (c : GateClient) (rpc : Rpc) (mint wallet : Text) (optPayer optTokenAccount : Option Text)
    (tokenAccount : Text) (already : Bool) :
    (c.ExplainsRight rpc mint wallet optPayer optTokenAccount already ↔
      ∀ q value, c.prepareExplain rpc mint wallet optPayer optTokenAccount = .ok (.inr q) →
        rpc.simulateTransaction q.ixs q.payer = .ok value → c.Legible q value already) ∧
    (c.FreezesRight rpc tokenAccount already ↔
      ∀ caller ix value, c.prepareFreeze rpc tokenAccount = .ok (.inr (caller, ix)) →
        rpc.simulateTransaction [ix] caller = .ok value → c.FreezeLegible value already) :=
  ⟨explain_right_iff, freeze_right_iff⟩

/-! ### Samples -/

def sampleClient : GateClient := ⟨thawgateGateId, some "wallet".toList, fun _ owner => owner⟩

/-- Logs of Token ACL calling the gating program `gate`, which allows. -/
def sampleLogs (gate : Text) : List Text :=
  [programText "TACLkU6CiCdkQN2MjoyDkVg2yAH9zkxiHDsiztQ52TP".toList "invoke [1]".toList,
    programText gate "invoke [2]".toList, programText gate "success".toList,
    programText "TACLkU6CiCdkQN2MjoyDkVg2yAH9zkxiHDsiztQ52TP".toList "success".toList]

/-- A mint on the gating program `gate`, a token account, and a simulation that succeeds. -/
def sampleRpc (gate : Text) (frozen : Bool) : Rpc where
  mintConfig _ := .ok (some ⟨true, true, gate⟩)
  tokenAccount _ := .ok (some ⟨"mint".toList, "owner".toList, frozen⟩)
  policyAuthority _ := .ok none
  extraMetas _ _ _ := .ok []
  simulateTransaction _ _ := .ok ⟨none, some (sampleLogs gate)⟩
  send _ := .err "not sent"

def foreignGate : Text := "GATEzzqxhJnsWF6vHRsgtixxSB8PaQdcqGEVTEHWiULz".toList

theorem sampleTakes (gate : Text) (frozen : Bool) :
    sampleClient.Takes (sampleRpc gate frozen) "mint".toList "owner".toList none none false
      (if frozen then .thaw else .freeze) := by
  cases frozen <;> exact ⟨_, _, rfl, rfl, rfl, rfl, rfl⟩

/-- A foreign gating program allows a thaw and a freeze: `explain` tells `denied` and `compliant`, and
`freezeIfInvalid` tells that the thawed account is already frozen, without sending anything. -/
theorem foreign_success_misread : ∃ (c : GateClient) (frozen thawed : Rpc) (mint owner tokenAccount : Text),
    (∃ e, c.explain frozen mint owner none none = .ok e ∧ e.status = .denied ∧
        c.Takes frozen mint owner none none false .thaw) ∧
      (∃ e, c.explain thawed mint owner none none = .ok e ∧ e.status = .compliant ∧
        c.Takes thawed mint owner none none false .freeze) ∧
      (∃ r, c.freezeIfInvalid thawed tokenAccount = .ok r ∧ r.frozen = true ∧ r.alreadyFrozen = true ∧
        r.signature = none ∧ ∃ acc, thawed.tokenAccount tokenAccount = .ok (some acc) ∧ acc.isFrozen = false) ∧
      ¬c.ExplainsRight frozen mint owner none none false ∧ ¬c.FreezesRight thawed tokenAccount false := by
  have hthaw : ∃ e, sampleClient.explain (sampleRpc foreignGate true) "mint".toList "owner".toList none none = .ok e ∧
      e.status = .denied := ⟨_, rfl, by decide +kernel⟩
  have hfreeze : ∃ e, sampleClient.explain (sampleRpc foreignGate false) "mint".toList "owner".toList none none = .ok e ∧
      e.status = .compliant := ⟨_, rfl, by decide +kernel⟩
  have hfrozen : sampleClient.freezeIfInvalid (sampleRpc foreignGate false) "account".toList =
      .ok ⟨true, true, none, "No change: the account is already frozen, so Token ACL did not call the gate.", none⟩ := by
    decide +kernel
  obtain ⟨e, he, hdenied⟩ := hthaw
  obtain ⟨e', he', hcompliant⟩ := hfreeze
  refine ⟨sampleClient, sampleRpc foreignGate true, sampleRpc foreignGate false, "mint".toList, "owner".toList,
    "account".toList, ⟨e, he, hdenied, sampleTakes foreignGate true⟩, ⟨e', he', hcompliant, sampleTakes foreignGate false⟩,
    ⟨_, hfrozen, rfl, rfl, rfl, _, rfl, rfl⟩, fun h => ?_, fun h => ?_⟩
  · have hunlock := (h e he).1.2 (sampleTakes foreignGate true)
    cases hdenied.symm.trans hunlock
  · rcases h _ hfrozen rfl with ⟨acc, hacc, hacc'⟩ | halready | ⟨_, _, _, _, _, hsignature⟩
    · cases hacc
      cases hacc'
    · cases halready
    · cases hsignature

end ThawGate.Sdk
