import ThawGate.Sdk.Reports

/-!
# Truncated logs

The runtime cuts the logs of a transaction and leaves the line `Log truncated`. `parseGateLogs` reads three things: the
gate's first decision, the first failure, and whether the gate was called. A cut can only lose each of them, and
`classifyGateLogs` takes what is missing for what did not happen. `consistent_iff` says for which cuts that does
not contradict the full logs: on a success the gate's frame has to begin before the cut, and on a failure the error
number may not stand for a denial which the full logs do not bear out.
-/

namespace ThawGate.Sdk

open Logs

/-! ### What the logs say -/

instance (exit : Text → Bool) (line : Text) : Decidable (Quiet exit line) := inferInstanceAs (Decidable (_ ∧ _))

/-- The lines written in the gate's own frames, from the open frames `stack` on. -/
def ownLines (gateId : Text) : List Text → List Text → List Text
  | _, [] => []
  | stack, line :: rest =>
    let own := if Quiet exitLine line ∧ stack.head? = some gateId then [line] else []
    own ++ ownLines gateId (stackAfter exitLine line stack) rest

/-- The first reason line in the gate's own frames. -/
def firstDecision (gateId : Text) (logs : List Text) : Option (DecisionKind × Text) :=
  (ownLines gateId [] logs).findSome? tgLine

/-- The first `Program <id> failed: <message>` line. -/
def firstFailure (logs : List Text) : Option (Text × Text) := logs.findSome? failedLine

theorem failedLine_of_invokeLine {line program : Text} (h : invokeLine line = some program) : failedLine line = none := by
  rw [invokeLine] at h
  obtain ⟨⟨word, tail⟩, hline, h⟩ := Option.bind_eq_some_iff.1 h
  dsimp only at h
  rw [failedLine, hline, Option.bind_some]
  dsimp only
  cases htail : failedTail tail with
  | none => rfl
  | some message =>
    -- a tail does not begin with both words
    obtain ⟨rest, hrest, -⟩ := Option.bind_eq_some_iff.1 htail
    have hinvoke : isInvokeTail tail = false := by
      rw [dropPrefix?_eq_some.1 hrest, isInvokeTail]
      rfl
    rw [hinvoke] at h
    cases h

section scan

variable {gateId : Text}

theorem GateScan.read_failure (s : GateScan) (line : Text) :
    (s.read gateId line).failure = s.failure.or (failedLine line) := by
  rw [GateScan.read]
  cases hinvoke : invokeLine line with
  | some program => rw [failedLine_of_invokeLine hinvoke, Option.or_none]
  | none =>
    dsimp only
    by_cases hexit : exitLine line = true
    · rw [if_pos hexit]
    · rw [if_neg hexit, apply_ite fun t : GateScan => t.failure, ite_self]

theorem GateScan.read_decision (s : GateScan) (line : Text) :
    (s.read gateId line).decision =
      s.decision.or (if Quiet exitLine line ∧ s.stack.head? = some gateId then tgLine line else none) := by
  by_cases hquiet : Quiet exitLine line
  · rw [GateScan.read_quiet hquiet]
    cases s.decision <;> simp [hquiet]
  · rw [if_neg fun h => hquiet h.1, Option.or_none, GateScan.read]
    cases hinvoke : invokeLine line with
    | some program => rfl
    | none =>
      have hexit : exitLine line = true := by
        by_contra hexit
        exact hquiet ⟨hinvoke, Bool.eq_false_iff.2 hexit⟩
      dsimp only
      rw [if_pos hexit]

theorem foldl_failure (logs : List Text) (s : GateScan) :
    (logs.foldl (GateScan.read gateId) s).failure = s.failure.or (firstFailure logs) := by
  induction logs generalizing s with
  | nil => exact Option.or_none.symm
  | cons line logs ih =>
    rw [List.foldl_cons, ih, GateScan.read_failure, Option.or_assoc, firstFailure, firstFailure, List.findSome?_cons]
    cases failedLine line <;> rfl

theorem foldl_decision (logs : List Text) (s : GateScan) :
    (logs.foldl (GateScan.read gateId) s).decision =
      s.decision.or ((ownLines gateId s.stack logs).findSome? tgLine) := by
  induction logs generalizing s with
  | nil => exact Option.or_none.symm
  | cons line logs ih =>
    rw [List.foldl_cons, ih, GateScan.read_decision, GateScan.read_stack, Option.or_assoc, ownLines]
    by_cases hown : Quiet exitLine line ∧ s.stack.head? = some gateId
    · rw [if_pos hown, if_pos hown, List.singleton_append, List.findSome?_cons]
      cases tgLine line <;> rfl
    · rw [if_neg hown, if_neg hown, List.nil_append, Option.none_or]

theorem parse_failure (logs : List Text) : (parseGateLogs logs gateId).failure = firstFailure logs :=
  foldl_failure logs _

theorem parse_decision (logs : List Text) : (parseGateLogs logs gateId).decision = firstDecision gateId logs :=
  foldl_decision logs _

theorem ownLines_append (stack before after : List Text) :
    ownLines gateId stack (before ++ after) = ownLines gateId stack before ++
      ownLines gateId (before.foldl (fun stack line => stackAfter exitLine line stack) stack) after := by
  induction before generalizing stack with
  | nil => rfl
  | cons line before ih => rw [List.cons_append, ownLines, ih, ← List.append_assoc, List.foldl_cons, ownLines]

end scan

/-! ### A cut -/

/-- The line the runtime leaves in place of what it cuts. -/
def logTruncated : Text := "Log truncated".toList

/-- The logs, cut after `n` lines. -/
def truncated (logs : List Text) (n : Nat) : List Text := logs.take n ++ [logTruncated]

section cut

variable {gateId : Text} {logs : List Text} {n : Nat}

theorem invokes_truncated : Invokes gateId (truncated logs n) ↔ Invokes gateId (logs.take n) := by
  have hline : invokeLine logTruncated = none := by decide
  simp [Invokes, truncated, or_and_right, exists_or, hline]

theorem firstFailure_truncated : firstFailure (truncated logs n) = firstFailure (logs.take n) := by
  have hline : failedLine logTruncated = none := by decide
  rw [truncated, firstFailure, List.findSome?_append, List.findSome?_singleton, hline, Option.or_none]
  rfl

theorem firstDecision_truncated : firstDecision gateId (truncated logs n) = firstDecision gateId (logs.take n) := by
  have hline : tgLine logTruncated = none := by decide
  rw [truncated, firstDecision, ownLines_append, List.findSome?_append, ownLines, ownLines, List.append_nil]
  split
  · rw [List.findSome?_singleton, hline, Option.or_none]
    rfl
  · exact Option.or_none

theorem Invokes.of_take (h : Invokes gateId (logs.take n)) : Invokes gateId logs := by
  obtain ⟨line, hmem, hline⟩ := h
  exact ⟨line, List.mem_of_mem_take hmem, hline⟩

theorem firstDecision_of_take {d : DecisionKind × Text} (h : firstDecision gateId (logs.take n) = some d) :
    firstDecision gateId logs = some d := by
  rw [firstDecision] at h
  rw [firstDecision, ← List.take_append_drop n logs, ownLines_append, List.findSome?_append, h]
  rfl

end cut

/-! ### Verdicts on a cut -/

inductive Outcome
  | allowed
  | denied
  | skipped
  | failed
  deriving DecidableEq

def GateVerdict.outcome : GateVerdict → Outcome
  | .allowed _ _ => .allowed
  | .denied _ _ => .denied
  | .skipped _ => .skipped
  | .failed _ _ _ => .failed

/-- The verdict leaves the decision open. -/
def GateVerdict.Undecided (v : GateVerdict) : Prop := v.outcome = .failed ∨ v.code? = some "UNKNOWN"

/-- The verdict `cut` on truncated logs does not contradict the verdict `full`. -/
def GateVerdict.Consistent (full cut : GateVerdict) : Prop :=
  cut.Undecided ∨ cut.outcome = full.outcome ∧ cut.code? = full.code?

/-- No program but the gate is the first to fail. -/
def BlamesGate (gateId : Text) (logs : List Text) : Prop := ∀ failure, firstFailure logs = some failure → failure.1 = gateId

/-- What the cut loses does not change a decided verdict. On a success the gate's frame begins before the cut. On
a failure whose error number names a denial, and which the cut logs leave to the gate, the full logs deny with the
same code or leave it to the gate too; they may deny with any code if the cut keeps the gate's decision. -/
def Retains (gateId : Text) (errorCode : Option Nat) (succeeded : Bool) (logs : List Text) (n : Nat) : Prop :=
  if succeeded = true then Invokes gateId logs → Invokes gateId (logs.take n)
  else ∀ code, errorCode.bind gateDenyErrors = some code → BlamesGate gateId (logs.take n) →
    match firstDecision gateId logs with
    | some (.deny, text) => firstDecision gateId (logs.take n) ≠ none ∨ String.ofList text = code
    | _ => BlamesGate gateId logs

/-- The code of a denial. -/
def denialCode (gateId : Text) (errorCode : Option Nat) : Option (DecisionKind × Text) → Option (Text × Text) → Option String
  | some (.deny, code), _ => some (String.ofList code)
  | _, failure => if failure.all (·.1 == gateId) then errorCode.bind gateDenyErrors else none

theorem blamesGate_iff {gateId : Text} {logs : List Text} :
    BlamesGate gateId logs ↔ (firstFailure logs).all (·.1 == gateId) = true := by
  rw [BlamesGate]
  cases firstFailure logs <;> simp

/-- Without a denial of the gate's, the error number speaks for the gate unless another program failed first. -/
theorem denialCode_eq_some {gateId : Text} {errorCode : Option Nat} {d : Option (DecisionKind × Text)} {logs : List Text}
    {code : String} (hd : ∀ text, d ≠ some (.deny, text)) :
    denialCode gateId errorCode d (firstFailure logs) = some code ↔
      BlamesGate gateId logs ∧ errorCode.bind gateDenyErrors = some code := by
  rw [blamesGate_iff]
  unfold denialCode
  split
  · exact absurd rfl (hd _)
  · split <;> simp [*]

theorem gateDenyErrors_ne_unknown {n : Nat} {code : String} (h : gateDenyErrors n = some code) : code ≠ "UNKNOWN" := by
  rintro rfl
  unfold gateDenyErrors at h
  split at h <;> simp at h

section verdict

variable {gateId : Text} {logs : List Text} {action : GateAction} {errorCode : Option Nat}

theorem classify_called (h : Invokes gateId logs) :
    ∃ code reason, classifyGateLogs logs true action gateId errorCode = .allowed code reason ∧
      code = match firstDecision gateId logs with
        | some (.allow, code) => String.ofList code
        | _ => "UNKNOWN" := by
  unfold classifyGateLogs
  dsimp only
  rw [if_pos rfl, if_pos (gateInvoked_iff.2 h), parse_decision]
  exact ⟨_, _, rfl, rfl⟩

/-- What is told of a failure. -/
theorem classify_failure :
    (classifyGateLogs logs false action gateId errorCode).code? =
        denialCode gateId errorCode (firstDecision gateId logs) (firstFailure logs) ∧
      (classifyGateLogs logs false action gateId errorCode).outcome =
        if (denialCode gateId errorCode (firstDecision gateId logs) (firstFailure logs)).isSome then .denied else .failed := by
  unfold classifyGateLogs
  dsimp only
  rw [if_neg Bool.false_ne_true, parse_decision, parse_failure]
  split
  · rename_i hdecision
    rw [hdecision]
    exact ⟨rfl, rfl⟩
  · rename_i hdecision
    have hcode : denialCode gateId errorCode (firstDecision gateId logs) (firstFailure logs) =
        if (firstFailure logs).all (·.1 == gateId) then errorCode.bind gateDenyErrors else none := by
      unfold denialCode
      split
      · exact absurd ‹_› (hdecision _)
      · rfl
    rw [hcode]
    cases (if (firstFailure logs).all (·.1 == gateId) then errorCode.bind gateDenyErrors else none) with
    | some code => exact ⟨rfl, rfl⟩
    | none => cases firstFailure logs <;> exact ⟨rfl, rfl⟩

end verdict

section consistent

variable {gateId : Text} {logs : List Text} {n : Nat} {action : GateAction} {errorCode : Option Nat}

theorem consistent_succeeded :
    (classifyGateLogs logs true action gateId errorCode).Consistent
        (classifyGateLogs (truncated logs n) true action gateId errorCode) ↔
      (Invokes gateId logs → Invokes gateId (logs.take n)) := by
  rcases @classify_succeeded (truncated logs n) action gateId errorCode with ⟨hcut, -⟩ | ⟨hcut, _, hskipped⟩
  · -- the gate's frame begins before the cut, and so does its decision or nothing is told of it
    rw [invokes_truncated] at hcut
    refine iff_of_true ?_ fun _ => hcut
    obtain ⟨code, reason, hfull, hcode⟩ := @classify_called gateId logs action errorCode hcut.of_take
    obtain ⟨code', reason', hcut', hcode'⟩ := @classify_called gateId (truncated logs n) action errorCode (invokes_truncated.2 hcut)
    rw [firstDecision_truncated] at hcode'
    rw [hfull, hcut']
    cases hdecision : firstDecision gateId (logs.take n) with
    | none =>
      rw [hdecision] at hcode'
      exact .inl (.inr (congrArg some hcode'))
    | some d =>
      rw [hdecision] at hcode'
      rw [firstDecision_of_take hdecision] at hcode
      exact .inr ⟨rfl, congrArg some (hcode'.trans hcode.symm)⟩
  · rw [invokes_truncated] at hcut
    rcases @classify_succeeded logs action gateId errorCode with ⟨hfull, _, _, hallowed⟩ | ⟨hfull, _, hskipped'⟩
    · rw [hskipped, hallowed]
      refine iff_of_false ?_ fun h => hcut (h hfull)
      rintro ((h | h) | ⟨h, -⟩) <;> cases h
    · rw [hskipped, hskipped']
      exact iff_of_true (.inr ⟨rfl, rfl⟩) fun h => absurd h hfull

/-- A failure on the cut logs is undecided or has the code of the full ones. -/
theorem consistent_failed :
    (classifyGateLogs logs false action gateId errorCode).Consistent
        (classifyGateLogs (truncated logs n) false action gateId errorCode) ↔
      ∀ code, denialCode gateId errorCode (firstDecision gateId (logs.take n)) (firstFailure (logs.take n)) = some code →
        code = "UNKNOWN" ∨ denialCode gateId errorCode (firstDecision gateId logs) (firstFailure logs) = some code := by
  obtain ⟨hcode, houtcome⟩ := @classify_failure gateId logs action errorCode
  obtain ⟨hcode', houtcome'⟩ := @classify_failure gateId (truncated logs n) action errorCode
  rw [firstDecision_truncated, firstFailure_truncated] at hcode' houtcome'
  rw [GateVerdict.Consistent, GateVerdict.Undecided, hcode, houtcome, hcode', houtcome']
  cases denialCode gateId errorCode (firstDecision gateId (logs.take n)) (firstFailure (logs.take n)) with
  | none => simp
  | some code =>
    cases denialCode gateId errorCode (firstDecision gateId logs) (firstFailure logs) with
    | none => simp
    | some code' => simp [eq_comm]

end consistent

/-- Truncated logs do not contradict the full ones exactly when the cut loses nothing that a decided verdict rests on. -/
theorem consistent_iff (logs : List Text) (n : Nat) (succeeded : Bool) (action : GateAction) (gateId : Text)
    (errorCode : Option Nat) :
    (classifyGateLogs logs succeeded action gateId errorCode).Consistent
        (classifyGateLogs (truncated logs n) succeeded action gateId errorCode) ↔
      Retains gateId errorCode succeeded logs n := by
  rw [Retains]
  cases succeeded with
  | true => rw [if_pos rfl, consistent_succeeded]
  | false =>
    rw [if_neg Bool.false_ne_true, consistent_failed]
    by_cases hdeny : ∃ text, firstDecision gateId (logs.take n) = some (.deny, text)
    · -- the gate's denial stands before the cut
      obtain ⟨text, hdeny⟩ := hdeny
      rw [hdeny, firstDecision_of_take hdeny]
      exact iff_of_true (fun code hcode => .inr hcode) fun code hcode hblames => .inl (Option.some_ne_none _)
    · have hcut : ∀ text, firstDecision gateId (logs.take n) ≠ some (.deny, text) := fun text h => hdeny ⟨text, h⟩
      have hunknown {code : String} (h : errorCode.bind gateDenyErrors = some code) : code ≠ "UNKNOWN" := by
        obtain ⟨number, -, hnumber⟩ := Option.bind_eq_some_iff.1 h
        exact gateDenyErrors_ne_unknown hnumber
      -- the cut logs deny with the code of the error number, if they leave it to the gate
      refine forall_congr' fun code => ?_
      rw [denialCode_eq_some hcut, and_comm, and_imp]
      refine forall_congr' fun herror => forall_congr' fun hblames => ?_
      rw [or_iff_right (hunknown herror)]
      split
      · rename_i text hdecision
        have hlost : firstDecision gateId (logs.take n) = none := by
          cases hkept : firstDecision gateId (logs.take n) with
          | none => rfl
          | some d =>
            have hsame := Option.some.inj ((firstDecision_of_take hkept).symm.trans hdecision)
            exact absurd (hkept.trans (congrArg some hsame)) (hcut text)
        rw [hdecision, hlost, or_iff_right (not_not_intro rfl)]
        exact Option.some_inj
      · rename_i hdecision
        rw [denialCode_eq_some hdecision, and_iff_left herror]

/-! ### Samples -/

/-- The logs of a thaw which the gate allows. -/
def thawLogs : List Text :=
  [programText "TACLkU6CiCdkQN2MjoyDkVg2yAH9zkxiHDsiztQ52TP".toList "invoke [1]".toList,
    programText thawgateGateId "invoke [2]".toList, "Program log: TG:ALLOW:CLEAN".toList,
    programText thawgateGateId "success".toList,
    programText "TACLkU6CiCdkQN2MjoyDkVg2yAH9zkxiHDsiztQ52TP".toList "success".toList]

/-- A thaw which the gate allowed is told as one that did nothing, if the logs are cut before the gate's frame. -/
theorem thaw_cut_skipped :
    (classifyGateLogs thawLogs true .thaw thawgateGateId none).outcome = .allowed ∧
      (classifyGateLogs (truncated thawLogs 1) true .thaw thawgateGateId none).outcome = .skipped ∧
      ¬(classifyGateLogs thawLogs true .thaw thawgateGateId none).Consistent
        (classifyGateLogs (truncated thawLogs 1) true .thaw thawgateGateId none) := by
  have hfull : (classifyGateLogs thawLogs true .thaw thawgateGateId none).outcome = .allowed := by decide +kernel
  have hcut : (classifyGateLogs (truncated thawLogs 1) true .thaw thawgateGateId none).outcome = .skipped ∧
      (classifyGateLogs (truncated thawLogs 1) true .thaw thawgateGateId none).code? = none := by decide +kernel
  refine ⟨hfull, hcut.1, ?_⟩
  rintro ((hfailed | hcode) | ⟨houtcome, -⟩)
  · cases hcut.1.symm.trans hfailed
  · cases hcut.2.symm.trans hcode
  · cases hcut.1.symm.trans (houtcome.trans hfull)

end ThawGate.Sdk
