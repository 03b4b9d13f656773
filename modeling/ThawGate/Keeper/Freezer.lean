import ThawGate.Chain
import ThawGate.Lib.Run
import ThawGate.Sdk.Truncation
import Mathlib.Logic.Function.Basic

/-!
# Shared freezes

`keeper/src/freezer.ts`: `freeze`, `run` and `attempt`. There is one run at a time for a token account, and whoever
asks for a freeze while it lasts is given its promise. A run makes up to five attempts, all with the request it was
begun with: their preflights run on a node that has reached that request's slot, and a later request's slot is
not looked at.

So a run answers the request it was begun with from a state that is not older than the request, and a newer one that
joined it from whatever state it happened to decide on. `notOvertaken_iff` says in which runs of the freezer every answer
is of a state at least as new as the request: those in which no attempt is decided at a slot below that of a newer request.
-/

namespace ThawGate.Keeper

open Function Logs Sdk

/-! ### Verdicts -/

inductive Verdict where
  | frozen (reason : String)
  | alreadyFrozen
  | compliant
  | denied (code : String)
  deriving DecidableEq

def gateIdText : Text := thawgateGateId

def classifyLogs (logs : List Text) (succeeded : Bool) : Verdict :=
  match classifyGateLogs logs succeeded .freeze gateIdText none with
  | .allowed code _ => .frozen code
  | .skipped _ => .alreadyFrozen
  | .denied code _ => if code = "COMPLIANT" then .compliant else .denied code
  | .failed program message _ => .denied (if program = "unknown" then "UNKNOWN" else program ++ ": " ++ message)

/-- `/^Program \S+ failed: /` -/
def programFailed (logs : List Text) : Bool :=
  logs.any fun line => (programLine line).any fun (_, tail) => (tail.dropPrefix? "failed: ".toList).isSome

theorem classifyLogs_failed (logs : List Text) :
    classifyLogs logs false = .compliant ∨ ∃ code, classifyLogs logs false = .denied code := by
  rw [classifyLogs]
  rcases @classify_failed logs .freeze gateIdText none with ⟨code, reason, hdenied⟩ | ⟨program, message, reason, hfailed⟩
  · rw [hdenied]
    by_cases hcompliant : code = "COMPLIANT"
    · exact .inl (if_pos hcompliant)
    · exact .inr ⟨code, if_neg hcompliant⟩
  · rw [hfailed]
    exact .inr ⟨_, rfl⟩

theorem compliant_iff {logs : List Text} : classifyLogs logs false = .compliant ↔
    (classifyGateLogs logs false .freeze gateIdText none).code? = some "COMPLIANT" := by
  rw [classifyLogs]
  rcases @classify_failed logs .freeze gateIdText none with ⟨code, reason, hdenied⟩ | ⟨program, message, reason, hfailed⟩
  · rw [hdenied]
    simp [GateVerdict.code?]
  · rw [hfailed]
    simp [GateVerdict.code?]

/-- The keeper passes no error number, so cut logs of a failure are told as compliant only where the full ones are. -/
theorem compliant_of_truncated {logs : List Text} {n : Nat} (h : classifyLogs (truncated logs n) false = .compliant) :
    classifyLogs logs false = .compliant := by
  rw [compliant_iff, classify_failure.1, firstDecision_truncated, firstFailure_truncated] at h
  rw [compliant_iff, classify_failure.1]
  cases hdecision : firstDecision gateIdText (logs.take n) with
  | none => simp [denialCode, hdecision] at h
  | some d =>
    rw [firstDecision_of_take hdecision]
    obtain ⟨_ | _, code⟩ := d
    · simp [denialCode, hdecision] at h
    · rwa [hdecision] at h

/-! ### The state -/

structure FreezeRequest where
  tokenAccount : Pubkey
  /-- `Date.now()` when the keeper saw the trigger. -/
  observedAt : Nat
  minContextSlot : Option Nat
  deriving DecidableEq

/-- The slot a preflight for the request has to have reached. -/
def FreezeRequest.slot (req : FreezeRequest) : Nat := req.minContextSlot.getD 0

inductive Outcome where
  | frozen (reason : String) (signature : Nat) (cu : Option Nat) (latencyMs : Int)
  | alreadyFrozen (signature : Nat)
  | compliant
  | denied (code : String)
  | failed (error : String)
  deriving DecidableEq

def Outcome.isFailed : Outcome → Bool
  | .failed _ => true
  | _ => false

inductive FreezeStage where
  | sending
  /-- The preflight passed, at this slot; the attempt waits for the confirmation. -/
  | confirming (signature preflight : Nat)
  /-- The transaction was executed, at this slot; the attempt waits for its logs. -/
  | landed (signature slot : Nat) (succeeded : Bool) (latencyMs : Int)
  /-- The run is over, decided at this slot; `finally` is still to run. -/
  | done (outcome : Outcome) (decidedAt : Option Nat)
  deriving DecidableEq

structure FreezeRun where
  req : FreezeRequest
  waiting : List FreezeRequest
  attempt : Nat
  stage : FreezeStage
  deriving DecidableEq

structure FreezeAnswer where
  request : FreezeRequest
  outcome : Outcome
  decidedAt : Option Nat
  deriving DecidableEq

structure Freezer where
  inflight : Pubkey → Option FreezeRun
  answers : List FreezeAnswer

inductive AttemptEvent where
  /-- It throws, while it builds its transaction or waits for the confirmation or the logs. -/
  | threw (error : String)
  /-- `sendTransaction` throws; `preflight` is the slot and the logs of a simulation that failed, if it returned them. -/
  | refused (preflight : Option (Nat × List Text)) (message : String)
  /-- `sendTransaction` returns: the preflight passed at this slot. -/
  | sent (signature slot : Nat)
  | expired
  /-- The transaction is confirmed at the time `now`, executed at this slot. -/
  | confirmed (slot : Nat) (succeeded : Bool) (now : Nat)
  | logged (logs : Option (List Text × Option Nat))

inductive FreezeEvent where
  | freeze (req : FreezeRequest)
  | attempt (tokenAccount : Pubkey) (e : AttemptEvent)
  | settled (tokenAccount : Pubkey)

/-! ### The steps -/

def maxAttempts : Nat := 5

namespace FreezeRun

def retry (r : FreezeRun) (error : String) : FreezeRun :=
  if r.attempt = maxAttempts then { r with stage := .done (.failed error) none }
  else { r with attempt := r.attempt + 1, stage := .sending }

def refused (r : FreezeRun) (preflight : Option (Nat × List Text)) (message : String) : FreezeRun :=
  match preflight with
  | some (slot, logs) =>
    if programFailed logs then
      match classifyLogs logs false with
      | .compliant => { r with stage := .done .compliant (some slot) }
      | .denied code => { r with stage := .done (.denied code) (some slot) }
      | _ => r.retry ("send: " ++ message)
    else r.retry ("send: " ++ message)
  | none => r.retry ("send: " ++ message)

def outcome (signature : Nat) (succeeded : Bool) (latencyMs : Int) (logs : Option (List Text × Option Nat)) : Outcome :=
  -- confirmed, logs not served: it froze or was a no-op
  if logs = none ∧ succeeded = true then .frozen "UNKNOWN" signature none latencyMs
  else match classifyLogs ((logs.map Prod.fst).getD []) succeeded with
    | .frozen reason => .frozen reason signature (logs.bind Prod.snd) latencyMs
    | .alreadyFrozen => .alreadyFrozen signature
    | .compliant => .compliant
    | .denied code => .denied code

/-- The step of an event, if it is possible. A simulation is run by a node that has reached `minContextSlot`, and a
transaction is not executed before the slot at which it passed its preflight. -/
def next (r : FreezeRun) : AttemptEvent → Option FreezeRun
  | .threw error =>
    match r.stage with
    | .done _ _ => none
    | _ => some (r.retry error)
  | .refused preflight message =>
    match r.stage with
    | .sending => if ∀ p ∈ preflight, r.req.slot ≤ p.1 then some (r.refused preflight message) else none
    | _ => none
  | .sent signature slot =>
    match r.stage with
    | .sending => if r.req.slot ≤ slot then some { r with stage := .confirming signature slot } else none
    | _ => none
  | .expired =>
    match r.stage with
    | .confirming _ _ => some (r.retry "blockhash expired before confirmation")
    | _ => none
  | .confirmed slot succeeded now =>
    match r.stage with
    | .confirming signature preflight =>
      if preflight ≤ slot then
        some { r with stage := .landed signature slot succeeded (now - r.req.observedAt) }
      else none
    | _ => none
  | .logged logs =>
    match r.stage with
    | .landed signature slot succeeded latencyMs =>
      some { r with stage := .done (outcome signature succeeded latencyMs logs) (some slot) }
    | _ => none

end FreezeRun

namespace Freezer

def initial : Freezer := ⟨fun _ => none, []⟩

def setRun (s : Freezer) (a : Pubkey) (r : Option FreezeRun) : Freezer := { s with inflight := update s.inflight a r }

def freeze (s : Freezer) (req : FreezeRequest) : Freezer :=
  match s.inflight req.tokenAccount with
  | some r => s.setRun req.tokenAccount (some { r with waiting := req :: r.waiting })
  | none => s.setRun req.tokenAccount (some ⟨req, [req], 1, .sending⟩)

def settle (s : Freezer) (a : Pubkey) (r : FreezeRun) : Option Freezer :=
  match r.stage with
  | .done outcome decidedAt =>
    some { s.setRun a none with answers := r.waiting.map (⟨·, outcome, decidedAt⟩) ++ s.answers }
  | _ => none

def next (s : Freezer) : FreezeEvent → Option Freezer
  | .freeze req => some (s.freeze req)
  | .attempt a e => (s.inflight a).bind fun r => (r.next e).map fun r' => s.setRun a (some r')
  | .settled a => (s.inflight a).bind (s.settle a)

def machine : Lts Freezer FreezeEvent where
  start s := s = initial
  step s e s' := s.next e = some s'

end Freezer

/-! ### One attempt -/

namespace FreezeRun

variable {r r' : FreezeRun} {e : AttemptEvent}

/-- What a run has read so far is not older than the request it was begun with, and only a run that came to nothing is over
without a deciding slot. -/
def Sound (r : FreezeRun) : Prop :=
  match r.stage with
  | .sending => True
  | .confirming _ preflight => r.req.slot ≤ preflight
  | .landed _ slot _ _ => r.req.slot ≤ slot
  | .done outcome (some slot) => outcome.isFailed = false ∧ r.req.slot ≤ slot
  | .done outcome none => outcome.isFailed = true

/-- The slot of the preflight, or of the execution, that decides the run with this event. -/
def decides (r : FreezeRun) : AttemptEvent → Option Nat
  | .refused (some (slot, logs)) _ => if programFailed logs then some slot else none
  | .logged _ =>
    match r.stage with
    | .landed _ slot _ _ => some slot
    | _ => none
  | _ => none

/-- An attempt leaves the requests of its run as they are, and ends it with an outcome where it is decided. -/
structure Steps (r : FreezeRun) (decided : Option Nat) (r' : FreezeRun) : Prop where
  req : r'.req = r.req
  waiting : r'.waiting = r.waiting
  running : ∀ outcome decidedAt, r.stage ≠ .done outcome decidedAt
  sound : r'.Sound
  decided : ∀ slot, (∃ outcome, r'.stage = .done outcome (some slot)) ↔ decided = some slot

theorem steps_retry (hrunning : ∀ outcome decidedAt, r.stage ≠ .done outcome decidedAt) (error : String) :
    r.Steps none (r.retry error) := by
  rw [retry]
  by_cases hlast : r.attempt = maxAttempts
  · rw [if_pos hlast]
    exact ⟨rfl, rfl, hrunning, rfl, by simp⟩
  · rw [if_neg hlast]
    exact ⟨rfl, rfl, hrunning, trivial, by simp⟩

theorem outcome_not_failed {signature : Nat} {succeeded : Bool} {latencyMs : Int} {logs : Option (List Text × Option Nat)} :
    (outcome signature succeeded latencyMs logs).isFailed = false := by
  rw [outcome]
  split
  · rfl
  · split <;> rfl

theorem steps_refused (hstage : r.stage = .sending) {preflight : Option (Nat × List Text)} {message : String}
    (hslot : ∀ p ∈ preflight, r.req.slot ≤ p.1) :
    r.Steps (r.decides (.refused preflight message)) (r.refused preflight message) := by
  have hrunning : ∀ outcome decidedAt, r.stage ≠ .done outcome decidedAt := by simp [hstage]
  unfold refused decides
  match preflight with
  | none => exact steps_retry hrunning _
  | some (slot, logs) =>
    have hslot : r.req.slot ≤ slot := hslot _ rfl
    dsimp only
    by_cases hfailed : programFailed logs = true
    · rw [if_pos hfailed, if_pos hfailed]
      rcases classifyLogs_failed logs with hverdict | ⟨code, hverdict⟩
      · rw [hverdict]
        exact ⟨rfl, rfl, hrunning, ⟨rfl, hslot⟩, by simp⟩
      · rw [hverdict]
        exact ⟨rfl, rfl, hrunning, ⟨rfl, hslot⟩, by simp⟩
    · rw [if_neg hfailed, if_neg hfailed]
      exact steps_retry hrunning _

theorem steps (hr : r.Sound) (h : r.next e = some r') : r.Steps (r.decides e) r' := by
  rw [Sound] at hr
  cases e with
  | threw error =>
    cases hstage : r.stage with
    | done outcome decidedAt => simp [next, hstage] at h
    | _ =>
      simp only [next, hstage, Option.some.injEq] at h
      subst h
      exact steps_retry (by simp [hstage]) _
  | refused preflight message =>
    cases hstage : r.stage with
    | sending =>
      simp only [next, hstage, Option.ite_none_right_eq_some, Option.some.injEq] at h
      obtain ⟨hslot, rfl⟩ := h
      exact steps_refused hstage hslot
    | _ => simp [next, hstage] at h
  | sent signature slot =>
    cases hstage : r.stage with
    | sending =>
      simp only [next, hstage, Option.ite_none_right_eq_some, Option.some.injEq] at h
      obtain ⟨hslot, rfl⟩ := h
      exact ⟨rfl, rfl, by simp [hstage], hslot, by simp [decides]⟩
    | _ => simp [next, hstage] at h
  | expired =>
    cases hstage : r.stage with
    | confirming signature preflight =>
      simp only [next, hstage, Option.some.injEq] at h
      subst h
      exact steps_retry (by simp [hstage]) _
    | _ => simp [next, hstage] at h
  | confirmed slot succeeded now =>
    cases hstage : r.stage with
    | confirming signature preflight =>
      simp only [next, hstage, Option.ite_none_right_eq_some, Option.some.injEq] at h
      obtain ⟨hslot, rfl⟩ := h
      rw [hstage] at hr
      exact ⟨rfl, rfl, by simp [hstage], hr.trans hslot, by simp [decides]⟩
    | _ => simp [next, hstage] at h
  | logged logs =>
    cases hstage : r.stage with
    | landed signature slot succeeded latencyMs =>
      simp only [next, hstage, Option.some.injEq] at h
      subst h
      rw [hstage] at hr
      exact ⟨rfl, rfl, by simp [hstage], ⟨outcome_not_failed, hr⟩, by simp [decides, hstage]⟩
    | _ => simp [next, hstage] at h

end FreezeRun

/-! ### Answers -/

/-- The outcome is that of no attempt, or was decided at a slot not below that of the request. -/
def FreezeAnswer.Fresh (x : FreezeAnswer) : Prop :=
  x.outcome.isFailed = true ∨ ∃ slot, x.decidedAt = some slot ∧ x.request.slot ≤ slot

def FreezeRun.Fresh (r : FreezeRun) : Prop :=
  ∀ outcome decidedAt, r.stage = .done outcome decidedAt → ∀ req ∈ r.waiting, FreezeAnswer.Fresh ⟨req, outcome, decidedAt⟩

/-- No requests newer than the one the run was begun with are newer than the slot. -/
def FreezeRun.NotNewer (r : FreezeRun) (requests : List FreezeRequest) (slot : Nat) : Prop :=
  ∀ req ∈ requests, r.req.slot < req.slot → req.slot ≤ slot

theorem FreezeRun.notNewer_iff {r : FreezeRun} {requests : List FreezeRequest} {slot : Nat} (hslot : r.req.slot ≤ slot) :
    r.NotNewer requests slot ↔ ∀ req ∈ requests, req.slot ≤ slot := by
  refine forall_congr' fun req => forall_congr' fun hmem => ⟨fun h => ?_, fun h _ => h⟩
  by_cases hnewer : r.req.slot < req.slot
  · exact h hnewer
  · omega

theorem FreezeRun.fresh_iff {r : FreezeRun} (hr : r.Sound) :
    r.Fresh ↔ ∀ slot, (∃ outcome, r.stage = .done outcome (some slot)) → r.NotNewer r.waiting slot := by
  rw [Sound] at hr
  cases hstage : r.stage with
  | done outcome decidedAt =>
    rw [hstage] at hr
    cases decidedAt with
    | none => simpa [Fresh, FreezeAnswer.Fresh, hstage] using fun _ _ => hr
    | some slot =>
      obtain ⟨houtcome, hslot⟩ := hr
      have hall : r.NotNewer r.waiting slot ↔ ∀ req ∈ r.waiting, req.slot ≤ slot := notNewer_iff hslot
      simp [Fresh, FreezeAnswer.Fresh, hstage, houtcome, hall]
  | _ => simp [Fresh, hstage]

namespace Freezer

variable {s s' : Freezer} {e : FreezeEvent}

/-- Every answer is fresh, those already given and those of the promises that are about to settle. -/
structure Fresh (s : Freezer) : Prop where
  given : ∀ x ∈ s.answers, x.Fresh
  settling : ∀ a r, s.inflight a = some r → r.Fresh

/-- An attempt is not decided at a slot below that of a newer request which shares it, and a request does not join a
run which was decided at a slot below its own. -/
def NotOvertaken (s : Freezer) (e : FreezeEvent) (_ : Freezer) : Prop :=
  match e with
  | .freeze req => ∀ r, s.inflight req.tokenAccount = some r →
      ∀ slot, (∃ outcome, r.stage = .done outcome (some slot)) → r.NotNewer [req] slot
  | .attempt a e => ∀ r, s.inflight a = some r → ∀ slot, r.decides e = some slot → r.NotNewer r.waiting slot
  | .settled _ => True

theorem forall_inflight {Q : FreezeRun → Prop} (a : Pubkey) :
    (∀ b r, s.inflight b = some r → Q r) ↔
      (∀ r, s.inflight a = some r → Q r) ∧ ∀ b, b ≠ a → ∀ r, s.inflight b = some r → Q r := by
  have hall := forall_update_iff s.inflight (fun _ x => ∀ r, x = some r → Q r) (a := a) (b := s.inflight a)
  rwa [update_eq_self] at hall

theorem forall_setRun {Q : FreezeRun → Prop} {a : Pubkey} {r : FreezeRun} :
    (∀ b r', (s.setRun a (some r)).inflight b = some r' → Q r') ↔
      Q r ∧ ∀ b, b ≠ a → ∀ r, s.inflight b = some r → Q r := by
  refine (forall_update_iff s.inflight fun _ x => ∀ r, x = some r → Q r).trans (and_congr_left' ?_)
  simp only [Option.some.injEq, forall_eq']

theorem forall_setRun_none {Q : FreezeRun → Prop} {a : Pubkey} :
    (∀ b r, (s.setRun a none).inflight b = some r → Q r) ↔ ∀ b, b ≠ a → ∀ r, s.inflight b = some r → Q r := by
  refine (forall_update_iff s.inflight fun _ x => ∀ r, x = some r → Q r).trans (and_iff_right ?_)
  exact nofun

/-- **Step.** What holds of a new run, and is kept by a request that joins and by every step of an attempt, is kept by
the freezer. -/
theorem forall_next {Q : FreezeRun → Prop} (hnew : ∀ req, Q ⟨req, [req], 1, .sending⟩)
    (hjoin : ∀ r requests, Q r → Q { r with waiting := requests }) (hattempt : ∀ r e r', Q r → r.next e = some r' → Q r')
    (h : s.next e = some s') (hs : ∀ a r, s.inflight a = some r → Q r) : ∀ a r, s'.inflight a = some r → Q r := by
  cases e with
  | freeze req =>
    obtain rfl := Option.some.inj h
    rw [freeze]
    cases hr : s.inflight req.tokenAccount with
    | some r => exact forall_setRun.2 ⟨hjoin r _ (hs _ r hr), fun b _ => hs b⟩
    | none => exact forall_setRun.2 ⟨hnew req, fun b _ => hs b⟩
  | attempt a e =>
    obtain ⟨r, hr, h⟩ := Option.bind_eq_some_iff.1 h
    obtain ⟨r', hr', rfl⟩ := Option.map_eq_some_iff.1 h
    exact forall_setRun.2 ⟨hattempt r e _ (hs a r hr) hr', fun b _ => hs b⟩
  | settled a =>
    obtain ⟨r, hr, h⟩ := Option.bind_eq_some_iff.1 h
    rw [settle] at h
    split at h
    · obtain rfl := Option.some.inj h
      exact forall_setRun_none.2 fun b _ => hs b
    · cases h

theorem sound_of_reachable (h : machine.Reachable s) : ∀ a r, s.inflight a = some r → r.Sound := by
  refine h.invariant (I := fun s => ∀ a r, s.inflight a = some r → r.Sound) ?_ fun s e s' hs hnext => ?_
  · rintro s rfl a r hr
    cases hr
  · exact forall_next (fun _ => trivial) (fun _ _ => id) (fun _ _ _ hr hr' => (FreezeRun.steps hr hr').sound) hnext hs

theorem fresh_iff : s.Fresh ↔ (∀ x ∈ s.answers, x.Fresh) ∧ ∀ a r, s.inflight a = some r → r.Fresh :=
  ⟨fun h => ⟨h.given, h.settling⟩, fun h => ⟨h.1, h.2⟩⟩

/-- **Step.** Every answer stays fresh exactly when no request is overtaken. -/
theorem fresh_next (hsound : ∀ a r, s.inflight a = some r → r.Sound) (h : s.next e = some s') :
    s'.Fresh ↔ s.Fresh ∧ s.NotOvertaken e s' := by
  cases e with
  | freeze req =>
    obtain rfl := Option.some.inj h
    rw [freeze, NotOvertaken]
    cases hr : s.inflight req.tokenAccount with
    | some r =>
      have hjoined : FreezeRun.Sound { r with waiting := req :: r.waiting } := hsound _ r hr
      have hfresh : FreezeRun.Fresh { r with waiting := req :: r.waiting } ↔
          r.Fresh ∧ ∀ slot, (∃ outcome, r.stage = .done outcome (some slot)) → r.NotNewer [req] slot := by
        rw [FreezeRun.fresh_iff hjoined, FreezeRun.fresh_iff (hsound _ r hr), ← forall_and]
        refine forall_congr' fun slot => ?_
        rw [← forall_and]
        refine forall_congr' fun _ => ?_
        simp [FreezeRun.NotNewer, and_comm]
      rw [fresh_iff, fresh_iff, forall_setRun, forall_inflight (s := s) req.tokenAccount, hr, hfresh]
      simp only [Option.some.injEq, forall_eq']
      tauto
    | none =>
      rw [fresh_iff, fresh_iff, forall_setRun, forall_inflight (s := s) req.tokenAccount, hr]
      have hnew : FreezeRun.Fresh ⟨req, [req], 1, .sending⟩ := nofun
      simp [hnew, setRun]
  | attempt a e =>
    obtain ⟨r, hr, h⟩ := Option.bind_eq_some_iff.1 h
    obtain ⟨r', hr', rfl⟩ := Option.map_eq_some_iff.1 h
    have hsteps := FreezeRun.steps (hsound a r hr) hr'
    have hfresh : r.Fresh := fun _ _ hstage => absurd hstage (hsteps.running _ _)
    have hdecided : r'.Fresh ↔ ∀ slot, r.decides e = some slot → r.NotNewer r.waiting slot := by
      rw [FreezeRun.fresh_iff hsteps.sound]
      refine forall_congr' fun slot => ?_
      rw [hsteps.decided, FreezeRun.NotNewer, hsteps.req, hsteps.waiting]
      rfl
    rw [fresh_iff, fresh_iff, forall_setRun, forall_inflight (s := s) a, hr, NotOvertaken, hr, hdecided]
    simp only [Option.some.injEq, forall_eq', setRun]
    tauto
  | settled a =>
    obtain ⟨r, hr, h⟩ := Option.bind_eq_some_iff.1 h
    rw [settle] at h
    split at h
    · rename_i outcome decidedAt hstage
      obtain rfl := Option.some.inj h
      have hanswers : r.Fresh ↔ ∀ req ∈ r.waiting, FreezeAnswer.Fresh ⟨req, outcome, decidedAt⟩ := by
        simp [FreezeRun.Fresh, hstage]
      rw [fresh_iff, fresh_iff, forall_inflight (s := s) a, hr]
      simp only [Option.some.injEq, forall_eq', hanswers, List.forall_mem_append, List.forall_mem_map, NotOvertaken]
      have hrest := forall_setRun_none (s := s) (Q := FreezeRun.Fresh) (a := a)
      simp only [setRun] at hrest ⊢
      tauto
    · cases h

/-- In a run of the freezer every answer is of a state not older than the request exactly when no request is overtaken. -/
theorem notOvertaken_iff (h : List FreezeEvent) (s : Freezer) (r : machine.Run h s) :
    (machine.restrict NotOvertaken).Run h s ↔ s.Fresh := by
  refine r.restrict_iff ?_ fun s e s' hs hnext => fresh_next (sound_of_reachable hs) hnext
  rintro s rfl
  exact ⟨nofun, nofun⟩

/-! ### Samples -/

def compliantLogs : List Text :=
  [programText "TACLkU6CiCdkQN2MjoyDkVg2yAH9zkxiHDsiztQ52TP".toList "invoke [1]".toList,
    programText gateIdText "invoke [2]".toList, "Program log: TG:DENY:COMPLIANT".toList,
    programText gateIdText "failed: custom program error: 0x1783".toList,
    programText "TACLkU6CiCdkQN2MjoyDkVg2yAH9zkxiHDsiztQ52TP".toList "failed: custom program error: 0x1783".toList]

def sampleRequest (slot : Nat) : FreezeRequest := ⟨sampleKey 1, 0, some slot⟩

/-- The owner is flagged at slot 7, while the preflight that ran at slot 6 is on its way back. -/
def overtakenSample : List FreezeEvent :=
  [.freeze (sampleRequest 5), .freeze (sampleRequest 7), .attempt (sampleKey 1) (.refused (some (6, compliantLogs)) ""),
    .settled (sampleKey 1)]

theorem overtakenSample_answers : ∃ s, machine.Run overtakenSample.reverse s ∧
    ⟨sampleRequest 7, .compliant, some 6⟩ ∈ s.answers := by
  have hcomputed : ∃ s, overtakenSample.foldlM next initial = some s ∧
      ⟨sampleRequest 7, .compliant, some 6⟩ ∈ s.answers := by
    refine ⟨_, rfl, ?_⟩
    decide +kernel
  obtain ⟨s, hs, hanswer⟩ := hcomputed
  have hrun := Lts.Run.of_foldlM (L := machine) (fun _ _ _ => id) hs (.start rfl)
  exact ⟨s, by rwa [List.append_nil] at hrun, hanswer⟩

theorem not_fresh_of_older {s : Freezer} (h : ⟨sampleRequest 7, .compliant, some 6⟩ ∈ s.answers) : ¬s.Fresh := by
  intro hfresh
  rcases hfresh.given _ h with hfailed | ⟨slot, hslot, hle⟩
  · cases hfailed
  · cases hslot
    exact absurd hle (by decide)

theorem notOvertaken_sample : ∃ s, machine.Run overtakenSample.reverse s ∧
    ¬(machine.restrict NotOvertaken).Run overtakenSample.reverse s := by
  obtain ⟨s, hrun, hanswer⟩ := overtakenSample_answers
  exact ⟨s, hrun, fun hr => not_fresh_of_older hanswer ((notOvertaken_iff _ s hrun).1 hr)⟩

/-- The trigger seen at slot 7 is answered as compliant, by a preflight at slot 6. -/
theorem answered_by_older_state : ∃ h s, machine.Run h s ∧
    ⟨sampleRequest 7, .compliant, some 6⟩ ∈ s.answers ∧ ¬s.Fresh := by
  obtain ⟨s, hrun, hanswer⟩ := overtakenSample_answers
  exact ⟨_, s, hrun, hanswer, not_fresh_of_older hanswer⟩

end Freezer

end ThawGate.Keeper
