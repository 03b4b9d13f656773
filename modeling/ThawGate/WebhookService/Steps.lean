import ThawGate.Lib.Table
import ThawGate.WebhookService.Service

/-!
# What a step of the webhook service does

`Stepped` lists the steps, each with what it found and the state it left, and `next_stepped` says that these are all.
The invariants of the service are proved by its cases.
-/

namespace ThawGate.WebhookService

open Logs (Text)

variable {V : Type} {svc : Service V} {s s' : State V} {label : Label V}

section stepped

variable (svc : Service V) (s : State V)

inductive Stepped : Label V → State V → Prop
  | registered {url secret : Text} {events : List Text} :
    Stepped (.register url secret events) { s with webhooks := s.webhooks ++ [⟨url, secret, events, true⟩] }
  | refused {url secret : Text} {events : List Text} : Stepped (.register url secret events) s
  | removed {id : Nat} :
    Stepped (.remove id) { s with webhooks := s.webhooks.modify id ({ · with active := false }) }
  | requested {event : Text} {mintAddress : Option Text} {payload : List (Text × V)} :
    Stepped (.deliver event mintAddress payload)
      { s with requests := s.requests ++ [⟨event, body svc event mintAddress payload, [], .finding⟩] }
  | found {r : Nat} {req : Request V} {found : List (Nat × Webhook)} (hr : s.requests[r]? = some req)
    (hp : req.phase = .finding) (hfound : found.Perm (matching s.webhooks req.event)) :
    Stepped (.finds r found) (s.setRequest r { req with phase := .creating found })
  | created {label : Label V} {r id : Nat} {req req' : Request V} {w : Webhook} {rest : List (Nat × Webhook)}
    (hr : s.requests[r]? = some req) (hp : req.phase = .creating ((id, w) :: rest))
    (hreq : req' = { req with phase := .adding w s.deliveries.length rest } ∨ ∃ message, req' = req.failed message) :
    Stepped label ((s.createDelivery id req).setRequest r req')
  | added {label : Label V} {r d : Nat} {req req' : Request V} {w : Webhook} {rest : List (Nat × Webhook)}
    (hr : s.requests[r]? = some req) (hp : req.phase = .adding w d rest)
    (hreq : req' = { req with phase := .creating rest, deliveryIds := req.deliveryIds ++ [d] } ∨
      ∃ message, req' = req.failed message) :
    Stepped label ((s.addJob w d req).setRequest r req')
  | answered {r : Nat} {req : Request V} (hr : s.requests[r]? = some req) (hp : req.phase = .creating []) :
    Stepped (.proceeds r) (s.setRequest r { req with phase := .replied (.ok req.deliveryIds) })
  /-- A call throws that has had no effect. -/
  | broke {r : Nat} {req : Request V} {effect : Bool} {message : Option Text} (hr : s.requests[r]? = some req) :
    Stepped (.breaks r effect message) (s.setRequest r (req.failed message))
  | taken {j : Nat} {job : Job V} (hj : s.jobs[j]? = some job) (hw : job.state = .waiting) :
    Stepped (.takes j) (s.take j job)
  | fetched {label : Label V} {e : Nat} {x x' : Execution V} (he : s.executions[e]? = some x)
    (hpc : x.pc = .fetching)
    (hx : (∃ status statusText, x' = x.respond status statusText) ∨ ∃ message, x' = x.throws message) :
    Stepped label (s.setExecution e x')
  | written {e lastAttempt now : Nat} {x : Execution V} {resolved : Bool} (he : s.executions[e]? = some x)
    (hpc : x.pc = .answered ∧ resolved = true ∨ (∃ message, x.pc = .caught message) ∧ resolved = false) :
    Stepped (.writes e lastAttempt now)
      ((s.write x lastAttempt now).setExecution e { x with pc := .settled resolved })
  | unwritten {e lastAttempt now : Nat} {x : Execution V} {s₁ : State V} {effect : Bool} {message : Text}
    (he : s.executions[e]? = some x) (hpc : x.pc = .answered ∨ ∃ message, x.pc = .caught message)
    (hs : s₁ = s ∨ effect = true ∧ s₁ = s.write x lastAttempt now) :
    Stepped (.unwritten e lastAttempt now effect message) (s₁.setExecution e (x.throws message))
  | settled {e : Nat} {x : Execution V} {resolved : Bool} (he : s.executions[e]? = some x)
    (hpc : x.pc = .settled resolved) : Stepped (.settles e) (s.settle e x resolved)
  | stalled {j e : Nat} {job : Job V} (hj : s.jobs[j]? = some job) (ha : job.state = .active e) :
    Stepped (.stalls j) (s.setJob j (job.stalled svc))

end stepped

theorem find_stepped {r : Nat} {found : List (Nat × Webhook)} {req : Request V} (hr : s.requests[r]? = some req)
    (hs : s.find r found req = some s') : Stepped svc s (.finds r found) s' := by
  unfold State.find at hs
  split at hs
  case h_1 hp =>
    obtain ⟨hfound, heq⟩ := Option.ite_none_right_eq_some.1 hs
    obtain rfl := Option.some.inj heq
    exact .found hr hp hfound
  case h_2 => contradiction

theorem proceed_stepped {r : Nat} {req : Request V} (hr : s.requests[r]? = some req)
    (hs : s.proceed r req = some s') : Stepped svc s (.proceeds r) s' := by
  unfold State.proceed at hs
  split at hs
  case h_1 => contradiction
  case h_2 hp =>
    obtain rfl := Option.some.inj hs
    exact .created hr hp (.inl rfl)
  case h_3 hp =>
    obtain rfl := Option.some.inj hs
    exact .answered hr hp
  case h_4 hp =>
    obtain rfl := Option.some.inj hs
    exact .added hr hp (.inl rfl)
  case h_5 => contradiction

theorem breakOff_stepped {r : Nat} {req : Request V} {effect : Bool} {message : Option Text}
    (hr : s.requests[r]? = some req) (hs : s.breakOff r effect message req = some s') :
    Stepped svc s (.breaks r effect message) s' := by
  cases effect with
  | false =>
    unfold State.breakOff at hs
    split at hs <;> try contradiction
    obtain rfl := Option.some.inj hs
    exact .broke hr
  | true =>
    obtain ⟨event, payload, ids, phase⟩ := req
    simp only [State.breakOff, State.callEffect] at hs
    match phase, hs with
    | .finding, rfl => exact .broke hr
    | .creating ((id, w) :: rest), rfl => exact .created hr rfl (.inr ⟨message, rfl⟩)
    | .adding w d rest, rfl => exact .added hr rfl (.inr ⟨message, rfl⟩)

theorem next_stepped (hs : s.next svc label = some s') : Stepped svc s label s' := by
  cases label <;> simp only [State.next] at hs
  case register url secret events =>
    obtain rfl := Option.some.inj hs
    split_ifs
    · exact .registered
    · exact .refused
  case remove id =>
    obtain rfl := Option.some.inj hs
    exact .removed
  case deliver event mintAddress payload =>
    obtain rfl := Option.some.inj hs
    exact .requested
  case finds r found =>
    obtain ⟨req, hr, hs⟩ := Option.bind_eq_some_iff.1 hs
    exact find_stepped hr hs
  case proceeds r =>
    obtain ⟨req, hr, hs⟩ := Option.bind_eq_some_iff.1 hs
    exact proceed_stepped hr hs
  case breaks r effect message =>
    obtain ⟨req, hr, hs⟩ := Option.bind_eq_some_iff.1 hs
    exact breakOff_stepped hr hs
  case takes j =>
    obtain ⟨job, hj, hs⟩ := Option.bind_eq_some_iff.1 hs
    split_ifs at hs with hw
    obtain rfl := Option.some.inj hs
    exact .taken hj hw
  case responds e status statusText =>
    obtain ⟨x, he, hs⟩ := Option.bind_eq_some_iff.1 hs
    split_ifs at hs with hpc
    obtain rfl := Option.some.inj hs
    exact .fetched he hpc (.inl ⟨status, statusText, rfl⟩)
  case unanswered e message =>
    obtain ⟨x, he, hs⟩ := Option.bind_eq_some_iff.1 hs
    split_ifs at hs with hpc
    obtain rfl := Option.some.inj hs
    exact .fetched he hpc (.inr ⟨message, rfl⟩)
  case writes e lastAttempt now =>
    obtain ⟨x, he, hs⟩ := Option.bind_eq_some_iff.1 hs
    split at hs
    case h_1 hpc =>
      obtain rfl := Option.some.inj hs
      exact .written he (.inl ⟨hpc, rfl⟩)
    case h_2 message hpc =>
      obtain rfl := Option.some.inj hs
      exact .written he (.inr ⟨⟨message, hpc⟩, rfl⟩)
    case h_3 => contradiction
  case unwritten e lastAttempt now effect message =>
    obtain ⟨x, he, hs⟩ := Option.bind_eq_some_iff.1 hs
    have hwritten : (if effect then s.write x lastAttempt now else s) = s ∨
        effect = true ∧ (if effect then s.write x lastAttempt now else s) = s.write x lastAttempt now := by
      cases effect
      · exact .inl rfl
      · exact .inr ⟨rfl, rfl⟩
    split at hs
    case h_1 hpc =>
      obtain rfl := Option.some.inj hs
      exact .unwritten he (.inl hpc) hwritten
    case h_2 message' hpc =>
      obtain rfl := Option.some.inj hs
      exact .unwritten he (.inr ⟨message', hpc⟩) hwritten
    case h_3 => contradiction
  case settles e =>
    obtain ⟨x, he, hs⟩ := Option.bind_eq_some_iff.1 hs
    split at hs
    case h_1 resolved hpc =>
      obtain rfl := Option.some.inj hs
      exact .settled he hpc
    case h_2 => contradiction
  case stalls j =>
    obtain ⟨job, hj, hs⟩ := Option.bind_eq_some_iff.1 hs
    split at hs
    case h_1 e ha =>
      obtain rfl := Option.some.inj hs
      exact .stalled hj ha
    case h_2 => contradiction

/-! ### What `settle` does -/

/-- Either the execution held the lock of its job, which is settled, or the queue is as it was. -/
theorem settle_cases (e : Nat) (x : Execution V) (resolved : Bool) :
    (∃ job, s.jobs[x.job]? = some job ∧ job.state = .active e ∧ s.settle e x resolved =
      (s.setExecution e { x with pc := .over resolved }).setJob x.job (job.settled resolved)) ∨
    (∀ job, s.jobs[x.job]? = some job → job.state ≠ .active e) ∧
      s.settle e x resolved = s.setExecution e { x with pc := .over resolved } := by
  unfold State.settle
  cases hj : s.jobs[x.job]? with
  | none => exact .inr ⟨by simp, rfl⟩
  | some job =>
    by_cases ha : job.state = .active e
    · exact .inl ⟨job, rfl, ha, by simp only [if_pos ha]⟩
    · exact .inr ⟨by simpa using ha, by simp only [if_neg ha]⟩

/-! ### An execution goes on -/

namespace Execution

/-- What stays of an execution: what it was called with, the endpoint's answer, and that it has failed. -/
structure Leads (x x' : Execution V) : Prop where
  job : x'.job = x.job
  attemptsMade : x'.attemptsMade = x.attemptsMade
  data : x'.data = x.data
  status : ∀ n, x.status = some n → x'.status = some n
  rejecting : x.rejecting = true → x'.rejecting = true

variable {x x' : Execution V}

theorem Leads.refl : Leads x x := ⟨rfl, rfl, rfl, fun _ => id, id⟩

/-- The endpoint answers once, while the request is out, and only an ok leads to a processor that resolves. -/
structure Sound (x : Execution V) : Prop where
  unanswered : x.pc = .fetching → x.status = none
  accepted : x.pc = .answered ∨ x.pc = .settled true ∨ x.pc = .over true → x.accepted = true

/-- One call of the processor returns or throws. -/
inductive Goes (x : Execution V) : Execution V → Prop
  | responds {status : Nat} {statusText : Text} (hpc : x.pc = .fetching) : Goes x (x.respond status statusText)
  | throws {message : Text} (hpc : x.pc = .fetching ∨ x.pc = .answered ∨ ∃ message, x.pc = .caught message) :
    Goes x (x.throws message)
  | written {resolved : Bool}
    (hpc : x.pc = .answered ∧ resolved = true ∨ (∃ message, x.pc = .caught message) ∧ resolved = false) :
    Goes x { x with pc := .settled resolved }
  | ends {resolved : Bool} (hpc : x.pc = .settled resolved) : Goes x { x with pc := .over resolved }

theorem Goes.leads (hg : x.Goes x') (hx : x.Sound) : x.Leads x' := by
  cases hg with
  | responds hpc =>
    refine ⟨rfl, rfl, rfl, ?_, ?_⟩
    · simp [hx.unanswered hpc]
    · simp [rejecting, hpc]
  | throws hpc =>
    refine ⟨rfl, rfl, rfl, fun _ => id, fun _ => ?_⟩
    obtain hpc | hpc | ⟨message, hpc⟩ := hpc <;> simp [Execution.throws, rejecting, hpc]
  | written hpc =>
    refine ⟨rfl, rfl, rfl, fun _ => id, fun hr => ?_⟩
    obtain ⟨hpc, rfl⟩ | ⟨-, rfl⟩ := hpc
    · simp [rejecting, hpc] at hr
    · rfl
  | @ends resolved hpc =>
    refine ⟨rfl, rfl, rfl, fun _ => id, fun hr => ?_⟩
    cases resolved with
    | false => rfl
    | true => simp [rejecting, hpc] at hr

theorem Goes.sound (hg : x.Goes x') (hx : x.Sound) : x'.Sound := by
  cases hg with
  | @responds status statusText hpc =>
    by_cases hok : ok status <;>
      exact ⟨by simp [respond, hok], by simp [respond, accepted, hok]⟩
  | throws hpc =>
    obtain hpc | hpc | ⟨message, hpc⟩ := hpc <;>
      exact ⟨by simp [Execution.throws, hpc], by simp [Execution.throws, hpc]⟩
  | written hpc =>
    refine ⟨by simp, fun h => ?_⟩
    obtain ⟨hpc, -⟩ | ⟨-, rfl⟩ := hpc
    · exact hx.accepted (.inl hpc)
    · simp at h
  | @ends resolved hpc =>
    refine ⟨by simp, fun h => hx.accepted (.inr (.inl ?_))⟩
    rw [hpc]
    simpa using h

/-- No call goes on after the end. -/
theorem Goes.not_over (hg : x.Goes x') {resolved : Bool} : x.pc ≠ .over resolved := by
  cases hg with
  | responds hpc => simp [hpc]
  | throws hpc => obtain hpc | hpc | ⟨message, hpc⟩ := hpc <;> simp [hpc]
  | written hpc => obtain ⟨hpc, -⟩ | ⟨⟨message, hpc⟩, -⟩ := hpc <;> simp [hpc]
  | ends hpc => simp [hpc]

end Execution

/-- A step leaves the executions, or one of them goes on, or a worker takes a job. -/
theorem Stepped.executions (hs : Stepped svc s label s') :
    s'.executions = s.executions ∨
    (∃ e x x', s.executions[e]? = some x ∧ x.Goes x' ∧ s'.executions = s.executions.set e x') ∨
    ∃ j job, s.jobs[j]? = some job ∧ job.state = .waiting ∧
      s'.executions = s.executions ++ [⟨j, job.attemptsMade, job.data, .fetching, none⟩] := by
  cases hs with
  | registered | refused | removed | requested | found | created | added | answered | broke | stalled =>
    exact .inl rfl
  | taken hj hw => exact .inr (.inr ⟨_, _, hj, hw, rfl⟩)
  | fetched he hpc hx =>
    refine .inr (.inl ⟨_, _, _, he, ?_, rfl⟩)
    obtain ⟨status, statusText, rfl⟩ | ⟨message, rfl⟩ := hx
    · exact .responds hpc
    · exact .throws (.inl hpc)
  | written he hpc => exact .inr (.inl ⟨_, _, _, he, .written hpc, rfl⟩)
  | @unwritten e _ _ x s₁ effect message he hpc hs₁ =>
    refine .inr (.inl ⟨e, x, x.throws message, he, .throws (.inr hpc), ?_⟩)
    obtain rfl | ⟨-, rfl⟩ := hs₁ <;> rfl
  | @settled e x resolved he hpc =>
    refine .inr (.inl ⟨_, _, _, he, .ends hpc, ?_⟩)
    obtain ⟨job, hj, ha, heq⟩ | ⟨-, heq⟩ := settle_cases (s := s) e x resolved <;> rw [heq] <;> rfl

/-- A step leaves the requests, or one of them goes on with the fields that it came with, or one begins. -/
theorem Stepped.requests (hs : Stepped svc s label s') :
    s'.requests = s.requests ∨
    (∃ r req req', s.requests[r]? = some req ∧ req'.event = req.event ∧ req'.payload = req.payload ∧
      s'.requests = s.requests.set r req') ∨
    ∃ event mintAddress payload, label = .deliver event mintAddress payload ∧
      s'.requests = s.requests ++ [⟨event, body svc event mintAddress payload, [], .finding⟩] := by
  cases hs with
  | registered | refused | removed | taken | fetched | written | stalled => exact .inl rfl
  | @unwritten e _ _ x s₁ effect message he hpc hs₁ =>
    obtain rfl | ⟨-, rfl⟩ := hs₁ <;> exact .inl rfl
  | @settled e x resolved he hpc =>
    obtain ⟨job, hj, ha, heq⟩ | ⟨-, heq⟩ := settle_cases (s := s) e x resolved <;> rw [heq] <;> exact .inl rfl
  | requested => exact .inr (.inr ⟨_, _, _, rfl, rfl⟩)
  | found hr | answered hr | broke hr => refine .inr (.inl ⟨_, _, _, hr, ?_, ?_, rfl⟩) <;> rfl
  | created hr hp hreq | added hr hp hreq =>
    refine .inr (.inl ⟨_, _, _, hr, ?_, ?_, rfl⟩) <;> obtain rfl | ⟨message, rfl⟩ := hreq <;> rfl

def Sound (s : State V) : Prop := ∀ (e : Nat) (x : Execution V), s.executions[e]? = some x → x.Sound

theorem Stepped.sound (hs : Stepped svc s label s') (hx : Sound s) : Sound s' := by
  intro e y hy
  obtain heq | ⟨e', x, x', he, hg, heq⟩ | ⟨j, job, -, -, heq⟩ := hs.executions <;> rw [heq] at hy
  · exact hx e y hy
  · obtain ⟨rfl, rfl⟩ | ⟨-, hy⟩ := (Table.set_eq_some he).1 hy
    · exact hg.sound (hx e x he)
    · exact hx e y hy
  · obtain hy | ⟨-, rfl⟩ := Table.added_eq_some.1 hy
    · exact hx e y hy
    · exact ⟨fun _ => rfl, by simp⟩

/-- An execution stays, less where it is. -/
theorem Stepped.leads (hs : Stepped svc s label s') (hsound : Sound s) {e : Nat} {x : Execution V}
    (he : s.executions[e]? = some x) : ∃ x', s'.executions[e]? = some x' ∧ x.Leads x' := by
  obtain heq | ⟨e', y, y', he', hg, heq⟩ | ⟨j, job, -, -, heq⟩ := hs.executions <;> rw [heq]
  · exact ⟨x, he, .refl⟩
  · by_cases hee : e = e'
    · subst hee
      obtain rfl := Option.some.inj (he.symm.trans he')
      exact ⟨y', Table.set_self he, hg.leads (hsound e x he)⟩
    · exact ⟨x, (Table.set_eq_some he').2 (.inr ⟨hee, he⟩), .refl⟩
  · exact ⟨x, Table.added_of he, .refl⟩

end ThawGate.WebhookService
