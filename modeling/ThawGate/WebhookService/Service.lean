import Mathlib.Algebra.Group.Nat.Defs
import Mathlib.Data.List.Perm.Basic
import ThawGate.Lib.Run
import ThawGate.Logs.Lines

/-!
# The webhook service

Subscriptions (`webhook` rows), deliveries (`webhookDelivery` rows) and the BullMQ queue between them. `POST /deliver`
writes one row and adds one job for each subscribed webhook. A worker takes a job, posts its payload to the webhook's
URL and writes the outcome to the row. `deliveries` is the transition system: JavaScript yields at every `await`, so
each call of a handler or of a processor is a step of its own, and between two steps come any others.

The queue behaves as documented. A job is processed with `attemptsMade`, the number of attempts that ended before. One
that rejects is retried while `attemptsMade + 1 < attempts`. A job whose worker does not renew its lock is stalled: it
goes back to the queue, at most `maxStalledCount` times, and the processor that held it may still be running.
-/

namespace ThawGate.WebhookService

open Logs (Text)

/-- What the service calls. `V` is the type of JSON values. -/
structure Service (V : Type) where
  /-- `new URL(text)` does not throw. -/
  isUrl : Text → Bool
  text : Text → V
  /-- `JSON.stringify` of the object that gets these fields in this order. (It lists keys that are integers first.) -/
  stringify : List (Text × V) → Text
  /-- `createHmac("sha256", key).update(data).digest("hex")` -/
  hmac : Text → Text → Text
  maxStalledCount : Nat

variable {V : Type}

/-! ### Rows -/

/-- A subscription. Its id is its place in the table, as for the other rows. -/
structure Webhook where
  url : Text
  secret : Text
  events : List Text
  active : Bool
  deriving DecidableEq, Repr

inductive DeliveryStatus where
  | pending
  | delivered
  | failed
  | retrying
  deriving DecidableEq, Repr

/-- Times are in milliseconds. -/
structure WebhookDelivery (V : Type) where
  webhookId : Nat
  event : Text
  payload : List (Text × V)
  status : DeliveryStatus
  attempts : Nat
  lastAttempt : Option Nat
  nextRetry : Option Nat
  response : Option Text
  deriving DecidableEq

/-- `{ active: true, events: { has: event } }` -/
def Webhook.Matches (w : Webhook) (event : Text) : Prop := w.active = true ∧ event ∈ w.events

instance (w : Webhook) (event : Text) : Decidable (w.Matches event) := inferInstanceAs (Decidable (_ ∧ _))

/-- What `findMany` finds, in some order: the ids and rows that subscribe. -/
def matching (webhooks : List Webhook) (event : Text) : List (Nat × Webhook) :=
  webhooks.zipIdx.filterMap fun (w, id) => if w.Matches event then some (id, w) else none

theorem mem_matching {webhooks : List Webhook} {event : Text} {id : Nat} {w : Webhook} :
    (id, w) ∈ matching webhooks event ↔ webhooks[id]? = some w ∧ w.Matches event := by
  simp only [matching, List.mem_filterMap, Prod.exists, List.mem_zipIdx_iff_getElem?, Option.ite_none_right_eq_some,
    Option.some.injEq, Prod.mk.injEq]
  constructor
  · rintro ⟨w', id', hw, hmatches, rfl, rfl⟩
    exact ⟨hw, hmatches⟩
  · rintro ⟨hw, hmatches⟩
    exact ⟨w, id, hw, hmatches, rfl, rfl⟩

/-- `{ ...fields, [entry.1]: entry.2 }`: a key that is there keeps its place. -/
def assign (fields : List (Text × Option V)) (entry : Text × V) : List (Text × Option V) :=
  if fields.any (·.1 = entry.1) then fields.map fun f => if f.1 = entry.1 then (f.1, some entry.2) else f
  else fields ++ [(entry.1, some entry.2)]

/-- `{ event, mintAddress, ...payload }`, less what is undefined. -/
def body (svc : Service V) (event : Text) (mintAddress : Option Text) (payload : List (Text × V)) :
    List (Text × V) :=
  (payload.foldl assign [("event".toList, some (svc.text event)), ("mintAddress".toList, mintAddress.map svc.text)])
    |>.filterMap fun (key, value) => value.map (key, ·)

/-! ### Jobs -/

structure JobData (V : Type) where
  url : Text
  payload : List (Text × V)
  deliveryId : Nat
  secret : Text
  deriving DecidableEq

inductive JobState where
  | waiting
  /-- The place of the execution that holds the lock. -/
  | active (execution : Nat)
  | completed
  | failed
  deriving DecidableEq, Repr

structure Job (V : Type) where
  data : JobData V
  attemptsMade : Nat
  stalledCount : Nat
  state : JobState
  deriving DecidableEq

def attempts : Nat := 3

def Job.added (data : JobData V) : Job V := ⟨data, 0, 0, .waiting⟩

/-- The processor of the lock's holder has resolved or rejected. -/
def Job.settled (job : Job V) (resolved : Bool) : Job V :=
  { job with
    attemptsMade := job.attemptsMade + 1
    state := if resolved then .completed else if job.attemptsMade + 1 < attempts then .waiting else .failed }

def Job.stalled (svc : Service V) (job : Job V) : Job V :=
  { job with
    stalledCount := job.stalledCount + 1
    state := if job.stalledCount + 1 > svc.maxStalledCount then .failed else .waiting }

inductive Pc where
  | fetching
  | answered
  | caught (message : Text)
  | settled (resolved : Bool)
  | over (resolved : Bool)
  deriving DecidableEq, Repr

structure Execution (V : Type) where
  job : Nat
  attemptsMade : Nat
  data : JobData V
  pc : Pc
  status : Option Nat
  deriving DecidableEq

def ok (status : Nat) : Bool := 200 ≤ status ∧ status ≤ 299

structure Post where
  deliveryId : Nat
  url : Text
  body : Text
  signature : Text
  deriving DecidableEq

namespace Execution

variable (x : Execution V)

def post (svc : Service V) : Post where
  deliveryId := x.data.deliveryId
  url := x.data.url
  body := svc.stringify x.data.payload
  signature := "sha256=".toList ++ svc.hmac x.data.secret (svc.stringify x.data.payload)

def accepted : Bool := x.status.any ok

/-- The processor has reached its `catch`. -/
def rejecting : Bool :=
  match x.pc with
  | .caught _ | .settled false | .over false => true
  | _ => false

/-- What is written to the row at the two `update` calls. The second one reads the clock twice. -/
def write (lastAttempt now : Nat) (d : WebhookDelivery V) : WebhookDelivery V :=
  match x.pc with
  | .answered =>
    { d with
      status := .delivered
      lastAttempt := some lastAttempt
      attempts := x.attemptsMade + 1
      response := some ("HTTP ".toList ++ (toString (x.status.getD 0)).toList) }
  | .caught message =>
    { d with
      status := if x.attemptsMade + 1 ≥ 3 then .failed else .retrying
      lastAttempt := some lastAttempt
      attempts := x.attemptsMade + 1
      response := some message
      nextRetry := if x.attemptsMade + 1 < 3 then some (now + 1000 * 2 ^ x.attemptsMade) else none }
  | _ => d

def respond (status : Nat) (statusText : Text) : Execution V :=
  { x with
    status := some status
    pc := if ok status then .answered
      else .caught ("HTTP ".toList ++ (toString status).toList ++ ": ".toList ++ statusText) }

/-- The call the processor waits for throws: the `catch` takes it, and what the `catch` calls rejects. -/
def throws (message : Text) : Execution V :=
  { x with
    pc := match x.pc with
      | .fetching | .answered => .caught message
      | .caught _ => .settled false
      | pc => pc }

end Execution

/-! ### `POST /deliver` -/

inductive RequestPhase (V : Type) where
  | finding
  /-- Before a row, or the reply. -/
  | creating (rest : List (Nat × Webhook))
  | adding (webhook : Webhook) (deliveryId : Nat) (rest : List (Nat × Webhook))
  /-- The ids in the reply, or the error with status code 500. -/
  | replied (deliveryIds : Except Text (List Nat))
  deriving DecidableEq

structure Request (V : Type) where
  event : Text
  payload : List (Text × V)
  deliveryIds : List Nat
  phase : RequestPhase V
  deriving DecidableEq

def Request.failed (req : Request V) (message : Option Text) : Request V :=
  { req with phase := .replied (.error (message.getD "Failed to enqueue deliveries".toList)) }

/-! ### The system -/

structure State (V : Type) where
  webhooks : List Webhook
  deliveries : List (WebhookDelivery V)
  jobs : List (Job V)
  executions : List (Execution V)
  requests : List (Request V)
  deriving DecidableEq

inductive Label (V : Type) where
  /-- `POST /subscriptions`, with the secret it draws. -/
  | register (url secret : Text) (events : List Text)
  | remove (webhookId : Nat)
  | deliver (event : Text) (mintAddress : Option Text) (payload : List (Text × V))
  | finds (request : Nat) (found : List (Nat × Webhook))
  /-- The request's next call returns, or it replies. -/
  | proceeds (request : Nat)
  /-- The request's next call throws. It may have taken effect all the same. -/
  | breaks (request : Nat) (effect : Bool) (message : Option Text)
  | takes (job : Nat)
  | responds (execution : Nat) (status : Nat) (statusText : Text)
  /-- `fetch` throws or is aborted. -/
  | unanswered (execution : Nat) (message : Text)
  /-- The update of the row, with what the clock says at `new Date()` and then at `Date.now()`. -/
  | writes (execution : Nat) (lastAttempt now : Nat)
  | unwritten (execution : Nat) (lastAttempt now : Nat) (effect : Bool) (message : Text)
  | settles (execution : Nat)
  | stalls (job : Nat)

namespace State

def initial : State V := ⟨[], [], [], [], []⟩

def setRequest (s : State V) (r : Nat) (req : Request V) : State V := { s with requests := s.requests.set r req }

def setExecution (s : State V) (e : Nat) (x : Execution V) : State V :=
  { s with executions := s.executions.set e x }

def setJob (s : State V) (j : Nat) (job : Job V) : State V := { s with jobs := s.jobs.set j job }

def updateDelivery (s : State V) (id : Nat) (f : WebhookDelivery V → WebhookDelivery V) : State V :=
  { s with deliveries := s.deliveries.modify id f }

def createDelivery (s : State V) (webhookId : Nat) (req : Request V) : State V :=
  { s with
    deliveries := s.deliveries ++ [⟨webhookId, req.event, req.payload, .pending, 0, none, none, none⟩] }

def addJob (s : State V) (w : Webhook) (deliveryId : Nat) (req : Request V) : State V :=
  { s with jobs := s.jobs ++ [.added ⟨w.url, req.payload, deliveryId, w.secret⟩] }

/-- `findMany` has no `orderBy`. -/
def find (s : State V) (r : Nat) (found : List (Nat × Webhook)) (req : Request V) : Option (State V) :=
  match req.phase with
  | .finding =>
    if found.Perm (matching s.webhooks req.event) then some (s.setRequest r { req with phase := .creating found })
    else none
  | _ => none

def proceed (s : State V) (r : Nat) (req : Request V) : Option (State V) :=
  match req.phase with
  | .finding => none
  | .creating ((id, w) :: rest) =>
    some ((s.createDelivery id req).setRequest r { req with phase := .adding w s.deliveries.length rest })
  | .creating [] => some (s.setRequest r { req with phase := .replied (.ok req.deliveryIds) })
  | .adding w deliveryId rest =>
    some ((s.addJob w deliveryId req).setRequest r
      { req with phase := .creating rest, deliveryIds := req.deliveryIds ++ [deliveryId] })
  | .replied _ => none

def callEffect (s : State V) (req : Request V) : State V :=
  match req.phase with
  | .creating ((id, _) :: _) => s.createDelivery id req
  | .adding w deliveryId _ => s.addJob w deliveryId req
  | _ => s

def breakOff (s : State V) (r : Nat) (effect : Bool) (message : Option Text) (req : Request V) : Option (State V) :=
  match req.phase with
  | .creating [] | .replied _ => none
  | _ => some ((if effect then s.callEffect req else s).setRequest r (req.failed message))

def write (s : State V) (x : Execution V) (lastAttempt now : Nat) : State V :=
  s.updateDelivery x.data.deliveryId (x.write lastAttempt now)

variable (svc : Service V)

def take (s : State V) (j : Nat) (job : Job V) : State V :=
  { s with
    jobs := s.jobs.set j { job with state := .active s.executions.length }
    executions := s.executions ++ [⟨j, job.attemptsMade, job.data, .fetching, none⟩] }

/-- The queue hears how the processor ended. One that has lost the lock changes nothing. -/
def settle (s : State V) (e : Nat) (x : Execution V) (resolved : Bool) : State V :=
  let s' := s.setExecution e { x with pc := .over resolved }
  match s.jobs[x.job]? with
  | some job => if job.state = .active e then s'.setJob x.job (job.settled resolved) else s'
  | none => s'

def next (s : State V) : Label V → Option (State V)
  | .register url secret events =>
    some (if svc.isUrl url then { s with webhooks := s.webhooks ++ [⟨url, secret, events, true⟩] } else s)
  | .remove id => some { s with webhooks := s.webhooks.modify id ({ · with active := false }) }
  | .deliver event mintAddress payload =>
    some { s with requests := s.requests ++ [⟨event, body svc event mintAddress payload, [], .finding⟩] }
  | .finds r found => s.requests[r]?.bind (s.find r found)
  | .proceeds r => s.requests[r]?.bind (s.proceed r)
  | .breaks r effect message => s.requests[r]?.bind (s.breakOff r effect message)
  | .takes j => s.jobs[j]?.bind fun job => if job.state = .waiting then some (s.take j job) else none
  | .responds e status statusText => s.executions[e]?.bind fun x =>
    if x.pc = .fetching then some (s.setExecution e (x.respond status statusText)) else none
  | .unanswered e message => s.executions[e]?.bind fun x =>
    if x.pc = .fetching then some (s.setExecution e (x.throws message)) else none
  | .writes e lastAttempt now => s.executions[e]?.bind fun x =>
    match x.pc with
    | .answered => some ((s.write x lastAttempt now).setExecution e { x with pc := .settled true })
    | .caught _ => some ((s.write x lastAttempt now).setExecution e { x with pc := .settled false })
    | _ => none
  | .unwritten e lastAttempt now effect message => s.executions[e]?.bind fun x =>
    match x.pc with
    | .answered | .caught _ =>
      some ((if effect then s.write x lastAttempt now else s).setExecution e (x.throws message))
    | _ => none
  | .settles e => s.executions[e]?.bind fun x =>
    match x.pc with
    | .settled resolved => some (s.settle e x resolved)
    | _ => none
  | .stalls j => s.jobs[j]?.bind fun job =>
    match job.state with
    | .active _ => some (s.setJob j (job.stalled svc))
    | _ => none

end State

def deliveries (svc : Service V) : Lts (State V) (Label V) where
  start s := s = .initial
  step s label s' := s.next svc label = some s'

def State.posts (s : State V) (svc : Service V) (deliveryId : Nat) : List Post :=
  (s.executions.filter (·.data.deliveryId = deliveryId)).map (·.post svc)

end ThawGate.WebhookService
