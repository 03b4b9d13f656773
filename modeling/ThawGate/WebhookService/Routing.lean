import Mathlib.Data.List.Forall2
import ThawGate.WebhookService.Steps

/-!
# Who is sent what

A row is created for a webhook that subscribed to the event when the request read the table, its job takes the
webhook's URL and secret from that reading, and no other job is ever added for it. Writes to rows, deletions and the
queue leave all this as it is: they keep the `targets` and the `queued` data, and the invariant speaks of these alone.
-/

namespace ThawGate.WebhookService

open Logs (Text)

variable {V : Type} {svc : Service V} {s s' : State V} {label : Label V} {h : List (Label V)}

/-- What a row says of whom it is for. -/
structure Target (V : Type) where
  webhookId : Nat
  event : Text
  payload : List (Text × V)

def WebhookDelivery.target (d : WebhookDelivery V) : Target V := ⟨d.webhookId, d.event, d.payload⟩

namespace State

def targets (s : State V) : List (Target V) := s.deliveries.map (·.target)

def queued (s : State V) : List (JobData V) := s.jobs.map (·.data)

end State

/-- At some time before, this was the webhook's row, and it subscribed to the event. -/
def Subscribed (svc : Service V) (h : List (Label V)) (s : State V) (id : Nat) (w : Webhook) (event : Text) : Prop :=
  (deliveries svc).Seen (fun s₀ => s₀.webhooks[id]? = some w ∧ w.Matches event) h s

/-- After `h₁`, the request `r` is to read the table, and these subscribe to its event. -/
structure Reads (svc : Service V) (h₁ : List (Label V)) (s₁ : State V) (r : Nat) (event : Text)
    (fields : List (Text × V)) (found : List (Nat × Webhook)) : Prop where
  run : (deliveries svc).Run h₁ s₁
  request : s₁.requests[r]? = some ⟨event, fields, [], .finding⟩
  found : found.Perm (matching s₁.webhooks event)

/-- The request's reading of the table, in this run. -/
def Found (svc : Service V) (h : List (Label V)) (s : State V) (r : Nat) (event : Text) (fields : List (Text × V))
    (found : List (Nat × Webhook)) : Prop :=
  ∃ h₂ h₁ s₁, h = h₂ ++ .finds r found :: h₁ ∧ (deliveries svc).Path s₁ (h₂ ++ [.finds r found]) s ∧
    Reads svc h₁ s₁ r event fields found

/-- The request `r` came with these fields. -/
def Posed (svc : Service V) (h : List (Label V)) (r : Nat) (event : Text) (fields : List (Text × V)) : Prop :=
  ∃ mintAddress payload h₂ h₁ s₁, fields = body svc event mintAddress payload ∧
    h = h₂ ++ .deliver event mintAddress payload :: h₁ ∧ (deliveries svc).Run h₁ s₁ ∧ s₁.requests.length = r

/-- The row is for the webhook, and so is a job. -/
def Queued (s : State V) (req : Request V) (deliveryId : Nat) (p : Nat × Webhook) : Prop :=
  s.targets[deliveryId]? = some (Target.mk p.1 req.event req.payload) ∧
    ∃ j : Nat, s.queued[j]? = some (JobData.mk p.2.url req.payload deliveryId p.2.secret)

/-- The loop has reached the webhooks `rest`. -/
structure Looped (svc : Service V) (h : List (Label V)) (s : State V) (r : Nat) (req : Request V)
    (rest : List (Nat × Webhook)) : Prop where
  nodup : req.deliveryIds.Nodup
  done : ∃ done, Found svc h s r req.event req.payload (done ++ rest) ∧ List.Forall₂ (Queued s req) req.deliveryIds done

/-- A row waits for its job. -/
structure Adding (s : State V) (req : Request V) (deliveryId id : Nat) : Prop where
  target : s.targets[deliveryId]? = some ⟨id, req.event, req.payload⟩
  new : ∀ (j : Nat) (data : JobData V), s.queued[j]? = some data → data.deliveryId ≠ deliveryId

/-- Where the request `r` is. -/
def Request.At (svc : Service V) (h : List (Label V)) (s : State V) (r : Nat) (req : Request V) : Prop :=
  match req.phase with
  | .finding => req.deliveryIds = []
  | .creating rest => Looped svc h s r req rest
  | .adding w d rest => ∃ id, Looped svc h s r req ((id, w) :: rest) ∧ Adding s req d id
  | .replied (.ok ids) => ids = req.deliveryIds ∧ Looped svc h s r req []
  | .replied (.error _) => True

/-- Every row and every job is for a webhook that subscribed, and no row has two jobs. -/
structure Rows (svc : Service V) (h : List (Label V)) (s : State V) : Prop where
  target : ∀ (d : Nat) (t : Target V), s.targets[d]? = some t →
    ∃ w, Subscribed svc h s t.webhookId w t.event
  queued : ∀ (j : Nat) (data : JobData V), s.queued[j]? = some data →
    ∃ id event w, s.targets[data.deliveryId]? = some (Target.mk id event data.payload) ∧
      Subscribed svc h s id w event ∧ data.url = w.url ∧ data.secret = w.secret
  once : ∀ (j j' : Nat) (data data' : JobData V), s.queued[j]? = some data → s.queued[j']? = some data' →
    data.deliveryId = data'.deliveryId → j = j'

structure Requests (svc : Service V) (h : List (Label V)) (s : State V) : Prop where
  at_ : ∀ (r : Nat) (req : Request V), s.requests[r]? = some req → req.At svc h s r
  /-- Two requests never wait for the job of one row. -/
  apart : ∀ (r r' : Nat) (req req' : Request V) (w w' : Webhook) (d : Nat) (rest rest' : List (Nat × Webhook)),
    s.requests[r]? = some req → s.requests[r']? = some req' → req.phase = .adding w d rest →
      req'.phase = .adding w' d rest' → r = r'

/-! ### What stays -/

theorem Subscribed.later {id : Nat} {w : Webhook} {event : Text} (hsub : Subscribed svc h s id w event)
    (hs : s.next svc label = some s') : Subscribed svc (label :: h) s' id w event :=
  Lts.Seen.later hsub hs

theorem Found.later {r : Nat} {event : Text} {fields : List (Text × V)} {found : List (Nat × Webhook)}
    (hf : Found svc h s r event fields found) (hs : s.next svc label = some s') :
    Found svc (label :: h) s' r event fields found := by
  obtain ⟨h₂, h₁, s₁, rfl, path, hreads⟩ := hf
  exact ⟨label :: h₂, h₁, s₁, rfl, path.step hs, hreads⟩

/-- The webhooks that a request found subscribed when it read the table. -/
theorem Found.subscribed {r id : Nat} {event : Text} {fields : List (Text × V)} {w : Webhook}
    {found : List (Nat × Webhook)} (hf : Found svc h s r event fields found) (hw : (id, w) ∈ found) :
    Subscribed svc h s id w event := by
  obtain ⟨h₂, h₁, s₁, rfl, path, hreads⟩ := hf
  have hseen : Subscribed svc h₁ s₁ id w event := .here hreads.run (mem_matching.1 (hreads.found.mem_iff.1 hw))
  have happend := hseen.append path
  rwa [List.append_assoc] at happend

/-- Rows and jobs stay where they are. -/
structure Grows (s s' : State V) : Prop where
  targets : ∀ (d : Nat) (t : Target V), s.targets[d]? = some t → s'.targets[d]? = some t
  queued : ∀ (j : Nat) (data : JobData V), s.queued[j]? = some data → s'.queued[j]? = some data

theorem Grows.of_eq (ht : s'.targets = s.targets) (hq : s'.queued = s.queued) : Grows s s' :=
  ⟨fun _ _ h => ht ▸ h, fun _ _ h => hq ▸ h⟩

section grows

variable {r : Nat} {req : Request V} {rest : List (Nat × Webhook)} {d : Nat} {p : Nat × Webhook}

theorem Queued.grows (hg : Grows s s') (hq : Queued s req d p) : Queued s' req d p := by
  obtain ⟨htarget, j, hj⟩ := hq
  exact ⟨hg.targets _ _ htarget, j, hg.queued _ _ hj⟩

theorem queued_of_mem {ids : List Nat} {done : List (Nat × Webhook)} (hdone : List.Forall₂ (Queued s req) ids done)
    (hd : d ∈ ids) : ∃ p, Queued s req d p := by
  induction hdone with
  | nil => simp at hd
  | @cons id p ids done hp _ ih =>
    obtain rfl | hd := List.mem_cons.1 hd
    · exact ⟨p, hp⟩
    · exact ih hd

theorem Looped.grows (hg : Grows s s') (hs : s.next svc label = some s') (hl : Looped svc h s r req rest) :
    Looped svc (label :: h) s' r req rest := by
  obtain ⟨hnodup, done, hfound, hdone⟩ := hl
  exact ⟨hnodup, done, hfound.later hs, hdone.imp fun _ _ => Queued.grows hg⟩

theorem Request.At.grows (hg : Grows s s') (hs : s.next svc label = some s') (hat : req.At svc h s r)
    (hnew : ∀ w d rest, req.phase = .adding w d rest → ∀ (j : Nat) (data : JobData V), s'.queued[j]? = some data →
      s.queued[j]? = some data ∨ data.deliveryId ≠ d) : req.At svc (label :: h) s' r := by
  unfold Request.At at hat ⊢
  split at hat
  case h_1 => exact hat
  case h_2 => exact hat.grows hg hs
  case h_3 w d rest hp =>
    obtain ⟨id, hl, htarget, hother⟩ := hat
    refine ⟨id, hl.grows hg hs, hg.targets _ _ htarget, fun j data hj => ?_⟩
    obtain hold | hne := hnew w d rest hp j data hj
    · exact hother j data hold
    · exact hne
  case h_4 => exact ⟨hat.1, hat.2.grows hg hs⟩
  case h_5 => trivial

end grows

/-! ### The rows and the jobs -/

namespace Rows

theorem of_eq (hr : Rows svc h s) (hs : s.next svc label = some s') (ht : s'.targets = s.targets)
    (hq : s'.queued = s.queued) : Rows svc (label :: h) s' := by
  refine ⟨fun d t hd => ?_, fun j data hj => ?_, fun j j' data data' hj hj' => ?_⟩
  · obtain ⟨w, hsub⟩ := hr.target d t (ht ▸ hd)
    exact ⟨w, hsub.later hs⟩
  · obtain ⟨id, event, w, htarget, hsub, hw⟩ := hr.queued j data (hq ▸ hj)
    exact ⟨id, event, w, ht ▸ htarget, hsub.later hs, hw⟩
  · exact hr.once j j' data data' (hq ▸ hj) (hq ▸ hj')

theorem created (hr : Rows svc h s) (hs : s.next svc label = some s') {t : Target V} {w : Webhook}
    (ht : s'.targets = s.targets ++ [t]) (hq : s'.queued = s.queued)
    (hsub : Subscribed svc h s t.webhookId w t.event) : Rows svc (label :: h) s' := by
  refine ⟨fun d t' hd => ?_, fun j data hj => ?_, fun j j' data data' hj hj' => ?_⟩
  · rw [ht] at hd
    obtain hd | ⟨-, rfl⟩ := Table.added_eq_some.1 hd
    · obtain ⟨w, hsub⟩ := hr.target d t' hd
      exact ⟨w, hsub.later hs⟩
    · exact ⟨w, hsub.later hs⟩
  · obtain ⟨id, event, w, htarget, hsub, hw⟩ := hr.queued j data (hq ▸ hj)
    exact ⟨id, event, w, ht ▸ Table.added_of htarget, hsub.later hs, hw⟩
  · exact hr.once j j' data data' (hq ▸ hj) (hq ▸ hj')

theorem added (hr : Rows svc h s) (hs : s.next svc label = some s') {id : Nat} {event : Text} {data : JobData V}
    {w : Webhook} (ht : s'.targets = s.targets) (hq : s'.queued = s.queued ++ [data])
    (htarget : s.targets[data.deliveryId]? = some (Target.mk id event data.payload))
    (hsub : Subscribed svc h s id w event) (hdata : data.url = w.url ∧ data.secret = w.secret)
    (hnew : ∀ (j : Nat) (data' : JobData V), s.queued[j]? = some data' → data'.deliveryId ≠ data.deliveryId) :
    Rows svc (label :: h) s' := by
  refine ⟨fun d t hd => ?_, fun j data' hj => ?_, fun j j' data₁ data₂ hj hj' heq => ?_⟩
  · obtain ⟨w, hsub⟩ := hr.target d t (ht ▸ hd)
    exact ⟨w, hsub.later hs⟩
  · rw [hq] at hj
    obtain hj | ⟨-, rfl⟩ := Table.added_eq_some.1 hj
    · obtain ⟨id, event, w, htarget, hsub, hw⟩ := hr.queued j data' hj
      exact ⟨id, event, w, ht ▸ htarget, hsub.later hs, hw⟩
    · exact ⟨id, event, w, ht ▸ htarget, hsub.later hs, hdata⟩
  · rw [hq] at hj hj'
    obtain hold | ⟨hlast, heq₁⟩ := Table.added_eq_some.1 hj <;>
      obtain hold' | ⟨hlast', heq₂⟩ := Table.added_eq_some.1 hj'
    · exact hr.once j j' data₁ data₂ hold hold' heq
    · exact absurd (heq.trans (congrArg _ heq₂)) (hnew j data₁ hold)
    · exact absurd (heq.symm.trans (congrArg _ heq₁)) (hnew j' data₂ hold')
    · rw [hlast, hlast']

end Rows

/-! ### The requests -/

namespace Requests

variable {r : Nat} {req req' : Request V}

/-- A request goes on, and the others see no new job for a row of theirs. -/
theorem set (hq : Requests svc h s) (hs : s.next svc label = some s') (hg : Grows s s')
    (hr : s.requests[r]? = some req) (hset : s'.requests = s.requests.set r req') (hat : req'.At svc (label :: h) s' r)
    (hnew : ∀ r₁ req₁ w d rest, r₁ ≠ r → s.requests[r₁]? = some req₁ → req₁.phase = .adding w d rest →
      (∀ (j : Nat) (data : JobData V), s'.queued[j]? = some data → s.queued[j]? = some data ∨ data.deliveryId ≠ d) ∧
      ∀ w' rest', req'.phase ≠ .adding w' d rest') : Requests svc (label :: h) s' := by
  refine ⟨fun r₁ req₁ hr₁ => ?_, fun r₁ r₂ req₁ req₂ w₁ w₂ d rest₁ rest₂ hr₁ hr₂ hp₁ hp₂ => ?_⟩
  · rw [hset] at hr₁
    obtain ⟨rfl, rfl⟩ | ⟨hne, hr₁⟩ := (Table.set_eq_some hr).1 hr₁
    · exact hat
    · exact (hq.at_ r₁ req₁ hr₁).grows hg hs fun w d rest hp => (hnew r₁ req₁ w d rest hne hr₁ hp).1
  · rw [hset] at hr₁ hr₂
    obtain ⟨hr₁, heq₁⟩ | ⟨hne₁, hold₁⟩ := (Table.set_eq_some hr).1 hr₁ <;>
      obtain ⟨hr₂, heq₂⟩ | ⟨hne₂, hold₂⟩ := (Table.set_eq_some hr).1 hr₂
    · rw [hr₁, hr₂]
    · exact absurd (heq₁ ▸ hp₁) ((hnew r₂ req₂ w₂ d rest₂ hne₂ hold₂ hp₂).2 w₁ rest₁)
    · exact absurd (heq₂ ▸ hp₂) ((hnew r₁ req₁ w₁ d rest₁ hne₁ hold₁ hp₁).2 w₂ rest₂)
    · exact hq.apart r₁ r₂ req₁ req₂ w₁ w₂ d rest₁ rest₂ hold₁ hold₂ hp₁ hp₂

theorem of_eq (hq : Requests svc h s) (hs : s.next svc label = some s') (ht : s'.targets = s.targets)
    (hqueued : s'.queued = s.queued) (hreq : s'.requests = s.requests) : Requests svc (label :: h) s' := by
  refine ⟨fun r req hr => ?_, fun r r' req req' w w' d rest rest' hr hr' => ?_⟩
  · exact (hq.at_ r req (hreq ▸ hr)).grows (.of_eq ht hqueued) hs fun _ _ _ _ _ _ hj => .inl (hqueued ▸ hj)
  · exact hq.apart r r' req req' w w' d rest rest' (hreq ▸ hr) (hreq ▸ hr')

/-- A request begins. -/
theorem added (hq : Requests svc h s) (hs : s.next svc label = some s') (ht : s'.targets = s.targets)
    (hqueued : s'.queued = s.queued) (hreq : s'.requests = s.requests ++ [req]) (hp : req.phase = .finding)
    (hids : req.deliveryIds = []) : Requests svc (label :: h) s' := by
  refine ⟨fun r₁ req₁ hr₁ => ?_, fun r₁ r₂ req₁ req₂ w₁ w₂ d rest₁ rest₂ hr₁ hr₂ hp₁ hp₂ => ?_⟩
  · rw [hreq] at hr₁
    obtain hr₁ | ⟨-, rfl⟩ := Table.added_eq_some.1 hr₁
    · exact (hq.at_ r₁ req₁ hr₁).grows (.of_eq ht hqueued) hs fun _ _ _ _ _ _ hj => .inl (hqueued ▸ hj)
    · simpa [Request.At, hp] using hids
  · rw [hreq] at hr₁ hr₂
    obtain hr₁ | ⟨-, rfl⟩ := Table.added_eq_some.1 hr₁
    swap
    · simp [hp] at hp₁
    obtain hr₂ | ⟨-, rfl⟩ := Table.added_eq_some.1 hr₂
    swap
    · simp [hp] at hp₂
    exact hq.apart r₁ r₂ req₁ req₂ w₁ w₂ d rest₁ rest₂ hr₁ hr₂ hp₁ hp₂

/-- A request goes on to a place where it waits for no job. -/
theorem moved (hq : Requests svc h s) (hs : s.next svc label = some s') (ht : s'.targets = s.targets)
    (hqueued : s'.queued = s.queued) (hr : s.requests[r]? = some req) (hset : s'.requests = s.requests.set r req')
    (hat : req'.At svc (label :: h) s' r) (hp : ∀ w d rest, req'.phase ≠ .adding w d rest) :
    Requests svc (label :: h) s' :=
  hq.set hs (.of_eq ht hqueued) hr hset hat fun _ _ _ _ _ _ _ _ =>
    ⟨fun _ _ hj => .inl (hqueued ▸ hj), fun w' rest' => hp w' _ rest'⟩

end Requests

/-! ### Steps -/

section steps

variable {j : Nat} {job : Job V}

theorem write_target (x : Execution V) (lastAttempt now : Nat) (d : WebhookDelivery V) :
    (x.write lastAttempt now d).target = d.target := by
  unfold Execution.write
  split <;> rfl

theorem targets_write (x : Execution V) (lastAttempt now : Nat) : (s.write x lastAttempt now).targets = s.targets := by
  refine List.ext_getElem? fun i => ?_
  simp only [State.write, State.updateDelivery, State.targets, List.getElem?_map, List.getElem?_modify]
  split
  · rw [Option.map_eq_map, Option.map_map]
    exact congrArg (Option.map · _) (funext (write_target x lastAttempt now))
  · rw [Option.map_eq_map, Option.map_id']

theorem queued_setJob (job' : Job V) (hj : s.jobs[j]? = some job) (hdata : job'.data = job.data) :
    (s.setJob j job').queued = s.queued := by
  refine List.ext_getElem? fun i => ?_
  simp only [State.setJob, State.queued, List.getElem?_map]
  by_cases hi : i = j
  · rw [hi, Table.set_self hj, hj, Option.map_some, Option.map_some, hdata]
  · rw [List.getElem?_set_ne (Ne.symm hi)]

theorem queued_settle (e : Nat) (x : Execution V) (resolved : Bool) :
    (s.settle e x resolved).queued = s.queued := by
  obtain ⟨job, hj, ha, heq⟩ | ⟨-, heq⟩ := settle_cases (s := s) e x resolved <;> rw [heq]
  · exact queued_setJob (s := s.setExecution e _) (job.settled resolved) hj rfl
  · rfl

theorem targets_settle (e : Nat) (x : Execution V) (resolved : Bool) :
    (s.settle e x resolved).targets = s.targets ∧ (s.settle e x resolved).requests = s.requests := by
  obtain ⟨job, hj, ha, heq⟩ | ⟨-, heq⟩ := settle_cases (s := s) e x resolved <;> rw [heq] <;> exact ⟨rfl, rfl⟩

theorem failed_at (r : Nat) (req : Request V) (message : Option Text) : (req.failed message).At svc h s r := trivial

end steps

theorem Stepped.routed (hst : Stepped svc s label s') (hs : s.next svc label = some s')
    (run : (deliveries svc).Run h s) (hrows : Rows svc h s) (hreqs : Requests svc h s) :
    Rows svc (label :: h) s' ∧ Requests svc (label :: h) s' := by
  cases hst with
  | registered | refused | removed | fetched => exact ⟨hrows.of_eq hs rfl rfl, hreqs.of_eq hs rfl rfl rfl⟩
  | @written e lastAttempt now x resolved he hpc =>
    have ht := targets_write (s := s) x lastAttempt now
    exact ⟨hrows.of_eq hs ht rfl, hreqs.of_eq hs ht rfl rfl⟩
  | @unwritten e lastAttempt now x s₁ effect message he hpc hs₁ =>
    obtain rfl | ⟨-, rfl⟩ := hs₁
    · exact ⟨hrows.of_eq hs rfl rfl, hreqs.of_eq hs rfl rfl rfl⟩
    · have ht := targets_write (s := s) x lastAttempt now
      exact ⟨hrows.of_eq hs ht rfl, hreqs.of_eq hs ht rfl rfl⟩
  | @settled e x resolved he hpc =>
    obtain ⟨ht, hr⟩ := targets_settle (s := s) e x resolved
    exact ⟨hrows.of_eq hs ht (queued_settle e x resolved), hreqs.of_eq hs ht (queued_settle e x resolved) hr⟩
  | @stalled j e job hj ha =>
    have hq := queued_setJob (s := s) (job.stalled svc) hj rfl
    exact ⟨hrows.of_eq hs rfl hq, hreqs.of_eq hs rfl hq rfl⟩
  | @taken j job hj hw =>
    have hq := queued_setJob (s := s) { job with state := .active s.executions.length } hj rfl
    exact ⟨hrows.of_eq hs rfl hq, hreqs.of_eq hs rfl hq rfl⟩
  | requested => exact ⟨hrows.of_eq hs rfl rfl, hreqs.added hs rfl rfl rfl rfl rfl⟩
  | @found r req found hr hp hfound =>
    refine ⟨hrows.of_eq hs rfl rfl, hreqs.moved hs rfl rfl hr rfl ?_ (by simp)⟩
    have hids : req.deliveryIds = [] := by simpa [Request.At, hp] using hreqs.at_ r req hr
    have hreads : Reads svc h s r req.event req.payload found := by
      refine ⟨run, hr.trans (congrArg some ?_), hfound⟩
      obtain ⟨event, payload, ids, phase⟩ := req
      obtain rfl : ids = [] := hids
      obtain rfl : phase = .finding := hp
      rfl
    refine ⟨by simp [hids], [], ⟨[], h, s, rfl, Lts.Path.refl.step hs, hreads⟩, ?_⟩
    simp [hids]
  | @answered r req hr hp =>
    refine ⟨hrows.of_eq hs rfl rfl, hreqs.moved hs rfl rfl hr rfl ?_ (by simp)⟩
    have hl : Looped svc h s r req [] := by simpa [Request.At, hp] using hreqs.at_ r req hr
    obtain ⟨hnodup, done, hfound, hdone⟩ := hl
    exact ⟨rfl, hnodup, done, hfound.later hs, hdone⟩
  | @broke r req effect message hr =>
    exact ⟨hrows.of_eq hs rfl rfl, hreqs.moved hs rfl rfl hr rfl (failed_at r req message) (by simp [Request.failed])⟩
  | @created _ r id req req' w rest hr hp hreq =>
    have hl : Looped svc h s r req ((id, w) :: rest) := by simpa [Request.At, hp] using hreqs.at_ r req hr
    obtain ⟨hnodup, done, hfound, hdone⟩ := hl
    have ht : ((s.createDelivery id req).setRequest r req').targets = s.targets ++ [⟨id, req.event, req.payload⟩] := by
      simp [State.createDelivery, State.setRequest, State.targets, WebhookDelivery.target]
    have hlength : s.targets.length = s.deliveries.length := List.length_map ..
    have hg : Grows s ((s.createDelivery id req).setRequest r req') :=
      ⟨fun d t hd => ht ▸ Table.added_of hd, fun _ _ hj => hj⟩
    refine ⟨hrows.created hs (w := w) ht rfl (hfound.subscribed (by simp)), ?_⟩
    refine hreqs.set hs hg hr rfl ?_ ?_
    · obtain rfl | ⟨message, rfl⟩ := hreq
      swap
      · exact failed_at r req message
      refine ⟨id, ⟨hnodup, done, hfound.later hs, hdone.imp fun _ _ => Queued.grows hg⟩, ?_, fun j data hj heq => ?_⟩
      · rw [ht, ← hlength]
        exact Table.added_last
      · obtain ⟨_, _, _, htarget, -⟩ := hrows.queued j data hj
        have hlt := Table.lt_of_eq_some htarget
        rw [heq, hlength] at hlt
        exact Nat.lt_irrefl _ hlt
    · intro r₁ req₁ w₁ d rest₁ hne hr₁ hp₁
      refine ⟨fun _ _ hj => .inl hj, fun w' rest' hp' => ?_⟩
      have hat := hreqs.at_ r₁ req₁ hr₁
      simp only [Request.At, hp₁] at hat
      obtain ⟨_, -, htarget, -⟩ := hat
      have hlt := Table.lt_of_eq_some htarget
      obtain rfl | ⟨message, rfl⟩ := hreq
      · obtain ⟨-, rfl, -⟩ := RequestPhase.adding.inj hp'
        rw [hlength] at hlt
        exact Nat.lt_irrefl _ hlt
      · simp [Request.failed] at hp'
  | @added _ r d req req' w rest hr hp hreq =>
    have hat := hreqs.at_ r req hr
    simp only [Request.At, hp] at hat
    obtain ⟨id, ⟨hnodup, done, hfound, hdone⟩, htarget, hnew⟩ := hat
    have hq : ((s.addJob w d req).setRequest r req').queued = s.queued ++ [⟨w.url, req.payload, d, w.secret⟩] := by
      simp [State.addJob, State.setRequest, State.queued, Job.added]
    have hg : Grows s ((s.addJob w d req).setRequest r req') :=
      ⟨fun _ _ hd => hd, fun j data hj => hq ▸ Table.added_of hj⟩
    refine ⟨hrows.added hs rfl hq htarget (hfound.subscribed (by simp)) ⟨rfl, rfl⟩ hnew, ?_⟩
    refine hreqs.set hs hg hr rfl ?_ ?_
    · obtain rfl | ⟨message, rfl⟩ := hreq
      swap
      · exact failed_at r req message
      have hnot : d ∉ req.deliveryIds := by
        intro hd
        obtain ⟨p, -, j, hj⟩ := queued_of_mem hdone hd
        exact hnew j _ hj rfl
      refine ⟨?_, done ++ [(id, w)], ?_, ?_⟩
      · refine List.nodup_append.2 ⟨hnodup, by simp, fun a ha b hb heq => hnot ?_⟩
        rw [← List.mem_singleton.1 hb, ← heq]
        exact ha
      · rw [List.append_assoc]
        exact hfound.later hs
      · refine List.rel_append (hdone.imp fun _ _ => Queued.grows hg) (.cons ⟨htarget, s.queued.length, ?_⟩ .nil)
        rw [hq]
        exact Table.added_last
    · intro r₁ req₁ w₁ d₁ rest₁ hne hr₁ hp₁
      refine ⟨fun j data hj => ?_, fun w' rest' hp' => ?_⟩
      · rw [hq] at hj
        obtain hj | ⟨-, rfl⟩ := Table.added_eq_some.1 hj
        · exact .inl hj
        · refine .inr fun heq => hne ?_
          obtain rfl : d = d₁ := heq
          exact hreqs.apart r₁ r req₁ req w₁ w d rest₁ rest hr₁ hr hp₁ hp
      · obtain rfl | ⟨message, rfl⟩ := hreq
        · simp at hp'
        · simp [Request.failed] at hp'

theorem run_routed (r : (deliveries svc).Run h s) : Rows svc h s ∧ Requests svc h s := by
  refine r.invariant (I := fun h s => Rows svc h s ∧ Requests svc h s) ?_ ?_
  · rintro s rfl
    exact ⟨⟨fun d t hd => by simp [State.initial, State.targets] at hd,
      fun j data hj => by simp [State.initial, State.queued] at hj,
      fun j j' data data' hj => by simp [State.initial, State.queued] at hj⟩,
      ⟨fun r req hr => by simp [State.initial] at hr, fun r r' req req' w w' d rest rest' hr => by
        simp [State.initial] at hr⟩⟩
  · rintro h s label s' run ⟨hrows, hreqs⟩ hs
    exact (next_stepped hs).routed hs run hrows hreqs

theorem queued_of_job {j : Nat} {job : Job V} (hj : s.jobs[j]? = some job) : s.queued[j]? = some job.data := by
  rw [State.queued, List.getElem?_map, hj, Option.map_some]

/-! ### The answer to `POST /deliver` -/

theorem Posed.append {h₁ : List (Label V)} {r : Nat} {event : Text} {fields : List (Text × V)}
    (hp : Posed svc h₁ r event fields) (h : List (Label V)) : Posed svc (h ++ h₁) r event fields := by
  obtain ⟨mintAddress, payload, h₂, h₀, s₀, rfl, rfl, hrun, hlength⟩ := hp
  exact ⟨mintAddress, payload, h ++ h₂, h₀, s₀, rfl, (List.append_assoc ..).symm, hrun, hlength⟩

/-- A request keeps the fields of the call that made it. -/
theorem run_posed (run : (deliveries svc).Run h s) :
    ∀ (r : Nat) (req : Request V), s.requests[r]? = some req → Posed svc h r req.event req.payload := by
  refine run.invariant (I := fun h s => ∀ (r : Nat) (req : Request V), s.requests[r]? = some req →
    Posed svc h r req.event req.payload) ?_ ?_
  · rintro s rfl r req hr
    simp [State.initial] at hr
  · intro h s label s' run ih hs r req hr
    obtain heq | ⟨r₀, req₀, req', hr₀, hevent, hpayload, heq⟩ | ⟨event, mintAddress, payload, rfl, heq⟩ :=
      (next_stepped hs).requests <;> rw [heq] at hr
    · exact (ih r req hr).append [label]
    · obtain ⟨rfl, rfl⟩ | ⟨-, hr⟩ := (Table.set_eq_some hr₀).1 hr
      · rw [hevent, hpayload]
        exact (ih _ req₀ hr₀).append [label]
      · exact (ih r req hr).append [label]
    · obtain hr | ⟨rfl, rfl⟩ := Table.added_eq_some.1 hr
      · exact (ih r req hr).append [_]
      · exact ⟨mintAddress, payload, [], h, s, rfl, rfl, run, rfl⟩

section witness

/-- A service for payloads of plain strings, with the digest of the one body that it is asked for. -/
def plainService : Service Text where
  isUrl := fun text => "https://".toList.isPrefixOf text
  text := id
  stringify fields :=
    let quote (t : Text) := '"' :: (t ++ ['"'])
    Char.ofNat 123 :: (List.intercalate [','] (fields.map fun (k, v) => quote k ++ ':' :: quote v) ++ [Char.ofNat 125])
  hmac _ _ := "d875c25f6495d1015b493014af9f4d3c6ab92cffa95d10a9d10f66a1aa1960ad".toList
  maxStalledCount := 1

/-- A webhook that answers the first post with 503 and the second with 200. -/
def secondTry : List (Label Text) :=
  [.register "https://hook".toList "s3cret".toList ["mint".toList],
    .deliver "mint".toList (some "M".toList) [("amount".toList, "5".toList)],
    .finds 0 [(0, ⟨"https://hook".toList, "s3cret".toList, ["mint".toList], true⟩)],
    .proceeds 0, .proceeds 0, .proceeds 0,
    .takes 0, .responds 0 503 "Busy".toList, .writes 0 7 8, .settles 0,
    .takes 0, .responds 1 200 "OK".toList, .writes 1 1009 1009, .settles 1]

def secondTryBody : List (Text × Text) :=
  [("event".toList, "mint".toList), ("mintAddress".toList, "M".toList), ("amount".toList, "5".toList)]

def secondTryEnd : State Text where
  webhooks := [⟨"https://hook".toList, "s3cret".toList, ["mint".toList], true⟩]
  deliveries := [⟨0, "mint".toList, secondTryBody, .delivered, 2, some 1009, some 1008, some "HTTP 200".toList⟩]
  jobs := [⟨⟨"https://hook".toList, secondTryBody, 0, "s3cret".toList⟩, 2, 0, .completed⟩]
  executions :=
    [⟨0, 0, ⟨"https://hook".toList, secondTryBody, 0, "s3cret".toList⟩, .over false, some 503⟩,
      ⟨0, 1, ⟨"https://hook".toList, secondTryBody, 0, "s3cret".toList⟩, .over true, some 200⟩]
  requests := [⟨"mint".toList, secondTryBody, [0], .replied (.ok [0])⟩]

theorem secondTry_run : (deliveries plainService).Run secondTry.reverse secondTryEnd := by
  have hs : secondTry.foldlM (State.next plainService) State.initial = some secondTryEnd := by decide +kernel
  simpa using Lts.Run.of_foldlM (L := deliveries plainService) (fun _ _ _ => id) hs (.start rfl)

end witness

end ThawGate.WebhookService
