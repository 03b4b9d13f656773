import ThawGate.WebhookService.Queue
import ThawGate.WebhookService.Routing

/-!
# What becomes of a delivery

`posts_justified`: every post goes to a webhook that subscribed to the event, with its row's payload. There are at most
`attempts + maxStalledCount` posts of a delivery, and an endpoint that has answered one with ok is sent another only
after an update of the row failed or the job stalled (`repeats_bounded`). A row never says more than happened
(`status_honest`).
-/

namespace ThawGate.WebhookService

open Logs (Text)

variable {V : Type} {svc : Service V} {s s' : State V} {label : Label V} {h : List (Label V)}

namespace State

/-- How many endpoints' answers to posts of the delivery were ok. -/
def accepted (s : State V) (deliveryId : Nat) : Nat :=
  s.executions.countP fun x => x.data.deliveryId = deliveryId ∧ x.accepted = true

/-- How many of them the processor took for failures: the update of the row threw. -/
def overlooked (s : State V) (deliveryId : Nat) : Nat :=
  s.executions.countP fun x => x.data.deliveryId = deliveryId ∧ x.accepted = true ∧ x.rejecting = true

end State

/-! ### Posts -/

theorem posts_length (svc : Service V) (s : State V) (d : Nat) :
    (s.posts svc d).length = s.executions.countP (·.data.deliveryId = d) := by
  rw [State.posts, List.length_map, List.countP_eq_length_filter]

/-- The executions for a row are those of its job. -/
theorem job_of_delivery (hrows : Rows svc h s) (hc : Counted svc s) {j : Nat} {job : Job V}
    (hj : s.jobs[j]? = some job) {x : Execution V} (hx : x ∈ s.executions) :
    x.data.deliveryId = job.data.deliveryId ↔ x.job = j := by
  obtain ⟨e, he⟩ := List.mem_iff_getElem?.1 hx
  obtain ⟨job', hj', hdata⟩ := hc.owner e x he
  constructor
  · intro hd
    exact hrows.once _ _ _ _ (queued_of_job hj') (queued_of_job hj) (by rw [hdata, hd])
  · rintro rfl
    obtain rfl := Option.some.inj (hj.symm.trans hj')
    rw [hdata]

theorem taken_eq (hrows : Rows svc h s) (hc : Counted svc s) {j : Nat} {job : Job V} (hj : s.jobs[j]? = some job) :
    s.executions.countP (·.data.deliveryId = job.data.deliveryId) = s.taken j :=
  List.countP_congr fun x hx => by simp only [decide_eq_true_eq, job_of_delivery hrows hc hj hx]

theorem posts_bounded (r : (deliveries svc).Run h s) (d : Nat) :
    (s.posts svc d).length ≤ attempts + svc.maxStalledCount := by
  obtain ⟨-, hc⟩ := run_counted r
  obtain ⟨hrows, -⟩ := run_routed r
  rw [posts_length]
  by_cases hd : ∃ x ∈ s.executions, x.data.deliveryId = d
  · obtain ⟨x, hx, rfl⟩ := hd
    obtain ⟨e, he⟩ := List.mem_iff_getElem?.1 hx
    obtain ⟨job, hj, hdata⟩ := hc.owner e x he
    rw [← hdata, taken_eq hrows hc hj]
    exact (hc.job _ _ hj).limit
  · rw [List.countP_eq_zero.2 fun x hx => by simpa using fun heq => hd ⟨x, hx, heq⟩]
    exact Nat.zero_le _

/-- What is posted, and to whom: the row's payload, to the URL that a webhook had while it was active and subscribed to
the row's event, signed with that webhook's secret. -/
theorem posts_justified (r : (deliveries svc).Run h s) {d : Nat} {post : Post} (hp : post ∈ s.posts svc d) :
    ∃ (row : WebhookDelivery V) (w : Webhook), s.deliveries[d]? = some row ∧
      (deliveries svc).Seen (fun s₀ => s₀.webhooks[row.webhookId]? = some w ∧ w.Matches row.event) h s ∧
      post = ⟨d, w.url, svc.stringify row.payload,
        "sha256=".toList ++ svc.hmac w.secret (svc.stringify row.payload)⟩ := by
  obtain ⟨-, hc⟩ := run_counted r
  obtain ⟨hrows, -⟩ := run_routed r
  obtain ⟨x, hx, rfl⟩ := List.mem_map.1 hp
  obtain ⟨hmem, hd⟩ := List.mem_filter.1 hx
  obtain rfl := of_decide_eq_true hd
  obtain ⟨e, he⟩ := List.mem_iff_getElem?.1 hmem
  obtain ⟨job, hj, hdata⟩ := hc.owner e x he
  obtain ⟨id, event, w, htarget, hsubscribed, hurl, hsecret⟩ := hrows.queued _ _ (queued_of_job hj)
  rw [State.targets, List.getElem?_map, Option.map_eq_some_iff] at htarget
  obtain ⟨row, hrow, htarget⟩ := htarget
  obtain ⟨rfl, rfl, hpayload⟩ := Target.mk.inj htarget
  rw [hdata] at hrow hpayload hurl hsecret
  refine ⟨row, w, hrow, hsubscribed, ?_⟩
  rw [Execution.post, hurl, hsecret, hpayload]

theorem posts_justified_secondTry : ∃ (row : WebhookDelivery Text) (w : Webhook),
    secondTryEnd.deliveries[0]? = some row ∧ (deliveries plainService).Seen
      (fun s₀ => s₀.webhooks[row.webhookId]? = some w ∧ w.Matches row.event) secondTry.reverse secondTryEnd ∧
    (⟨0, "https://hook".toList, plainService.stringify secondTryBody, "sha256=".toList ++
      plainService.hmac "s3cret".toList (plainService.stringify secondTryBody)⟩ : Post) =
        ⟨0, w.url, plainService.stringify row.payload,
          "sha256=".toList ++ plainService.hmac w.secret (plainService.stringify row.payload)⟩ :=
  posts_justified secondTry_run (List.mem_cons_self ..)

/-! ### Answers -/

theorem accepted_le (s : State V) (d : Nat) :
    s.accepted d ≤ s.overlooked d + s.executions.countP fun x => x.data.deliveryId = d ∧ x.pc ≠ .over false := by
  unfold State.accepted State.overlooked
  induction s.executions with
  | nil => simp
  | cons x xs ih =>
    have hx : x.rejecting = false → x.pc ≠ .over false := by
      rintro hr hpc
      simp [Execution.rejecting, hpc] at hr
    simp only [List.countP_cons, decide_eq_true_eq]
    cases hr : x.rejecting <;> simp_all <;> split_ifs <;> omega

theorem accepted_bounded (r : (deliveries svc).Run h s) {j : Nat} {job : Job V} (hj : s.jobs[j]? = some job) :
    s.accepted job.data.deliveryId ≤ s.overlooked job.data.deliveryId + job.stalledCount + 1 := by
  obtain ⟨-, hc⟩ := run_counted r
  obtain ⟨hrows, -⟩ := run_routed r
  have hle := accepted_le s job.data.deliveryId
  have heq : (s.executions.countP fun x => x.data.deliveryId = job.data.deliveryId ∧ x.pc ≠ .over false) =
      s.unsettled j :=
    List.countP_congr fun x hx => by simp only [decide_eq_true_eq, job_of_delivery hrows hc hj hx]
  have hunsettled := (hc.job j job hj).unsettled
  split_ifs at hunsettled <;> omega

/-- Over every run, whatever fails, stalls or is answered in between: a delivery is posted a bounded number of times,
and an endpoint's ok is followed by another only if the update of the row threw, or the job had stalled. -/
theorem repeats_bounded (r : (deliveries svc).Run h s) (d : Nat) :
    (s.posts svc d).length ≤ attempts + svc.maxStalledCount ∧
      ∀ (j : Nat) (job : Job V), s.jobs[j]? = some job → job.data.deliveryId = d →
        s.accepted d ≤ s.overlooked d + job.stalledCount + 1 := by
  refine ⟨posts_bounded r d, fun j job hj hd => ?_⟩
  subst hd
  exact accepted_bounded r hj

theorem repeats_bounded_secondTry : (secondTryEnd.posts plainService 0).length ≤ 4 ∧ secondTryEnd.accepted 0 ≤ 1 := by
  obtain ⟨hposts, haccepted⟩ := repeats_bounded secondTry_run 0
  exact ⟨hposts, haccepted 0 _ rfl rfl⟩

/-! ### Rows -/

/-- The step updates a row for the execution, with these readings of the clock. -/
def Label.Updates (label : Label V) (e lastAttempt now : Nat) : Prop :=
  label = .writes e lastAttempt now ∨ ∃ message, label = .unwritten e lastAttempt now true message

/-- What the row says is so: of an ok that the endpoint answered, or of an attempt that failed and of what is to come. -/
def Told (h : List (Label V)) (s : State V) (d : Nat) (row : WebhookDelivery V) : Prop :=
  match row.status with
  | .pending => row.attempts = 0 ∧ row.lastAttempt = none ∧ row.nextRetry = none ∧ row.response = none
  | .delivered => ∃ (e : Nat) (x : Execution V) (status : Nat), s.executions[e]? = some x ∧ x.data.deliveryId = d ∧
      x.status = some status ∧ ok status = true ∧ row.attempts = x.attemptsMade + 1 ∧
      row.response = some ("HTTP ".toList ++ (toString status).toList)
  | .retrying => ∃ (e : Nat) (x : Execution V) (lastAttempt now : Nat), s.executions[e]? = some x ∧
      x.data.deliveryId = d ∧ x.rejecting = true ∧ row.attempts = x.attemptsMade + 1 ∧ row.attempts < attempts ∧
      (∃ label ∈ h, label.Updates e lastAttempt now) ∧ row.lastAttempt = some lastAttempt ∧
      row.nextRetry = some (now + 1000 * 2 ^ x.attemptsMade)
  | .failed => ∃ (e : Nat) (x : Execution V), s.executions[e]? = some x ∧ x.data.deliveryId = d ∧
      x.rejecting = true ∧ row.attempts = x.attemptsMade + 1 ∧ attempts ≤ row.attempts ∧ row.nextRetry = none

theorem Told.step {d : Nat} {row : WebhookDelivery V} (ht : Told h s d row) (hsound : Sound s)
    (hs : Stepped svc s label s') : Told (label :: h) s' d row := by
  unfold Told at ht ⊢
  split at ht
  case h_1 => exact ht
  case h_2 =>
    obtain ⟨e, x, status, he, hd, hstatus, hrest⟩ := ht
    obtain ⟨x', he', hx⟩ := hs.leads hsound he
    exact ⟨e, x', status, he', by rw [hx.data, hd], hx.status _ hstatus, by rw [hx.attemptsMade]; exact hrest⟩
  case h_3 =>
    obtain ⟨e, x, lastAttempt, now, he, hd, hr, hattempts, hlt, ⟨label', hmem, hupdates⟩, hlast, hnext⟩ := ht
    obtain ⟨x', he', hx⟩ := hs.leads hsound he
    refine ⟨e, x', lastAttempt, now, he', by rw [hx.data, hd], hx.rejecting hr, by rw [hx.attemptsMade, hattempts],
      hlt, ⟨label', .tail _ hmem, hupdates⟩, hlast, by rw [hx.attemptsMade, hnext]⟩
  case h_4 =>
    obtain ⟨e, x, he, hd, hr, hrest⟩ := ht
    obtain ⟨x', he', hx⟩ := hs.leads hsound he
    exact ⟨e, x', he', by rw [hx.data, hd], hx.rejecting hr, by rw [hx.attemptsMade]; exact hrest⟩

/-- What a processor writes to a row is so once the call is over. -/
theorem write_told {e lastAttempt now : Nat} {x x' : Execution V} (he : s.executions[e]? = some x') (hx : x.Sound)
    (hleads : x.Leads x') (hpc : x.pc = .answered ∨ (∃ message, x.pc = .caught message) ∧ x'.rejecting = true)
    (hupdates : ∃ label ∈ h, label.Updates e lastAttempt now) (row : WebhookDelivery V) :
    Told h s x.data.deliveryId (x.write lastAttempt now row) := by
  obtain hpc | ⟨⟨message, hpc⟩, hr⟩ := hpc
  · obtain ⟨status, hstatus, hok⟩ := (Option.any_eq_true ..).1 (hx.accepted (.inl hpc))
    simp only [Told, Execution.write, hpc]
    refine ⟨e, x', status, he, by rw [hleads.data], hleads.status _ hstatus, hok, by rw [hleads.attemptsMade], ?_⟩
    rw [hstatus, Option.getD_some]
  · by_cases hagain : x.attemptsMade + 1 ≥ 3
    · simp only [Told, Execution.write, hpc, if_pos hagain, if_neg (Nat.not_lt.2 hagain)]
      exact ⟨e, x', he, by rw [hleads.data], hr, by rw [hleads.attemptsMade], hagain, trivial⟩
    · simp only [Told, Execution.write, hpc, if_neg hagain, if_pos (Nat.not_le.1 hagain)]
      exact ⟨e, x', lastAttempt, now, he, by rw [hleads.data], hr, by rw [hleads.attemptsMade],
        Nat.not_le.1 hagain, hupdates, rfl, by rw [hleads.attemptsMade]⟩

theorem Stepped.told (hs : Stepped svc s label s') (hsound : Sound s)
    (ht : ∀ (d : Nat) (row : WebhookDelivery V), s.deliveries[d]? = some row → Told h s d row) (d : Nat)
    (row : WebhookDelivery V) (hd : s'.deliveries[d]? = some row) : Told (label :: h) s' d row := by
  have hkept (hrow : s.deliveries[d]? = some row) : Told (label :: h) s' d row := (ht d row hrow).step hsound hs
  have hwritten {e lastAttempt now : Nat} {x x' : Execution V} (he : s.executions[e]? = some x) (hg : x.Goes x')
      (he' : s'.executions[e]? = some x') (hrow : s'.deliveries = (s.write x lastAttempt now).deliveries)
      (hpc : x.pc = .answered ∨ (∃ message, x.pc = .caught message) ∧ x'.rejecting = true)
      (hupdates : label.Updates e lastAttempt now) : Told (label :: h) s' d row := by
    rw [hrow] at hd
    obtain ⟨rfl, row', -, rfl⟩ | ⟨-, hd⟩ := Table.modify_eq_some.1 hd
    · exact write_told he' (hsound e x he) (hg.leads (hsound e x he)) hpc ⟨label, .head _, hupdates⟩ row'
    · exact hkept hd
  cases hs with
  | registered | refused | removed | requested | found | answered | broke | fetched | taken | stalled | added =>
    exact hkept hd
  | created hr hp hreq =>
    obtain hd | ⟨-, rfl⟩ := Table.added_eq_some.1 hd
    · exact hkept hd
    · exact ⟨rfl, rfl, rfl, rfl⟩
  | written he hpc =>
    refine hwritten he (.written hpc) (Table.set_self he) rfl ?_ (.inl rfl)
    obtain ⟨hpc, -⟩ | ⟨hpc, rfl⟩ := hpc
    · exact .inl hpc
    · exact .inr ⟨hpc, rfl⟩
  | @unwritten e lastAttempt now x s₁ effect message he hpc hs₁ =>
    obtain rfl | ⟨rfl, rfl⟩ := hs₁
    · exact hkept hd
    · have hg : x.Goes (x.throws message) := .throws (.inr hpc)
      refine hwritten he hg (Table.set_self he) rfl ?_ (.inr ⟨message, rfl⟩)
      obtain hpc | ⟨message', hpc⟩ := hpc
      · exact .inl hpc
      · exact .inr ⟨⟨message', hpc⟩, by simp [Execution.throws, Execution.rejecting, hpc]⟩
  | @settled e x resolved he hpc =>
    obtain ⟨job, hj, ha, heq⟩ | ⟨-, heq⟩ := settle_cases (s := s) e x resolved <;> rw [heq] at hd <;> exact hkept hd

theorem run_told (r : (deliveries svc).Run h s) (d : Nat) (row : WebhookDelivery V)
    (hd : s.deliveries[d]? = some row) : Told h s d row := by
  suffices hall : Sound s ∧ ∀ (d : Nat) (row : WebhookDelivery V), s.deliveries[d]? = some row → Told h s d row from
    hall.2 d row hd
  refine r.invariant (I := fun h s => Sound s ∧
    ∀ (d : Nat) (row : WebhookDelivery V), s.deliveries[d]? = some row → Told h s d row) ?_ ?_
  · rintro s rfl
    exact ⟨fun e x he => by simp [State.initial] at he, fun d row hd => by simp [State.initial] at hd⟩
  · rintro h s label s' - ⟨hsound, ht⟩ hs
    have hs := next_stepped hs
    exact ⟨hs.sound hsound, hs.told hsound ht⟩

theorem run_attemptsMade (r : (deliveries svc).Run h s) (e : Nat) (x : Execution V) (he : s.executions[e]? = some x) :
    x.attemptsMade < attempts := by
  refine r.invariant (I := fun _ s => ∀ (e : Nat) (x : Execution V), s.executions[e]? = some x →
    x.attemptsMade < attempts) ?_ ?_ e x he
  · rintro s rfl e x he
    simp [State.initial] at he
  · rintro h s label s' run hall hs e x he
    obtain ⟨hsound, hc⟩ := run_counted run
    have hst := next_stepped hs
    obtain heq | ⟨e', y, y', he', hg, heq⟩ | ⟨j, job, hj, hw, heq⟩ := hst.executions <;> rw [heq] at he
    · exact hall e x he
    · obtain ⟨-, rfl⟩ | ⟨-, he⟩ := (Table.set_eq_some he').1 he
      · rw [(hg.leads (hsound _ _ he')).attemptsMade]
        exact hall _ _ he'
      · exact hall e x he
    · obtain he | ⟨-, rfl⟩ := Table.added_eq_some.1 he
      · exact hall e x he
      · exact ((hc.job j job hj).again (by rw [hw]; rfl)).1

/-- Over every run: `DELIVERED` only with an answer that was ok, `FAILED` only after the last attempt, and the time of
the next attempt exactly where there is to be one: `1000 * 2 ^ (attempts - 1)` milliseconds after the second of the two
readings of the clock that the update made, the first being `lastAttempt`. -/
theorem status_honest (r : (deliveries svc).Run h s) {d : Nat} {row : WebhookDelivery V}
    (hd : s.deliveries[d]? = some row) :
    (row.status = .pending → row.attempts = 0) ∧ (row.status = .delivered → 0 < s.accepted d) ∧
    (row.status = .failed → row.attempts = attempts ∧ row.nextRetry = none) ∧
    (row.status = .retrying → 0 < row.attempts ∧ row.attempts < attempts ∧
      ∃ e x lastAttempt now, s.executions[e]? = some x ∧ x.data.deliveryId = d ∧ row.attempts = x.attemptsMade + 1 ∧
        (∃ label ∈ h, label.Updates e lastAttempt now) ∧ row.lastAttempt = some lastAttempt ∧
        row.nextRetry = some (now + 1000 * 2 ^ (row.attempts - 1))) := by
  have ht := run_told r d row hd
  unfold Told at ht
  refine ⟨fun hs => ?_, fun hs => ?_, fun hs => ?_, fun hs => ?_⟩ <;> rw [hs] at ht
  · exact ht.1
  · obtain ⟨e, x, status, he, hd, hstatus, hok, -⟩ := ht
    refine List.countP_pos_iff.2 ⟨x, List.mem_of_getElem? he, ?_⟩
    simp [hd, Execution.accepted, hstatus, hok]
  · obtain ⟨e, x, he, -, -, hattempts, hle, hnext⟩ := ht
    exact ⟨by have := run_attemptsMade r e x he; omega, hnext⟩
  · obtain ⟨e, x, lastAttempt, now, he, hd, -, hattempts, hlt, hupdates, hlast, hnext⟩ := ht
    refine ⟨by omega, hlt, e, x, lastAttempt, now, he, hd, hattempts, hupdates, hlast, ?_⟩
    rw [hnext, hattempts, Nat.add_sub_cancel]

/-- The run `secondTry` after its first post, to be tried again. -/
def firstTryEnd : State Text where
  webhooks := secondTryEnd.webhooks
  deliveries :=
    [⟨0, "mint".toList, secondTryBody, .retrying, 1, some 7, some 1008, some "HTTP 503: Busy".toList⟩]
  jobs := [⟨⟨"https://hook".toList, secondTryBody, 0, "s3cret".toList⟩, 0, 0, .active 0⟩]
  executions :=
    [⟨0, 0, ⟨"https://hook".toList, secondTryBody, 0, "s3cret".toList⟩, .settled false, some 503⟩]
  requests := secondTryEnd.requests

theorem firstTry_run : (deliveries plainService).Run (secondTry.take 9).reverse firstTryEnd := by
  have hs : (secondTry.take 9).foldlM (State.next plainService) State.initial = some firstTryEnd := by decide +kernel
  simpa using Lts.Run.of_foldlM (L := deliveries plainService) (fun _ _ _ => id) hs (.start rfl)

theorem status_honest_secondTry : 0 < secondTryEnd.accepted 0 ∧
    ∃ e x lastAttempt now, firstTryEnd.executions[e]? = some x ∧ x.data.deliveryId = 0 ∧ 1 = x.attemptsMade + 1 ∧
      (∃ label ∈ (secondTry.take 9).reverse, label.Updates e lastAttempt now) ∧ some 7 = some lastAttempt ∧
      some 1008 = some (now + 1000 * 2 ^ (1 - 1)) :=
  ⟨(status_honest secondTry_run rfl).2.1 rfl, ((status_honest firstTry_run (d := 0) rfl).2.2.2 rfl).2.2⟩

end ThawGate.WebhookService
