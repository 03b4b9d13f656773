import ThawGate.WebhookService.Outcomes

/-!
# Without faults a row says what happened

`outcome_told`: in a run where no update of a row throws and no job stalls, a job that is done was answered with ok
once and its row is `DELIVERED`, or it was posted `attempts` times without an ok and its row is `FAILED`. `Agrees` is the
invariant: it says of every place where a job and its execution may be what the row's status is, and whether the
endpoint has answered with ok.
-/

namespace ThawGate.WebhookService

open Logs (Text)

variable {V : Type} {svc : Service V} {s s' : State V} {label : Label V} {h : List (Label V)}

/-- No update of a row throws, and no job stalls. -/
def Label.Faultless : Label V → Prop
  | .unwritten .. | .stalls _ => False
  | _ => True

instance (label : Label V) : Decidable label.Faultless :=
  match label with
  | .unwritten .. | .stalls _ => isFalse id
  | .register .. | .remove _ | .deliver .. | .finds .. | .proceeds _ | .breaks .. | .takes _ | .responds .. | .unanswered ..
  | .writes .. | .settles _ => isTrue trivial

/-- The status of a row before its next attempt. -/
def beforeAttempt (attemptsMade : Nat) : DeliveryStatus := if attemptsMade = 0 then .pending else .retrying

/-- The status of a row after an attempt that failed. -/
def afterFailure (attemptsMade : Nat) : DeliveryStatus := if attemptsMade + 1 ≥ 3 then .failed else .retrying

/-- The row's status and the number of ok answers while the processor is there. -/
def Pc.told (attemptsMade : Nat) : Pc → DeliveryStatus × Nat
  | .fetching | .caught _ => (beforeAttempt attemptsMade, 0)
  | .answered => (beforeAttempt attemptsMade, 1)
  | .settled true | .over true => (.delivered, 1)
  | .settled false | .over false => (afterFailure attemptsMade, 0)

namespace State

def acceptedBy (s : State V) (j : Nat) : Nat := s.executions.countP fun x => x.job = j ∧ x.accepted = true

/-- What the job's place says of its row and of the answers. -/
def said (s : State V) (job : Job V) : DeliveryStatus × Nat :=
  match job.state with
  | .waiting => (beforeAttempt job.attemptsMade, 0)
  | .active e =>
    match s.executions[e]? with
    | some x => x.pc.told job.attemptsMade
    | none => (.pending, 0)
  | .completed => (.delivered, 1)
  | .failed => (.failed, 0)

end State

structure Agrees (s : State V) (j : Nat) (job : Job V) : Prop where
  others : ∀ (e : Nat) (x : Execution V), s.executions[e]? = some x → x.job = j →
    job.state = .active e ∨ ∃ resolved, x.pc = .over resolved
  holder : ∀ e, job.state = .active e → ∃ x : Execution V, s.executions[e]? = some x ∧ x.job = j ∧
    x.attemptsMade = job.attemptsMade
  said : ∃ row : WebhookDelivery V, s.deliveries[job.data.deliveryId]? = some row ∧
    (row.status, s.acceptedBy j) = s.said job

/-- What a job agrees with stays, where its row's status and its executions do. -/
theorem Agrees.frame {j : Nat} {job : Job V} (ha : Agrees s j job)
    (hx : ∀ (e : Nat) (x : Execution V), x.job = j → (s'.executions[e]? = some x ↔ s.executions[e]? = some x))
    (hacc : s'.acceptedBy j = s.acceptedBy j)
    (hrow : ∀ row : WebhookDelivery V, s.deliveries[job.data.deliveryId]? = some row →
      ∃ row' : WebhookDelivery V, s'.deliveries[job.data.deliveryId]? = some row' ∧ row'.status = row.status) :
    Agrees s' j job := by
  refine ⟨fun e x he hjob => ha.others e x ((hx e x hjob).1 he) hjob, fun e he => ?_, ?_⟩
  · obtain ⟨x, hex, hjob, hmade⟩ := ha.holder e he
    exact ⟨x, (hx e x hjob).2 hex, hjob, hmade⟩
  · obtain ⟨row, hd, hsaid⟩ := ha.said
    obtain ⟨row', hd', hstatus⟩ := hrow row hd
    refine ⟨row', hd', ?_⟩
    rw [hstatus, hacc, hsaid]
    unfold State.said
    split
    case h_2 e he =>
      obtain ⟨x, hex, hjob, -⟩ := ha.holder e he
      rw [hex, (hx e x hjob).2 hex]
    all_goals rfl

section step

variable {e j : Nat} {x x' : Execution V} {job : Job V}

theorem acceptedBy_set (x' : Execution V) (he : s.executions[e]? = some x) (hjob : x'.job = x.job) (j : Nat) :
    (s.setExecution e x').acceptedBy j + (if x.job = j ∧ x.accepted = true then 1 else 0) =
      s.acceptedBy j + if x.job = j ∧ x'.accepted = true then 1 else 0 := by
  have hset := Table.countP_set (b := x') (p := fun x : Execution V => decide (x.job = j ∧ x.accepted = true)) he
  simp only [decide_eq_true_eq, hjob] at hset
  exact hset

/-- The execution of another job goes on. -/
theorem Agrees.setExecution_of_ne (ha : Agrees s j job) (x' : Execution V) (he : s.executions[e]? = some x)
    (hjob : x'.job = x.job) (hne : x.job ≠ j) : Agrees (s.setExecution e x') j job := by
  refine ha.frame (fun e' y hy => ?_) ?_ fun row hrow => ⟨row, hrow, rfl⟩
  · refine (Table.set_eq_some he).trans ⟨?_, fun he' => .inr ⟨?_, he'⟩⟩
    · rintro (⟨rfl, rfl⟩ | ⟨-, he'⟩)
      · exact absurd (hjob.symm.trans hy) hne
      · exact he'
    · rintro rfl
      obtain rfl := Option.some.inj (he.symm.trans he')
      exact hne hy
  · have hset := acceptedBy_set x' he hjob j
    simpa [hne] using hset

/-- The execution that holds a job's lock goes on, and its row is written to as its place says. -/
theorem Agrees.goesOn (ha : Agrees s j job) (hstate : job.state = .active e) (he : s.executions[e]? = some x)
    (hx : x.Leads x') (hjob : x.job = j) {row : WebhookDelivery V}
    (hrow : s'.deliveries[job.data.deliveryId]? = some row) (hexec : s'.executions = s.executions.set e x')
    (hsaid : (row.status, s.acceptedBy j + (if x'.accepted = true then 1 else 0)) =
      ((x'.pc.told job.attemptsMade).1, (x'.pc.told job.attemptsMade).2 + if x.accepted = true then 1 else 0)) :
    Agrees s' j job := by
  have he' : s'.executions[e]? = some x' := by
    rw [hexec]
    exact Table.set_self he
  refine ⟨fun e₁ y hy hyj => ?_, fun e₁ he₁ => ?_, row, hrow, ?_⟩
  · rw [hexec] at hy
    obtain ⟨rfl, -⟩ | ⟨-, hy⟩ := (Table.set_eq_some he).1 hy
    · exact .inl hstate
    · exact ha.others e₁ y hy hyj
  · obtain rfl : e = e₁ := JobState.active.inj (hstate.symm.trans he₁)
    obtain ⟨y, hy, hyj, hmade⟩ := ha.holder e hstate
    obtain rfl := Option.some.inj (he.symm.trans hy)
    exact ⟨x', he', hx.job.trans hyj, hx.attemptsMade.trans hmade⟩
  · have hset := acceptedBy_set x' he hx.job j
    have hacc : s'.acceptedBy j = (s.setExecution e x').acceptedBy j := by
      rw [State.acceptedBy, hexec]
      rfl
    simp only [hjob, true_and] at hset
    obtain ⟨hstatus, hcount⟩ := Prod.mk.inj hsaid
    simp only [State.said, hstate, he']
    exact Prod.ext hstatus (by rw [hacc]; dsimp only; omega)

end step

/-! ### Steps -/

/-- The invariants that the steps use. -/
structure Facts (svc : Service V) (h : List (Label V)) (s : State V) : Prop where
  sound : Sound s
  counted : Counted svc s
  rows : Rows svc h s
  requests : Requests svc h s
  told : ∀ (d : Nat) (row : WebhookDelivery V), s.deliveries[d]? = some row → Told h s d row

theorem run_facts (r : (deliveries svc).Run h s) : Facts svc h s :=
  ⟨(run_counted r).1, (run_counted r).2, (run_routed r).1, (run_routed r).2, run_told r⟩

section step

variable {e j : Nat} {x x' : Execution V} {job : Job V}

/-- An execution that is not over holds the lock of its job. -/
theorem Facts.holds (hf : Facts svc h s) (ha : ∀ (j : Nat) (job : Job V), s.jobs[j]? = some job → Agrees s j job)
    (he : s.executions[e]? = some x) (hpc : ∀ resolved, x.pc ≠ .over resolved) :
    ∃ job, s.jobs[x.job]? = some job ∧ job.state = .active e ∧ x.data = job.data ∧ x.attemptsMade = job.attemptsMade ∧
      ∃ row : WebhookDelivery V, s.deliveries[job.data.deliveryId]? = some row ∧
        (row.status, s.acceptedBy x.job) = x.pc.told job.attemptsMade := by
  obtain ⟨job, hj, hdata⟩ := hf.counted.owner e x he
  have hagrees := ha x.job job hj
  obtain hstate | ⟨resolved, hover⟩ := hagrees.others e x he rfl
  swap
  · exact absurd hover (hpc resolved)
  obtain ⟨y, hy, -, hmade⟩ := hagrees.holder e hstate
  obtain rfl := Option.some.inj (he.symm.trans hy)
  obtain ⟨row, hrow, hsaid⟩ := hagrees.said
  rw [State.said, hstate] at hsaid
  simp only [he] at hsaid
  exact ⟨job, hj, hstate, hdata.symm, hmade, row, hrow, hsaid⟩

/-- A processor whose request is out hears of it. -/
theorem fetched_agrees (hf : Facts svc h s) (ha : ∀ (j : Nat) (job : Job V), s.jobs[j]? = some job → Agrees s j job)
    (he : s.executions[e]? = some x) (hpc : x.pc = .fetching)
    (hx : (∃ status statusText, x' = x.respond status statusText) ∨ ∃ message, x' = x.throws message)
    (hj : s.jobs[j]? = some job) : Agrees (s.setExecution e x') j job := by
  have hsound := hf.sound e x he
  have hgoes : x.Goes x' := by
    obtain ⟨status, statusText, rfl⟩ | ⟨message, rfl⟩ := hx
    · exact .responds hpc
    · exact .throws (.inl hpc)
  by_cases hjob : x.job = j
  swap
  · exact (ha j job hj).setExecution_of_ne x' he (hgoes.leads hsound).job hjob
  subst hjob
  obtain ⟨job', hj', hstate, hdata, hmade, row, hrow, hsaid⟩ := hf.holds ha he (by simp [hpc])
  obtain rfl := Option.some.inj (hj.symm.trans hj')
  refine (ha x.job job hj).goesOn hstate he (hgoes.leads hsound) rfl hrow rfl ?_
  have hnone : x.accepted = false := by simp [Execution.accepted, hsound.unanswered hpc]
  rw [hpc] at hsaid
  obtain ⟨hstatus, hcount⟩ := Prod.mk.inj hsaid
  rw [hnone, hcount, hstatus]
  obtain ⟨status, statusText, rfl⟩ | ⟨message, rfl⟩ := hx
  · by_cases hok : ok status <;> simp [Execution.respond, Execution.accepted, hok, Pc.told]
  · have hthrows : (x.throws message).accepted = false := hnone
    rw [hthrows]
    simp [Execution.throws, hpc, Pc.told]

/-- A processor writes its row. -/
theorem written_agrees (hf : Facts svc h s) (ha : ∀ (j : Nat) (job : Job V), s.jobs[j]? = some job → Agrees s j job)
    {lastAttempt now : Nat} {resolved : Bool} (he : s.executions[e]? = some x)
    (hpc : x.pc = .answered ∧ resolved = true ∨ (∃ message, x.pc = .caught message) ∧ resolved = false)
    (hj : s.jobs[j]? = some job) :
    Agrees ((s.write x lastAttempt now).setExecution e { x with pc := .settled resolved }) j job := by
  have hover : ∀ resolved, x.pc ≠ .over resolved := fun _ => (Execution.Goes.written hpc).not_over
  obtain ⟨job', hj', hstate, hdata, hmade, row, hrow, hsaid⟩ := hf.holds ha he hover
  by_cases hjob : x.job = j
  swap
  · -- The row of another job is another row.
    have hne : job.data.deliveryId ≠ x.data.deliveryId := by
      rintro heq
      exact hjob (hf.rows.once _ _ _ _ (queued_of_job hj') (queued_of_job hj) (by rw [heq, hdata]))
    refine ((ha j job hj).setExecution_of_ne { x with pc := .settled resolved } he rfl hjob).frame
      (fun _ _ _ => Iff.rfl) rfl fun row' hrow' => ⟨row', ?_, rfl⟩
    exact Table.modify_eq_some.2 (.inr ⟨hne, hrow'⟩)
  subst hjob
  obtain rfl := Option.some.inj (hj.symm.trans hj')
  let s' := (s.write x lastAttempt now).setExecution e { x with pc := .settled resolved }
  have hwritten : s'.deliveries[job.data.deliveryId]? = some (x.write lastAttempt now row) :=
    Table.modify_eq_some.2 (.inl ⟨by rw [hdata], row, hrow, rfl⟩)
  refine (ha x.job job hj).goesOn hstate he ((Execution.Goes.written hpc).leads (hf.sound e x he)) rfl hwritten rfl ?_
  have hcount := (Prod.mk.inj hsaid).2
  have haccepted : ({ x with pc := .settled resolved } : Execution V).accepted = x.accepted := rfl
  rw [haccepted, hcount]
  obtain ⟨hpc, rfl⟩ | ⟨⟨message, hpc⟩, rfl⟩ := hpc
  · simp [Execution.write, Pc.told, hpc]
  · simp [Execution.write, Pc.told, hpc, afterFailure, hmade]

/-- The queue hears how a processor ended. -/
theorem settled_agrees (hf : Facts svc h s) (ha : ∀ (j : Nat) (job : Job V), s.jobs[j]? = some job → Agrees s j job)
    {resolved : Bool} (he : s.executions[e]? = some x) (hpc : x.pc = .settled resolved) {job₁ : Job V}
    (hj : (s.settle e x resolved).jobs[j]? = some job₁) : Agrees (s.settle e x resolved) j job₁ := by
  obtain ⟨job, hj', hstate, hdata, hmade, row, hrow, hsaid⟩ := hf.holds ha he (by simp [hpc])
  obtain ⟨job', hj'', -, heq⟩ | ⟨hnone, -⟩ := settle_cases (s := s) e x resolved
  swap
  · exact absurd hstate (hnone job hj')
  obtain rfl := Option.some.inj (hj'.symm.trans hj'')
  rw [heq] at hj ⊢
  obtain ⟨rfl, rfl⟩ | ⟨hne, hj⟩ := (Table.set_eq_some (l := (s.setExecution e _).jobs) hj').1 hj
  swap
  · exact ((ha j job₁ hj).setExecution_of_ne { x with pc := .over resolved } he rfl (Ne.symm hne)).frame
      (fun _ _ _ => Iff.rfl) rfl fun row hrow => ⟨row, hrow, rfl⟩
  refine ⟨fun e₁ y hy hyj => ?_, fun e₁ he₁ => ?_, row, hrow, ?_⟩
  · obtain ⟨-, rfl⟩ | ⟨hne, hy⟩ := (Table.set_eq_some he).1 hy
    · exact .inr ⟨resolved, rfl⟩
    · refine .inr (((ha x.job job hj').others e₁ y hy hyj).resolve_left fun hstate' => hne ?_)
      exact (JobState.active.inj (hstate.symm.trans hstate')).symm
  · exfalso
    simp only [Job.settled] at he₁
    split_ifs at he₁
  · have hset := acceptedBy_set { x with pc := .over resolved } he rfl x.job
    have hacc : (s.setExecution e { x with pc := .over resolved }).acceptedBy x.job = s.acceptedBy x.job :=
      Nat.add_right_cancel hset
    show (row.status, (s.setExecution e { x with pc := .over resolved }).acceptedBy x.job) = _
    rw [hacc, hsaid, hpc]
    cases resolved with
    | true => simp [State.said, Job.settled, Pc.told]
    | false =>
      by_cases hagain : job.attemptsMade + 1 < attempts
      · simp [State.said, Job.settled, Pc.told, afterFailure, beforeAttempt, hagain, show ¬2 ≤ job.attemptsMade by
          unfold attempts at hagain; omega]
      · simp [State.said, Job.settled, Pc.told, afterFailure, hagain, show 2 ≤ job.attemptsMade by
          unfold attempts at hagain; omega]

/-- A worker takes a job. -/
theorem taken_agrees (ha : ∀ (j : Nat) (job : Job V), s.jobs[j]? = some job → Agrees s j job)
    {i : Nat} {job₀ : Job V} (hi : s.jobs[i]? = some job₀) (hw : job₀.state = .waiting)
    (hj : (s.take i job₀).jobs[j]? = some job) : Agrees (s.take i job₀) j job := by
  have hacc : (s.take i job₀).acceptedBy j = s.acceptedBy j := by
    simp [State.acceptedBy, State.take, Execution.accepted]
  obtain ⟨rfl, rfl⟩ | ⟨hne, hj⟩ := (Table.set_eq_some hi).1 hj
  · have hagrees := ha j job₀ hi
    obtain ⟨row, hrow, hsaid⟩ := hagrees.said
    have hlast : (s.take j job₀).executions[s.executions.length]? =
        some ⟨j, job₀.attemptsMade, job₀.data, .fetching, none⟩ := Table.added_last
    refine ⟨fun e x he hjob => ?_, fun e he => ?_, row, hrow, ?_⟩
    · obtain he | ⟨rfl, -⟩ := Table.added_eq_some.1 he
      · refine .inr ((hagrees.others e x he hjob).resolve_left ?_)
        simp [hw]
      · exact .inl rfl
    · obtain rfl := JobState.active.inj he
      exact ⟨_, hlast, rfl, rfl⟩
    · rw [hacc, hsaid]
      simp only [State.said, hw, hlast, Pc.told]
  · refine (ha j job hj).frame (fun e x hjob => ?_) hacc fun row hrow => ⟨row, hrow, rfl⟩
    refine Table.added_eq_some.trans ⟨?_, .inl⟩
    rintro (he | ⟨-, rfl⟩)
    · exact he
    · exact absurd hjob.symm hne

/-- A job is added for a row that no other has written to. -/
theorem added_agrees (hf : Facts svc h s) (ha : ∀ (j : Nat) (job : Job V), s.jobs[j]? = some job → Agrees s j job)
    {r d : Nat} {req : Request V} {w : Webhook} {rest : List (Nat × Webhook)} (hr : s.requests[r]? = some req)
    (hp : req.phase = .adding w d rest) (hj : (s.addJob w d req).jobs[j]? = some job) :
    Agrees (s.addJob w d req) j job := by
  obtain hj | ⟨rfl, rfl⟩ := Table.added_eq_some.1 hj
  · exact (ha j job hj).frame (fun _ _ _ => Iff.rfl) rfl fun row hrow => ⟨row, hrow, rfl⟩
  have hat := hf.requests.at_ r req hr
  simp only [Request.At, hp] at hat
  obtain ⟨id, -, htarget, hnew⟩ := hat
  rw [State.targets, List.getElem?_map, Option.map_eq_some_iff] at htarget
  obtain ⟨row, hrow, -⟩ := htarget
  have hnone (e : Nat) (x : Execution V) (he : s.executions[e]? = some x) : x.data.deliveryId ≠ d := by
    obtain ⟨job, hj, hdata⟩ := hf.counted.owner e x he
    exact hdata ▸ hnew _ _ (queued_of_job hj)
  have hpending : row.status = .pending := by
    have ht := hf.told d row hrow
    unfold Told at ht
    split at ht
    case h_1 hs => exact hs
    case h_2 =>
      obtain ⟨e, x, _, he, hd, -⟩ := ht
      exact absurd hd (hnone e x he)
    case h_3 =>
      obtain ⟨e, x, _, _, he, hd, -⟩ := ht
      exact absurd hd (hnone e x he)
    case h_4 =>
      obtain ⟨e, x, he, hd, -⟩ := ht
      exact absurd hd (hnone e x he)
  have hfresh (e : Nat) (x : Execution V) (he : s.executions[e]? = some x) : x.job ≠ s.jobs.length := by
    obtain ⟨job, hj, -⟩ := hf.counted.owner e x he
    exact Nat.ne_of_lt (Table.lt_of_eq_some hj)
  have hzero : s.acceptedBy s.jobs.length = 0 := by
    refine List.countP_eq_zero.2 fun x hx => ?_
    obtain ⟨e, he⟩ := List.mem_iff_getElem?.1 hx
    simp [hfresh e x he]
  refine ⟨fun e x he hjob => absurd hjob (hfresh e x he), fun e he => by simp [Job.added] at he, row, hrow, ?_⟩
  show (row.status, s.acceptedBy s.jobs.length) = _
  rw [hpending, hzero]
  rfl

end step

theorem Stepped.agrees (hs : Stepped svc s label s') (hf : Facts svc h s) (hl : label.Faultless)
    (ha : ∀ (j : Nat) (job : Job V), s.jobs[j]? = some job → Agrees s j job) (j : Nat) (job : Job V)
    (hj : s'.jobs[j]? = some job) : Agrees s' j job := by
  have hsame (hjobs : s'.jobs = s.jobs) (hexec : s'.executions = s.executions)
      (hrow : ∀ (d : Nat) (row : WebhookDelivery V), s.deliveries[d]? = some row → s'.deliveries[d]? = some row) :
      Agrees s' j job :=
    (ha j job (hjobs ▸ hj)).frame (fun _ _ _ => by rw [hexec]) (by rw [State.acceptedBy, hexec]; rfl)
      fun row hd => ⟨row, hrow _ row hd, rfl⟩
  cases hs with
  | registered | refused | removed | requested | found | answered | broke => exact hsame rfl rfl fun _ _ hd => hd
  | created hr hp hreq => exact hsame rfl rfl fun _ _ hd => Table.added_of hd
  | added hr hp hreq =>
    exact (added_agrees hf ha hr hp hj).frame (fun _ _ _ => Iff.rfl) rfl fun row hrow => ⟨row, hrow, rfl⟩
  | taken hi hw => exact taken_agrees ha hi hw hj
  | fetched he hpc hx => exact fetched_agrees hf ha he hpc hx hj
  | written he hpc => exact written_agrees hf ha he hpc hj
  | unwritten => contradiction
  | settled he hpc => exact settled_agrees hf ha he hpc hj
  | stalled => contradiction

theorem run_agrees (r : ((deliveries svc).restrict fun _ label _ => label.Faultless).Run h s) (j : Nat) (job : Job V)
    (hj : s.jobs[j]? = some job) : Agrees s j job := by
  refine r.invariant (I := fun _ s => ∀ (j : Nat) (job : Job V), s.jobs[j]? = some job → Agrees s j job) ?_ ?_ j job hj
  · rintro s rfl j job hj
    simp [State.initial] at hj
  · rintro h s label s' run ha ⟨hl, hs⟩
    exact (next_stepped hs).agrees (run_facts run.of_restrict) hl ha

/-! ### What the rows tell -/

/-- A failed job has been tried as often as it may. -/
theorem failed_attempts (r : ((deliveries svc).restrict fun _ label _ => label.Faultless).Run h s) (j : Nat)
    (job : Job V) (hj : s.jobs[j]? = some job) :
    job.stalledCount = 0 ∧ (job.state = .failed → job.attemptsMade = attempts) := by
  refine r.invariant (I := fun _ s => ∀ (j : Nat) (job : Job V), s.jobs[j]? = some job →
    job.stalledCount = 0 ∧ (job.state = .failed → job.attemptsMade = attempts)) ?_ ?_ j job hj
  · rintro s rfl j job hj
    simp [State.initial] at hj
  · rintro h s label s' run hall ⟨hl, hs⟩ j job hj
    have hc := (run_counted run.of_restrict).2
    cases next_stepped hs with
    | registered | refused | removed | requested | found | created | answered | broke | fetched | written =>
      exact hall j job hj
    | unwritten | stalled => contradiction
    | added =>
      obtain hj | ⟨-, rfl⟩ := Table.added_eq_some.1 hj
      · exact hall j job hj
      · exact ⟨rfl, fun h => by simp [Job.added] at h⟩
    | taken hi hw =>
      obtain ⟨rfl, rfl⟩ | ⟨-, hj⟩ := (Table.set_eq_some hi).1 hj
      · exact ⟨(hall j _ hi).1, fun h => by simp at h⟩
      · exact hall j job hj
    | @settled e x resolved he hpc =>
      obtain ⟨job₀, hj₀, hstate, heq⟩ | ⟨-, heq⟩ := settle_cases (s := s) e x resolved <;> rw [heq] at hj
      · obtain ⟨rfl, rfl⟩ | ⟨-, hj⟩ := (Table.set_eq_some (l := (s.setExecution e _).jobs) hj₀).1 hj
        · refine ⟨(hall _ _ hj₀).1, fun h => ?_⟩
          have hlt := ((hc.job _ _ hj₀).again (by rw [hstate]; rfl)).1
          simp only [Job.settled] at h ⊢
          split_ifs at h with _ hagain
          omega
        · exact hall j job hj
      · exact hall j job hj

/-- In a run where no update of a row throws and no job stalls, a job that is done ends in one of two ways. -/
theorem outcome_told (r : ((deliveries svc).restrict fun _ label _ => label.Faultless).Run h s) {j : Nat} {job : Job V}
    (hj : s.jobs[j]? = some job) (hdone : job.state = .completed ∨ job.state = .failed) :
    ∃ row : WebhookDelivery V, s.deliveries[job.data.deliveryId]? = some row ∧
      (row.status = .delivered ∧ s.accepted job.data.deliveryId = 1 ∨
        row.status = .failed ∧ s.accepted job.data.deliveryId = 0 ∧
          (s.posts svc job.data.deliveryId).length = attempts) := by
  have hf := run_facts r.of_restrict
  have hc := hf.counted
  have hrows := hf.rows
  obtain ⟨row, hrow, hsaid⟩ := (run_agrees r j job hj).said
  have hacc : s.accepted job.data.deliveryId = s.acceptedBy j :=
    List.countP_congr fun x hx => by simp only [decide_eq_true_eq, job_of_delivery hrows hc hj hx]
  refine ⟨row, hrow, ?_⟩
  rw [hacc]
  obtain hstate | hstate := hdone <;> rw [State.said, hstate] at hsaid <;>
    obtain ⟨hstatus, hcount⟩ := Prod.mk.inj hsaid
  · exact .inl ⟨hstatus, hcount⟩
  · refine .inr ⟨hstatus, hcount, ?_⟩
    obtain ⟨hstalled, hmade⟩ := failed_attempts r j job hj
    rw [posts_length, taken_eq hrows hc hj, (hc.job j job hj).taken, hstalled, hmade hstate, hstate]
    rfl

theorem outcome_told_secondTry : ∃ row : WebhookDelivery Text, secondTryEnd.deliveries[0]? = some row ∧
    (row.status = .delivered ∧ secondTryEnd.accepted 0 = 1 ∨ row.status = .failed ∧ secondTryEnd.accepted 0 = 0 ∧
      (secondTryEnd.posts plainService 0).length = attempts) := by
  let next (s : State Text) (label : Label Text) : Option (State Text) :=
    if label.Faultless then s.next plainService label else none
  have hs : secondTry.foldlM next State.initial = some secondTryEnd := by decide +kernel
  have r : ((deliveries plainService).restrict fun _ label _ => label.Faultless).Run secondTry.reverse secondTryEnd := by
    rw [← List.append_nil secondTry.reverse]
    refine Lts.Run.of_foldlM (f := next) (fun s label s' hnext => ?_) hs (.start rfl)
    exact Option.ite_none_right_eq_some.1 hnext
  exact outcome_told r (j := 0) rfl (.inl rfl)

end ThawGate.WebhookService
