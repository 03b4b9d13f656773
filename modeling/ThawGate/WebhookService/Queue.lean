import ThawGate.WebhookService.Steps

/-!
# How often a delivery is posted

`Counted`: a job was taken once for each attempt that ended, once for each time it stalled, and once more while it is
active. So a delivery is posted at most `attempts + maxStalledCount` times (`posts_bounded`). An endpoint's ok may be
followed by another post only where the row was not written or the job had stalled; `accepted_bounded` counts these.
-/

namespace ThawGate.WebhookService

open Logs (Text)

variable {V : Type} {svc : Service V} {s s' : State V} {label : Label V} {h : List (Label V)}

namespace JobState

def isActive : JobState → Bool
  | .active _ => true
  | _ => false

/-- The queue will let no other worker begin, or one only after the lock has run out. -/
def isHeld : JobState → Bool
  | .active _ | .completed => true
  | _ => false

/-- The job may still be tried. -/
def isOpen : JobState → Bool
  | .active _ | .waiting => true
  | _ => false

end JobState

namespace State

/-- How often the job was taken. -/
def taken (s : State V) (j : Nat) : Nat := s.executions.countP (·.job = j)

/-- The executions of the job that have not ended by rejecting. -/
def unsettled (s : State V) (j : Nat) : Nat := s.executions.countP fun x => x.job = j ∧ x.pc ≠ .over false

end State

/-- What the counters of a job say about the numbers of its executions. -/
structure Job.Counted (svc : Service V) (job : Job V) (n m : Nat) : Prop where
  taken : n = job.attemptsMade + job.stalledCount + if job.state.isActive then 1 else 0
  unsettled : m ≤ job.stalledCount + if job.state.isHeld then 1 else 0
  limit : n ≤ attempts + svc.maxStalledCount
  again : job.state.isOpen → job.attemptsMade < attempts ∧ job.stalledCount ≤ svc.maxStalledCount

namespace Job.Counted

variable {job : Job V} {n m m' e : Nat}

theorem added (data : JobData V) : (Job.added data).Counted svc 0 0 :=
  ⟨rfl, Nat.zero_le _, Nat.zero_le _, fun _ => ⟨Nat.succ_pos _, Nat.zero_le _⟩⟩

theorem fewer (hc : job.Counted svc n m) (hm : m' ≤ m) : job.Counted svc n m' :=
  ⟨hc.taken, Nat.le_trans hm hc.unsettled, hc.limit, hc.again⟩

theorem take (hc : job.Counted svc n m) (hw : job.state = .waiting) :
    { job with state := .active e }.Counted svc (n + 1) (m + 1) := by
  obtain ⟨hlt, hle⟩ := hc.again (by rw [hw]; rfl)
  have htaken := hc.taken
  have hunsettled := hc.unsettled
  simp only [hw, JobState.isActive, JobState.isHeld, Bool.false_eq_true, if_false] at htaken hunsettled
  refine ⟨?_, ?_, by omega, fun _ => ⟨hlt, hle⟩⟩
  · simp only [JobState.isActive, if_true]
    omega
  · simp only [JobState.isHeld, if_true]
    omega

/-- With the lock's holder ends one execution that was not settled, or the job is completed. -/
theorem settle (hc : job.Counted svc n m) (ha : job.state = .active e) {resolved : Bool}
    (hm : m' + (if resolved then 0 else 1) ≤ m) : (job.settled resolved).Counted svc n m' := by
  obtain ⟨hlt, hle⟩ := hc.again (by rw [ha]; rfl)
  have htaken := hc.taken
  have hunsettled := hc.unsettled
  simp only [ha, JobState.isActive, JobState.isHeld, if_true] at htaken hunsettled
  cases resolved with
  | true =>
    refine ⟨?_, ?_, hc.limit, fun h => ?_⟩
    · simp only [Job.settled, JobState.isActive, if_true, Bool.false_eq_true, if_false]
      omega
    · simp only [Job.settled, JobState.isHeld, if_true] at hm ⊢
      omega
    · simp [Job.settled, JobState.isOpen] at h
  | false =>
    simp only [Bool.false_eq_true, if_false] at hm
    by_cases hagain : job.attemptsMade + 1 < attempts
    · refine ⟨?_, ?_, hc.limit, fun _ => ⟨hagain, hle⟩⟩
      · simp only [Job.settled, Bool.false_eq_true, if_false, if_pos hagain, JobState.isActive]
        omega
      · simp only [Job.settled, Bool.false_eq_true, if_false, if_pos hagain, JobState.isHeld]
        omega
    · refine ⟨?_, ?_, hc.limit, fun h => ?_⟩
      · simp only [Job.settled, Bool.false_eq_true, if_false, if_neg hagain, JobState.isActive]
        omega
      · simp only [Job.settled, Bool.false_eq_true, if_false, if_neg hagain, JobState.isHeld]
        omega
      · simp [Job.settled, hagain, JobState.isOpen] at h

theorem stall (hc : job.Counted svc n m) (ha : job.state = .active e) : (job.stalled svc).Counted svc n m := by
  obtain ⟨hlt, hle⟩ := hc.again (by rw [ha]; rfl)
  have htaken := hc.taken
  have hunsettled := hc.unsettled
  simp only [ha, JobState.isActive, JobState.isHeld, if_true] at htaken hunsettled
  by_cases hmax : job.stalledCount + 1 > svc.maxStalledCount
  · refine ⟨?_, ?_, hc.limit, fun h => ?_⟩
    · simp only [Job.stalled, if_pos hmax, JobState.isActive, Bool.false_eq_true, if_false]
      omega
    · simp only [Job.stalled, if_pos hmax, JobState.isHeld, Bool.false_eq_true, if_false]
      omega
    · simp [Job.stalled, hmax, JobState.isOpen] at h
  · refine ⟨?_, ?_, hc.limit, fun _ => ⟨hlt, Nat.le_of_not_lt hmax⟩⟩
    · simp only [Job.stalled, if_neg hmax, JobState.isActive, Bool.false_eq_true, if_false]
      omega
    · simp only [Job.stalled, if_neg hmax, JobState.isHeld, Bool.false_eq_true, if_false]
      omega

end Job.Counted

structure Counted (svc : Service V) (s : State V) : Prop where
  job : ∀ (j : Nat) (job : Job V), s.jobs[j]? = some job → job.Counted svc (s.taken j) (s.unsettled j)
  owner : ∀ (e : Nat) (x : Execution V), s.executions[e]? = some x →
    ∃ job : Job V, s.jobs[x.job]? = some job ∧ job.data = x.data

section counts

variable {e j : Nat} {x x' : Execution V} {job job' : Job V}

theorem taken_setExecution (he : s.executions[e]? = some x) (hx : x.Leads x') :
    (s.setExecution e x').taken j = s.taken j :=
  Table.countP_set_of_eq he (by rw [hx.job])

theorem unsettled_setExecution (he : s.executions[e]? = some x) (hx : x.Leads x') :
    (s.setExecution e x').unsettled j + (if x.job = j ∧ x.pc ≠ .over false then 1 else 0) =
      s.unsettled j + if x.job = j ∧ x'.pc ≠ .over false then 1 else 0 := by
  have hset := Table.countP_set (b := x') (p := fun x : Execution V => decide (x.job = j ∧ x.pc ≠ .over false)) he
  simp only [decide_eq_true_eq, hx.job] at hset
  exact hset

theorem Counted.taken_eq_zero (hc : Counted svc s) (hj : s.jobs[j]? = none) : s.taken j = 0 := by
  refine List.countP_eq_zero.2 fun x hx hxj => ?_
  obtain ⟨e, he⟩ := List.mem_iff_getElem?.1 hx
  obtain ⟨job, hjob, -⟩ := hc.owner e x he
  obtain rfl := of_decide_eq_true hxj
  rw [hj] at hjob
  contradiction

theorem unsettled_le_taken (s : State V) (j : Nat) : s.unsettled j ≤ s.taken j :=
  List.countP_mono_left fun _ _ h => decide_eq_true (of_decide_eq_true h).1

/-- An execution goes on, and its job with it. -/
theorem Counted.goesOn (hc : Counted svc s) (he : s.executions[e]? = some x) (hx : x.Leads x')
    (hpc : x.pc ≠ .over false) : Counted svc (s.setExecution e x') := by
  refine ⟨fun j job hj => ?_, fun e' y hy => ?_⟩
  · have hu := unsettled_setExecution (j := j) he hx
    rw [taken_setExecution he hx]
    refine (hc.job j job hj).fewer ?_
    by_cases hxj : x.job = j
    · simp only [hxj, hpc, ne_eq, not_false_eq_true, and_self, if_true, true_and] at hu
      split_ifs at hu <;> omega
    · simp only [hxj, false_and, if_false] at hu
      omega
  · rcases (Table.set_eq_some he).1 hy with ⟨rfl, rfl⟩ | ⟨-, hy⟩
    · obtain ⟨job, hjob, hdata⟩ := hc.owner e' x he
      exact ⟨job, by rw [hx.job]; exact hjob, hdata.trans hx.data.symm⟩
    · exact hc.owner e' y hy

/-- A job changes, and its data stay. -/
theorem Counted.setJob (hc : Counted svc s) (hj : s.jobs[j]? = some job) (hdata : job'.data = job.data)
    (hcounted : job'.Counted svc (s.taken j) (s.unsettled j)) : Counted svc (s.setJob j job') := by
  refine ⟨fun j' job₁ hj₁ => ?_, fun e x he => ?_⟩
  · rcases (Table.set_eq_some hj).1 hj₁ with ⟨rfl, rfl⟩ | ⟨-, hj₁⟩
    · exact hcounted
    · exact hc.job j' job₁ hj₁
  · obtain ⟨job₁, hj₁, hdata₁⟩ := hc.owner e x he
    by_cases hjob : x.job = j
    · rw [hjob] at hj₁ ⊢
      obtain rfl := Option.some.inj (hj.symm.trans hj₁)
      exact ⟨job', Table.set_self hj, hdata.trans hdata₁⟩
    · exact ⟨job₁, (Table.set_eq_some hj).2 (.inr ⟨hjob, hj₁⟩), hdata₁⟩

theorem Counted.settle (hc : Counted svc s) (hsound : Sound s) (he : s.executions[e]? = some x) {resolved : Bool}
    (hpc : x.pc = .settled resolved) : Counted svc (s.settle e x resolved) := by
  have hx := (Execution.Goes.ends hpc).leads (hsound e x he)
  have hends := hc.goesOn he hx (by simp [hpc])
  rcases settle_cases (s := s) e x resolved with ⟨job, hj, ha, heq⟩ | ⟨-, heq⟩
  · rw [heq]
    refine hends.setJob hj rfl ?_
    have hu := unsettled_setExecution (j := x.job) he hx
    rw [taken_setExecution he hx]
    refine (hc.job _ _ hj).settle ha (Nat.le_of_eq ?_)
    simp only [hpc, ne_eq, reduceCtorEq, not_false_eq_true, and_self, if_true, true_and, Pc.over.injEq] at hu
    cases resolved <;> simp at hu ⊢ <;> omega
  · rw [heq]
    exact hends

theorem Counted.take (hc : Counted svc s) (hj : s.jobs[j]? = some job) (hw : job.state = .waiting) :
    Counted svc (s.take j job) := by
  refine ⟨fun j' job' hj' => ?_, fun e x he => ?_⟩
  · rcases (Table.set_eq_some hj).1 hj' with ⟨rfl, rfl⟩ | ⟨hne, hj'⟩
    · have htaken : (s.take j' job).taken j' = s.taken j' + 1 := by simp [State.take, State.taken]
      have hunsettled : (s.take j' job).unsettled j' = s.unsettled j' + 1 := by simp [State.take, State.unsettled]
      rw [htaken, hunsettled]
      exact (hc.job j' job hj).take hw
    · have htaken : (s.take j job).taken j' = s.taken j' := by simp [State.take, State.taken, Ne.symm hne]
      have hunsettled : (s.take j job).unsettled j' = s.unsettled j' := by
        simp [State.take, State.unsettled, Ne.symm hne]
      rw [htaken, hunsettled]
      exact hc.job j' job' hj'
  · rcases Table.added_eq_some.1 he with he | ⟨-, rfl⟩
    · obtain ⟨job', hj', hdata⟩ := hc.owner e x he
      by_cases hjob : x.job = j
      · rw [hjob] at hj' ⊢
        obtain rfl := Option.some.inj (hj.symm.trans hj')
        exact ⟨_, Table.set_self hj, hdata⟩
      · exact ⟨job', (Table.set_eq_some hj).2 (.inr ⟨hjob, hj'⟩), hdata⟩
    · exact ⟨_, Table.set_self hj, rfl⟩

theorem Counted.addJob {w : Webhook} {d : Nat} {req : Request V} (hc : Counted svc s) :
    Counted svc (s.addJob w d req) := by
  refine ⟨fun j job hj => ?_, fun e x he => ?_⟩
  · rcases Table.added_eq_some.1 hj with hj | ⟨rfl, rfl⟩
    · exact hc.job j job hj
    · have htaken : s.taken s.jobs.length = 0 := hc.taken_eq_zero (List.getElem?_eq_none (Nat.le_refl _))
      have hunsettled : s.unsettled s.jobs.length = 0 :=
        Nat.eq_zero_of_le_zero (htaken ▸ unsettled_le_taken s _)
      show Job.Counted svc _ (s.taken s.jobs.length) (s.unsettled s.jobs.length)
      rw [htaken, hunsettled]
      exact .added _
  · obtain ⟨job, hj, hdata⟩ := hc.owner e x he
    exact ⟨job, Table.added_of hj, hdata⟩

end counts

theorem Counted.of_eq (hc : Counted svc s) (hj : s'.jobs = s.jobs) (he : s'.executions = s.executions) :
    Counted svc s' := by
  refine ⟨fun j job hjob => ?_, fun e x hx => ?_⟩
  · rw [State.taken, State.unsettled, he]
    exact hc.job j job (hj ▸ hjob)
  · rw [hj]
    exact hc.owner e x (he ▸ hx)

theorem Stepped.counted (hs : Stepped svc s label s') (hsound : Sound s) (hc : Counted svc s) : Counted svc s' := by
  have hgoes {e : Nat} {x x' : Execution V} (he : s.executions[e]? = some x) (hg : x.Goes x') :
      Counted svc (s.setExecution e x') := hc.goesOn he (hg.leads (hsound e x he)) hg.not_over
  cases hs with
  | registered | refused | removed | requested | found | created | answered | broke => exact hc.of_eq rfl rfl
  | added hr hp hreq => exact hc.addJob.of_eq rfl rfl
  | taken hj hw => exact hc.take hj hw
  | fetched he hpc hx =>
    obtain ⟨status, statusText, rfl⟩ | ⟨message, rfl⟩ := hx
    · exact hgoes he (.responds hpc)
    · exact hgoes he (.throws (.inl hpc))
  | written he hpc => exact (hgoes he (.written hpc)).of_eq rfl rfl
  | @unwritten e _ _ x s₁ effect message he hpc hs₁ =>
    have hthrows : Counted svc (s.setExecution e (x.throws message)) := hgoes he (.throws (.inr hpc))
    obtain rfl | ⟨-, rfl⟩ := hs₁
    · exact hthrows
    · exact hthrows.of_eq rfl rfl
  | settled he hpc => exact hc.settle hsound he hpc
  | stalled hj ha => exact hc.setJob hj rfl ((hc.job _ _ hj).stall ha)

theorem run_counted (r : (deliveries svc).Run h s) : Sound s ∧ Counted svc s := by
  refine r.invariant (I := fun _ s => Sound s ∧ Counted svc s) ?_ ?_
  · rintro s rfl
    exact ⟨fun e x he => by simp [State.initial] at he,
      fun j job hj => by simp [State.initial] at hj, fun e x he => by simp [State.initial] at he⟩
  · rintro h s label s' - ⟨hsound, hc⟩ hs
    have hs := next_stepped hs
    exact ⟨hs.sound hsound, hs.counted hsound hc⟩

end ThawGate.WebhookService
