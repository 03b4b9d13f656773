import ThawGate.Lib.Trace

/-!
# Resync requests

`requestResync`, `resync` and the loop behind the `resyncing` promise. JavaScript runs one callback at a time, so
an event here is a call or a callback, and between any two of them any others may come. `resyncOnce` is open:
it settles some time after it was called, or throws, and the loop goes on from there in a callback of its own.

The loop's last check and the clearing of `resyncing` are two callbacks. A request between the two, and one
during a pass that then throws, sets `resyncRequested` with no loop left to look at it: it waits for the next call
(`dropped_waits`). Every other request is followed by a pass that starts after it (`requests_served`).
-/

namespace ThawGate.Keeper

inductive ResyncLoop where
  /-- `resyncing` is undefined. -/
  | idle
  /-- `resyncOnce` has been called, and the loop has not gone on from it. -/
  | pass
  /-- The loop is over, and the `finally` callback that clears `resyncing` is still to run. -/
  | finishing
  deriving DecidableEq, Repr

structure Resync where
  loop : ResyncLoop
  resyncRequested : Bool
  stopped : Bool
  passes : Nat
  deriving DecidableEq, Repr

namespace Resync

def initial : Resync := ⟨.idle, false, false, 0⟩

/-- The body of the loop, until `resyncOnce` first waits. -/
def startPass (s : Resync) : Resync :=
  { s with loop := .pass, resyncRequested := false, passes := s.passes + 1 }

def resync (s : Resync) : Resync :=
  match s.loop with
  | .idle => s.startPass
  | .pass | .finishing => { s with resyncRequested := true }

/-- Where nothing is running, what is spawned calls `resync` at once. -/
def requestResync (s : Resync) : Resync :=
  let s := { s with resyncRequested := true }
  if s.loop = .idle then s.resync else s

/-- The loop goes on after `resyncOnce`: it ends if that threw, and else looks at the two flags. -/
def settled (s : Resync) (threw : Bool) : Resync :=
  if threw then { s with loop := .finishing }
  else if s.resyncRequested ∧ ¬s.stopped then s.startPass
  else { s with loop := .finishing }

end Resync

inductive ResyncEvent where
  | resync
  | requestResync
  | settled (threw : Bool)
  | cleared
  | stop
  | other
  deriving DecidableEq, Repr

namespace ResyncEvent

def isRequest (e : ResyncEvent) : Prop := e = .resync ∨ e = .requestResync

def ofLoop : ResyncEvent → Prop
  | settled _ | cleared => True
  | _ => False

end ResyncEvent

namespace Resync

def next (s : Resync) : ResyncEvent → Option Resync
  | .resync => some s.resync
  | .requestResync => some s.requestResync
  | .settled threw => if s.loop = .pass then some (s.settled threw) else none
  | .cleared => if s.loop = .finishing then some { s with loop := .idle } else none
  | .stop => some { s with stopped := true }
  | .other => some s

def machine : Lts Resync ResyncEvent where
  start s := s = initial
  step s e s' := s.next e = some s'

def Due (s : Resync) : Prop := s.loop ≠ .idle

/-- A pass starts in the step, or the keeper is stopped. -/
def Serves (s s' : Resync) : Prop := s.passes < s'.passes ∨ s'.stopped = true

/-- A step that drops no request: no pass throws on a request that came during it, and no request comes between
the loop's last check and the clearing of `resyncing`. -/
def Undropped (s : Resync) (e : ResyncEvent) (_ : Resync) : Prop :=
  s.stopped = true ∨
    (e = .settled true → s.resyncRequested = false) ∧ (e.isRequest → s.loop ≠ .finishing)

structure Pending (s : Resync) : Prop where
  loop : s.loop = .pass
  requested : s.resyncRequested = true
  running : s.stopped = false

theorem Undropped.of_running {s s' : Resync} {e : ResyncEvent} (h : s.Undropped e s') (hs : s.stopped = false) :
    (e = .settled true → s.resyncRequested = false) ∧ (e.isRequest → s.loop ≠ .finishing) := by
  refine h.resolve_left ?_
  rw [hs]
  exact Bool.false_ne_true

/-- **Step.** A pending request stays pending until the loop goes on, which then starts a pass. -/
theorem Pending.step {s s' : Resync} {e : ResyncEvent} (h : s.Pending) (hu : s.Undropped e s')
    (hs : s.next e = some s') : s.Serves s' ∨ s'.Pending ∧ ¬e.ofLoop := by
  obtain ⟨hloop, hrequested, hrunning⟩ := h
  cases e with
  | resync =>
    obtain rfl := Option.some.inj hs
    refine .inr ⟨⟨?_, ?_, ?_⟩, id⟩ <;> simp only [resync, hloop, hrunning]
  | requestResync =>
    obtain rfl := Option.some.inj hs
    refine .inr ⟨⟨?_, ?_, ?_⟩, id⟩ <;> simp [requestResync, hloop, hrunning]
  | settled threw =>
    cases threw with
    | true =>
      have hnone := (hu.of_running hrunning).1 rfl
      rw [hrequested] at hnone
      contradiction
    | false =>
      rw [next, if_pos hloop] at hs
      obtain rfl := Option.some.inj hs
      refine .inl (.inl ?_)
      simp [settled, hrequested, hrunning, startPass]
  | cleared =>
    rw [next, if_neg (by simp [hloop])] at hs
    contradiction
  | stop =>
    obtain rfl := Option.some.inj hs
    exact .inl (.inr rfl)
  | other =>
    obtain rfl := Option.some.inj hs
    exact .inr ⟨⟨hloop, hrequested, hrunning⟩, id⟩

theorem request_step {s s' : Resync} {e : ResyncEvent} (he : e.isRequest) (hrunning : s.stopped = false)
    (hu : s.Undropped e s') (hs : s.next e = some s') : s.Serves s' ∨ s'.Pending := by
  have hfinishing := (hu.of_running hrunning).2 he
  cases hloop : s.loop with
  | finishing => contradiction
  | idle =>
    refine .inl (.inl ?_)
    obtain rfl | rfl := he
    · obtain rfl := Option.some.inj hs
      simp [resync, hloop, startPass]
    · obtain rfl := Option.some.inj hs
      simp [requestResync, resync, hloop, startPass]
  | pass =>
    refine .inr ?_
    obtain rfl | rfl := he
    · obtain rfl := Option.some.inj hs
      refine ⟨?_, ?_, ?_⟩ <;> simp only [resync, hloop, hrunning]
    · obtain rfl := Option.some.inj hs
      refine ⟨?_, ?_, ?_⟩ <;> simp [requestResync, hloop, hrunning]

/-- **Requests.** Where no step drops one, every request is followed by a pass that starts after it, or by the
keeper's stop. Nothing is assumed of the timer: it is fair to the loop's own callbacks only. -/
theorem requests_served {t : (machine.restrict Undropped).Trace} (hf : t.Fair ResyncEvent.ofLoop Due) {n : Nat}
    (he : (t.label n).isRequest) (hrunning : (t.state n).stopped = false) :
    ∃ m ≥ n, (t.state m).Serves (t.state (m + 1)) := by
  obtain ⟨hu, hs⟩ := t.step n
  obtain hserved | hpending := request_step he hrunning hu hs
  · exact ⟨n, Nat.le_refl n, hserved⟩
  have hdue : ∀ s : Resync, s.Pending → s.Due := by
    intro s h
    rw [Due, h.loop]
    nofun
  have hstep : ∀ s e s', Pending s → (machine.restrict Undropped).step s e s' → s.Serves s' ∨ s'.Pending ∧ ¬e.ofLoop :=
    fun s e s' h hs => h.step hs.1 hs.2
  obtain ⟨m, hm, hserves⟩ := Lts.Trace.eventually (Q := fun s _ s' => s.Serves s') hf hdue hstep hpending
  exact ⟨m, by omega, hserves⟩

/-! ### Dropped requests -/

theorem not_undropped_next {s s' : Resync} {e : ResyncEvent} (hbad : ¬s.Undropped e s') (hs : s.next e = some s') :
    s'.loop = .finishing ∧ s'.resyncRequested = true ∧ s'.passes = s.passes := by
  simp only [Undropped, not_or, not_and_or, Classical.not_imp, not_not, Bool.not_eq_true, Bool.not_eq_false] at hbad
  obtain ⟨hrunning, ⟨rfl, hrequested⟩ | ⟨he, hloop⟩⟩ := hbad
  · by_cases hpass : s.loop = .pass
    · rw [next, if_pos hpass] at hs
      obtain rfl := Option.some.inj hs
      exact ⟨rfl, hrequested, rfl⟩
    · rw [next, if_neg hpass] at hs
      contradiction
  · obtain rfl | rfl := he
    · obtain rfl := Option.some.inj hs
      simp [resync, hloop]
    · obtain rfl := Option.some.inj hs
      simp [requestResync, hloop]

theorem next_of_no_request {s s' : Resync} {e : ResyncEvent} (he : ¬e.isRequest) (hloop : s.loop ≠ .pass)
    (hs : s.next e = some s') : s'.loop ≠ .pass ∧ s'.passes = s.passes := by
  cases e with
  | resync => exact absurd (.inl rfl) he
  | requestResync => exact absurd (.inr rfl) he
  | settled threw =>
    rw [next, if_neg hloop] at hs
    contradiction
  | cleared =>
    by_cases hfinishing : s.loop = .finishing
    · rw [next, if_pos hfinishing] at hs
      obtain rfl := Option.some.inj hs
      exact ⟨nofun, rfl⟩
    · rw [next, if_neg hfinishing] at hs
      contradiction
  | stop | other =>
    obtain rfl := Option.some.inj hs
    exact ⟨hloop, rfl⟩

/-- A request that a step drops is not followed by a pass before the next call. So the condition of
`requests_served` leaves out nothing but what goes wrong. -/
theorem dropped_waits {t : machine.Trace} {n : Nat} (hbad : ¬(t.state n).Undropped (t.label n) (t.state (n + 1)))
    (hnone : ∀ m > n, ¬(t.label m).isRequest) : ∀ m ≥ n, (t.state (m + 1)).passes = (t.state n).passes := by
  obtain ⟨hloop, -, hpasses⟩ := not_undropped_next hbad (t.step n)
  intro m hm
  have hn : (t.state (n + 1)).loop ≠ .pass ∧ (t.state (n + 1)).passes = (t.state n).passes :=
    ⟨by rw [hloop]; nofun, hpasses⟩
  refine (Lts.Trace.always (P := fun s : Resync => s.loop ≠ .pass ∧ s.passes = (t.state n).passes) hn ?_ ?_).2
  · intro k hk ⟨hk₁, hk₂⟩
    obtain ⟨hnext, hsame⟩ := next_of_no_request (hnone k (by omega)) hk₁ (t.step k)
    exact ⟨hnext, hsame.trans hk₂⟩
  · omega

/-! ### Samples -/

def labelAt (events : List ResyncEvent) (n : Nat) : ResyncEvent := events.getD n .other

def stateAt (events : List ResyncEvent) (n : Nat) : Resync :=
  (events.take n).foldl (fun s e => (s.next e).getD s) initial

section samples

variable {events : List ResyncEvent} {n : Nat}

theorem stateAt_end (hn : events.length ≤ n) : stateAt events n = stateAt events events.length := by
  rw [stateAt, stateAt, List.take_of_length_le hn, List.take_length]

theorem labelAt_end (hn : events.length ≤ n) : labelAt events n = .other := by
  rw [labelAt, List.getD_eq_getElem?_getD, List.getElem?_eq_none hn]
  rfl

theorem stateAt_step (h : ∀ n < events.length, (stateAt events n).next (labelAt events n) = some (stateAt events (n + 1)))
    (n : Nat) : (stateAt events n).next (labelAt events n) = some (stateAt events (n + 1)) := by
  by_cases hn : n < events.length
  · exact h n hn
  · have hle : events.length ≤ n := by omega
    rw [labelAt_end hle, stateAt_end hle, stateAt_end (n := n + 1) (by omega)]
    rfl

end samples

/-- A reconnect asks for a resync while one runs, and that one does not throw. -/
def servedSample : List ResyncEvent := [.resync, .requestResync, .settled false, .settled false, .cleared]

/-- After the first resync, the timer starts another; a stream reconnects while it runs, and then it throws. -/
def droppedSample : List ResyncEvent :=
  [.resync, .settled false, .cleared, .resync, .requestResync, .settled true, .cleared]

theorem requests_served_sample : ∃ t : (machine.restrict Undropped).Trace, t.Fair ResyncEvent.ofLoop Due ∧
    (t.label 1).isRequest ∧ ∃ m ≥ 1, (t.state m).Serves (t.state (m + 1)) := by
  have hsteps : ∀ n < servedSample.length,
      (stateAt servedSample n).next (labelAt servedSample n) = some (stateAt servedSample (n + 1)) ∧
        (labelAt servedSample n = .settled true → (stateAt servedSample n).resyncRequested = false) ∧
        (labelAt servedSample n = .resync ∨ labelAt servedSample n = .requestResync →
          (stateAt servedSample n).loop ≠ .finishing) := by decide
  have hundropped : ∀ n, (stateAt servedSample n).Undropped (labelAt servedSample n) (stateAt servedSample (n + 1)) := by
    intro n
    by_cases hn : n < servedSample.length
    · exact .inr (hsteps n hn).2
    · rw [labelAt_end (by omega)]
      refine .inr ⟨nofun, ?_⟩
      rintro (h | h) <;> contradiction
  let t : (machine.restrict Undropped).Trace :=
    ⟨stateAt servedSample, labelAt servedSample, rfl,
      fun n => ⟨hundropped n, stateAt_step (fun n hn => (hsteps n hn).1) n⟩⟩
  have hfair : t.Fair ResyncEvent.ofLoop Due := by
    intro n hdue
    have hend := hdue (n + servedSample.length) (by omega)
    refine absurd ?_ hend
    show (stateAt servedSample (n + servedSample.length)).loop = .idle
    rw [stateAt_end (by omega)]
    rfl
  exact ⟨t, hfair, .inr rfl, requests_served hfair (.inr rfl) rfl⟩

/-- The reconnect's request is lost: no pass follows it, though the keeper runs on. -/
theorem requests_lost : ∃ t : machine.Trace, t.Fair ResyncEvent.ofLoop Due ∧ ∃ n, (t.label n).isRequest ∧
    (t.state n).stopped = false ∧ ¬∃ m ≥ n, (t.state m).Serves (t.state (m + 1)) := by
  let t : machine.Trace := ⟨stateAt droppedSample, labelAt droppedSample, rfl, stateAt_step (by decide)⟩
  refine ⟨t, ?_, 4, .inr rfl, rfl, ?_⟩
  · intro n hdue
    have hend := hdue (n + droppedSample.length) (by omega)
    refine absurd ?_ hend
    show (stateAt droppedSample (n + droppedSample.length)).loop = .idle
    rw [stateAt_end (by omega)]
    rfl
  · intro ⟨m, hm, hserves⟩
    have hlast : (stateAt droppedSample m).passes = 2 ∧ (stateAt droppedSample (m + 1)).passes = 2 ∧
        (stateAt droppedSample (m + 1)).stopped = false := by
      by_cases hend : m < droppedSample.length
      · have hcases : ∀ m < droppedSample.length, 4 ≤ m → (stateAt droppedSample m).passes = 2 ∧
            (stateAt droppedSample (m + 1)).passes = 2 ∧ (stateAt droppedSample (m + 1)).stopped = false := by decide
        exact hcases m hend hm
      · rw [stateAt_end (by omega), stateAt_end (n := m + 1) (by omega)]
        decide
    obtain ⟨hbefore, hafter, hstopped⟩ := hlast
    obtain hlt | hstop := hserves
    · have hlt : (stateAt droppedSample m).passes < (stateAt droppedSample (m + 1)).passes := hlt
      omega
    · have hstop : (stateAt droppedSample (m + 1)).stopped = true := hstop
      rw [hstopped] at hstop
      contradiction

end Resync

end ThawGate.Keeper
