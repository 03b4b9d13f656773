import Mathlib.Logic.Basic

/-!
# Runs of a labelled transition system

A system is its start states and its labelled steps. `Run h s` says that the labels `h`, newest
first, lead from a start state to `s`; a property of a run is a relation between its labels and
its last state, and `Run.invariant` proves one from what a single step preserves. `restrict` keeps
the steps that meet a condition, for the properties that need it.
-/

structure Lts (σ ε : Type) where
  start : σ → Prop
  step : σ → ε → σ → Prop

namespace Lts

variable {σ ε : Type} {L : Lts σ ε}

inductive Run (L : Lts σ ε) : List ε → σ → Prop
  | start {s : σ} (h : L.start s) : Run L [] s
  | step {h : List ε} {s s' : σ} {e : ε} (r : Run L h s) (hs : L.step s e s') : Run L (e :: h) s'

def Reachable (L : Lts σ ε) (s : σ) : Prop := ∃ h, L.Run h s

/-- What holds at the start and after every step holds after every run. The step may use that its
source was itself reached. -/
theorem Run.invariant {I : List ε → σ → Prop} (hstart : ∀ s, L.start s → I [] s)
    (hstep : ∀ h s e s', L.Run h s → I h s → L.step s e s' → I (e :: h) s')
    {h : List ε} {s : σ} (r : L.Run h s) : I h s := by
  induction r with
  | start h => exact hstart _ h
  | step r hs ih => exact hstep _ _ _ _ r ih hs

/-- The invariant rule for a property of states alone. -/
theorem Reachable.invariant {I : σ → Prop} (hstart : ∀ s, L.start s → I s)
    (hstep : ∀ s e s', I s → L.step s e s' → I s') {s : σ} (r : L.Reachable s) : I s := by
  obtain ⟨h, r⟩ := r
  exact r.invariant (I := fun _ => I) hstart fun _ s e s' _ => hstep s e s'

theorem Run.reachable {h : List ε} {s : σ} (r : L.Run h s) : L.Reachable s := ⟨h, r⟩

theorem Reachable.step {s s' : σ} {e : ε} (r : L.Reachable s) (hs : L.step s e s') :
    L.Reachable s' := by
  obtain ⟨h, r⟩ := r
  exact ⟨e :: h, r.step hs⟩

/-- A computed run: `f` computes steps of the system. -/
theorem Run.of_foldlM {f : σ → ε → Option σ} (hf : ∀ s e s', f s e = some s' → L.step s e s') {events h : List ε}
    {s s' : σ} (hs : events.foldlM f s = some s') (r : L.Run h s) : L.Run (events.reverse ++ h) s' := by
  induction events generalizing h s with
  | nil =>
    obtain rfl := Option.some.inj hs
    exact r
  | cons e rest ih =>
    obtain ⟨s₁, hs₁, hrest⟩ := Option.bind_eq_some_iff.1 hs
    rw [List.reverse_cons, List.append_assoc]
    exact ih hrest (r.step (hf _ _ _ hs₁))

/-! ### States that a run has passed -/

/-- Some state of the run, its last one counted, is in `P`. -/
inductive Seen (L : Lts σ ε) (P : σ → Prop) : List ε → σ → Prop
  | here {h : List ε} {s : σ} (r : L.Run h s) (hp : P s) : Seen L P h s
  | later {h : List ε} {s s' : σ} {e : ε} (seen : Seen L P h s) (hs : L.step s e s') : Seen L P (e :: h) s'

/-- Some step of the run is in `Q`, and none after it is in `R`. -/
inductive Since (L : Lts σ ε) (Q R : σ → ε → σ → Prop) : List ε → σ → Prop
  | here {h : List ε} {s s' : σ} {e : ε} (r : L.Run h s) (hs : L.step s e s') (hq : Q s e s') : Since L Q R (e :: h) s'
  | later {h : List ε} {s s' : σ} {e : ε} (since : Since L Q R h s) (hs : L.step s e s') (hr : ¬R s e s') :
    Since L Q R (e :: h) s'

/-! ### Runs that go on -/

/-- The labels `h`, newest first, lead from one state to another. -/
inductive Path (L : Lts σ ε) (s : σ) : List ε → σ → Prop
  | refl : Path L s [] s
  | step {h : List ε} {s' s'' : σ} {e : ε} (path : Path L s h s') (hs : L.step s' e s'') : Path L s (e :: h) s''

theorem Run.append {h h' : List ε} {s s' : σ} (r : L.Run h s) (path : L.Path s h' s') : L.Run (h' ++ h) s' := by
  induction path with
  | refl => exact r
  | step _ hs ih => exact ih.step hs

/-- The step in the middle of a path. -/
theorem Path.between {h₁ h₂ : List ε} {e : ε} {s s' : σ} (path : L.Path s (h₂ ++ e :: h₁) s') :
    ∃ s₁ s₂, L.Path s h₁ s₁ ∧ L.step s₁ e s₂ ∧ L.Path s₂ h₂ s' := by
  induction h₂ generalizing s' with
  | nil =>
    cases path with
    | step path hs => exact ⟨_, _, path, hs, .refl⟩
  | cons e' h₂ ih =>
    cases path with
    | step path hs' =>
      obtain ⟨s₁, s₂, path₁, hs, path₂⟩ := ih path
      exact ⟨s₁, s₂, path₁, hs, path₂.step hs'⟩

theorem Run.path {h : List ε} {s : σ} (r : L.Run h s) : ∃ s₀, L.Run [] s₀ ∧ L.Path s₀ h s := by
  induction r with
  | start hs => exact ⟨_, .start hs, .refl⟩
  | step _ hs ih =>
    obtain ⟨s₀, r₀, path⟩ := ih
    exact ⟨s₀, r₀, path.step hs⟩

theorem Seen.append {P : σ → Prop} {h h' : List ε} {s s' : σ} (seen : L.Seen P h s) (path : L.Path s h' s') :
    L.Seen P (h' ++ h) s' := by
  induction path with
  | refl => exact seen
  | step _ hs ih => exact ih.later hs

/-- The step in the middle of a run. -/
theorem Run.between {h₁ h₂ : List ε} {e : ε} {s : σ} (r : L.Run (h₂ ++ e :: h₁) s) :
    ∃ s₁ s₂, L.Run h₁ s₁ ∧ L.step s₁ e s₂ ∧ L.Path s₂ h₂ s := by
  obtain ⟨s₀, r₀, path⟩ := r.path
  obtain ⟨s₁, s₂, path₁, hs, path₂⟩ := path.between
  have r₁ := r₀.append path₁
  rw [List.append_nil] at r₁
  exact ⟨s₁, s₂, r₁, hs, path₂⟩

/-! ### Runs whose steps meet a condition -/

/-- The steps of `L` that meet `G`. -/
def restrict (L : Lts σ ε) (G : σ → ε → σ → Prop) : Lts σ ε where
  start := L.start
  step s e s' := G s e s' ∧ L.step s e s'

variable {G : σ → ε → σ → Prop}

theorem Run.step_restrict {h : List ε} {s s' : σ} {e : ε} (r : (L.restrict G).Run h s) (hs : L.step s e s')
    (hg : G s e s') : (L.restrict G).Run (e :: h) s' :=
  r.step ⟨hg, hs⟩

theorem Run.of_restrict {h : List ε} {s : σ} (r : (L.restrict G).Run h s) : L.Run h s := by
  induction r with
  | start h => exact .start h
  | step _ hs ih => exact ih.step hs.2

/-- If the steps that meet `G` are those that keep `P`, and `P` once lost stays lost, then `P` holds after the runs
whose steps all meet `G` and no other. -/
theorem Run.restrict_iff {P : σ → Prop} (hstart : ∀ s, L.start s → P s)
    (hstep : ∀ s e s', L.Reachable s → L.step s e s' → (P s' ↔ P s ∧ G s e s')) {h : List ε} {s : σ}
    (r : L.Run h s) : (L.restrict G).Run h s ↔ P s := by
  refine ⟨fun hr => ?_, fun hp => ?_⟩
  · refine Run.invariant (L := L.restrict G) (I := fun _ => P) hstart ?_ hr
    exact fun h s e s' hr hp hs => (hstep s e s' ⟨h, hr.of_restrict⟩ hs.2).2 ⟨hp, hs.1⟩
  · induction r with
    | start hs => exact .start hs
    | step r hs ih =>
      obtain ⟨hp, hg⟩ := (hstep _ _ _ ⟨_, r⟩ hs).1 hp
      exact (ih hp).step_restrict hs hg

/-- Runs whose steps all meet `G` are runs whose steps all meet `G'`, if `G` and `G'` agree on the labels' steps
wherever both have been met so far. -/
theorem Run.restrict_congr {G' : σ → ε → σ → Prop} {h : List ε} {s : σ}
    (hstep : ∀ h₁ s₁ s₂, ∀ e ∈ h, (L.restrict G).Run h₁ s₁ → (L.restrict G').Run h₁ s₁ → L.step s₁ e s₂ →
      (G s₁ e s₂ ↔ G' s₁ e s₂)) : (L.restrict G).Run h s ↔ (L.restrict G').Run h s := by
  constructor
  · intro r
    induction r with
    | start hs => exact .start hs
    | step r hs ih =>
      have r' := ih fun h₁ s₁ s₂ e he => hstep h₁ s₁ s₂ e (.tail _ he)
      exact r'.step_restrict hs.2 ((hstep _ _ _ _ (.head _) r r' hs.2).1 hs.1)
  · intro r
    induction r with
    | start hs => exact .start hs
    | step r hs ih =>
      have r' := ih fun h₁ s₁ s₂ e he => hstep h₁ s₁ s₂ e (.tail _ he)
      exact r'.step_restrict hs.2 ((hstep _ _ _ _ (.head _) r' r hs.2).2 hs.1)

/-! ### Conditions that look back -/

/-- The runs whose steps meet `G`, which may look at the labels so far. -/
inductive RunWith (L : Lts σ ε) (G : List ε → σ → ε → σ → Prop) : List ε → σ → Prop
  | start {s : σ} (h : L.start s) : RunWith L G [] s
  | step {h : List ε} {s s' : σ} {e : ε} (r : RunWith L G h s) (hs : L.step s e s') (hg : G h s e s') :
    RunWith L G (e :: h) s'

theorem RunWith.run {G : List ε → σ → ε → σ → Prop} {h : List ε} {s : σ} (r : L.RunWith G h s) : L.Run h s := by
  induction r with
  | start hs => exact .start hs
  | step _ hs _ ih => exact ih.step hs

/-- The invariant rule for such runs. -/
theorem RunWith.invariant {G : List ε → σ → ε → σ → Prop} {I : List ε → σ → Prop} (hstart : ∀ s, L.start s → I [] s)
    (hstep : ∀ h s e s', L.Run h s → I h s → L.step s e s' → G h s e s' → I (e :: h) s')
    {h : List ε} {s : σ} (r : L.RunWith G h s) : I h s := by
  induction r with
  | start hs => exact hstart _ hs
  | step r hs hg ih => exact hstep _ _ _ _ r.run ih hs hg

end Lts
