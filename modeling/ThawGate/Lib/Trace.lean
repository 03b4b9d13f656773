import ThawGate.Lib.Run
import Mathlib.Data.Nat.Init
import Mathlib.Tactic.ByContra

/-!
# Unending runs

What a system does in the end is a property of its unending runs. A `Trace` of a system is such a run, by
position. It is `Fair` to some of the labels when these do not wait forever: if from some position on a step of
theirs is always possible, one of them is taken. `Trace.eventually` is the rule for what follows: a condition
that lasts until the goal, under which a step of theirs is possible and reaches the goal, leads to the goal.
-/

namespace Lts

variable {σ ε : Type} {L : Lts σ ε}

structure Trace (L : Lts σ ε) where
  state : Nat → σ
  label : Nat → ε
  start : L.start (state 0)
  step : ∀ n, L.step (state n) (label n) (state (n + 1))

namespace Trace

/-- Weak fairness to the labels in `own`, whose steps are possible in the states in `enabled`. -/
def Fair (t : L.Trace) (own : ε → Prop) (enabled : σ → Prop) : Prop :=
  ∀ n, (∀ m ≥ n, enabled (t.state m)) → ∃ m ≥ n, own (t.label m)

/-- A property of states that every step keeps holds from a position on. -/
theorem always {t : L.Trace} {P : σ → Prop} {n : Nat} (hn : P (t.state n))
    (hstep : ∀ m ≥ n, P (t.state m) → P (t.state (m + 1))) {m : Nat} (hm : n ≤ m) : P (t.state m) := by
  induction m, hm using Nat.le_induction with
  | base => exact hn
  | succ m hm ih => exact hstep m hm ih

variable {own : ε → Prop} {enabled P : σ → Prop} {Q : σ → ε → σ → Prop}

/-- **Progress.** From `P`, every step reaches the goal `Q` or keeps `P` without being one of `own`. -/
theorem eventually {t : L.Trace} (hf : t.Fair own enabled) (hen : ∀ s, P s → enabled s)
    (hstep : ∀ s e s', P s → L.step s e s' → Q s e s' ∨ P s' ∧ ¬own e) {n : Nat} (hn : P (t.state n)) :
    ∃ m ≥ n, Q (t.state m) (t.label m) (t.state (m + 1)) := by
  by_contra hnever
  have hkeep : ∀ m ≥ n, P (t.state m) → P (t.state (m + 1)) ∧ ¬own (t.label m) := by
    intro m hm hP
    refine (hstep _ _ _ hP (t.step m)).resolve_left ?_
    intro hQ
    exact hnever ⟨m, hm, hQ⟩
  have hP : ∀ m ≥ n, P (t.state m) := by
    intro m hm
    refine always hn ?_ hm
    intro k hk hPk
    exact (hkeep k hk hPk).1
  obtain ⟨m, hm, hown⟩ := hf n fun m hm => hen _ (hP m hm)
  exact (hkeep m hm (hP m hm)).2 hown

end Trace

end Lts
