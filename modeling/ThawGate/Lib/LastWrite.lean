import ThawGate.Lib.Run

/-!
# Last writes

A system whose steps write values to keys holds, after any run, at each key what was written there last.
-/

namespace Lts

variable {σ ε κ α : Type} {L : Lts σ ε} [BEq κ]

/-- What the labels, newest first, wrote to a key last. -/
def lastWrite (writes : ε → List (κ × α)) (k : κ) (h : List ε) : Option α := h.findSome? fun e => (writes e).lookup k

theorem lastWrite_cons (writes : ε → List (κ × α)) (k : κ) (e : ε) (h : List ε) :
    lastWrite writes k (e :: h) = ((writes e).lookup k).or (lastWrite writes k h) := by
  unfold lastWrite
  rw [List.findSome?_cons]
  cases (writes e).lookup k <;> rfl

/-- If a step changes what a key reads as to what it writes there, and leaves the other keys as they are, then after
a run each key reads as what was written last. -/
theorem Run.read_eq_lastWrite (read : σ → κ → Option α) {writes : ε → List (κ × α)}
    (hstart : ∀ s, L.start s → ∀ k, read s k = none)
    (hstep : ∀ s e s', L.Reachable s → L.step s e s' → ∀ k, read s' k = ((writes e).lookup k).or (read s k))
    {h : List ε} {s : σ} (r : L.Run h s) (k : κ) : read s k = lastWrite writes k h := by
  refine r.invariant (I := fun h s => read s k = lastWrite writes k h) (fun s hs => hstart s hs k) ?_
  intro h s e s' r ih hs
  rw [hstep s e s' r.reachable hs k, lastWrite_cons, ih]

end Lts
