import Mathlib.Data.List.Induction
import Mathlib.Data.List.Sort

/-!
# Dated entries

A log of entries in the order of their dates, none dated alike. Sorted latest first it is the log reversed
(`latestFirst_eq_reverse`), and its last entry has a property exactly when no entry without it is later than the last
one with it (`getLast?_filter_iff`).
-/

namespace Dated

variable {α κ : Type*} [LinearOrder κ] (date : α → κ)

def latestFirst (l : List α) : List α := l.insertionSort fun a b => date b ≤ date a

/-- In the order of the dates. -/
def InOrder (l : List α) : Prop := l.Pairwise fun a b => date a < date b

instance (l : List α) : Decidable (InOrder date l) := inferInstanceAs (Decidable (List.Pairwise _ l))

variable {date} {l : List α}

theorem latestFirst_perm : (latestFirst date l).Perm l := List.perm_insertionSort _ l

theorem InOrder.filter (h : InOrder date l) (p : α → Bool) : InOrder date (l.filter p) := List.Pairwise.filter p h

/-- What is earlier than the rest goes behind it. -/
theorem orderedInsert_earliest {a : α} (h : ∀ b ∈ l, date a < date b) :
    l.orderedInsert (fun a b => date b ≤ date a) a = l ++ [a] := by
  induction l with
  | nil => rfl
  | cons b l ih =>
    have hb : ¬date b ≤ date a := not_le_of_gt (h b List.mem_cons_self)
    rw [List.orderedInsert_cons, if_neg hb, ih fun c hc => h c (List.mem_cons_of_mem _ hc), List.cons_append]

theorem latestFirst_eq_reverse (h : InOrder date l) : latestFirst date l = l.reverse := by
  induction l with
  | nil => rfl
  | cons a l ih =>
    obtain ⟨ha, hl⟩ := List.pairwise_cons.1 h
    rw [List.reverse_cons, ← ih hl, latestFirst, List.insertionSort_cons]
    exact orderedInsert_earliest fun b hb => ha b (latestFirst_perm.subset hb)

theorem getLast?_filter_iff {p : α → Bool} (h : InOrder date l) :
    (∃ a, (l.filter p).getLast? = some a ∧ ∀ b ∈ l, p b = false → ¬date a < date b) ↔
      ∃ a, l.getLast? = some a ∧ p a = true := by
  induction l using List.reverseRecOn with
  | nil => simp
  | append_singleton l e _ =>
    have hlt : ∀ a ∈ l, date a < date e := fun a ha =>
      (List.pairwise_append.1 h).2.2 a ha e (List.mem_singleton_self e)
    rw [List.filter_append, List.getLast?_concat]
    cases hp : p e with
    | true =>
      have hlast : (l.filter p ++ [e].filter p).getLast? = some e := by simp [hp]
      rw [hlast]
      refine iff_of_true ⟨e, rfl, fun b hb _ => ?_⟩ ⟨e, rfl, hp⟩
      obtain hb | hb := List.mem_append.1 hb
      · exact (hlt b hb).le.not_gt
      · rw [List.mem_singleton.1 hb]
        exact lt_irrefl _
    | false =>
      refine iff_of_false ?_ ?_
      · rintro ⟨a, ha, hlatest⟩
        have hnone : [e].filter p = [] := by simp [hp]
        rw [hnone, List.append_nil] at ha
        have hearlier := hlt a (List.mem_of_mem_filter (List.mem_of_getLast? ha))
        exact hlatest e (List.mem_append_right _ (List.mem_singleton_self e)) hp hearlier
      · rintro ⟨a, ha, hpa⟩
        rw [← Option.some.inj ha, hp] at hpa
        contradiction

end Dated
