import Mathlib.Data.List.Basic

/-!
# Lists as tables

A row's id is its place in the list: rows are added at the end and replaced where they stand. What is found after
each, and how the number of the rows with a property changes.
-/

namespace Table

variable {α : Type} {l : List α} {a b c : α} {i j : Nat} {p : α → Bool}

theorem added_eq_some : (l ++ [a])[i]? = some b ↔ l[i]? = some b ∨ i = l.length ∧ b = a := by
  rcases Nat.lt_trichotomy i l.length with h | rfl | h
  · simp [List.getElem?_append_left h, Nat.ne_of_lt h]
  · simp [eq_comm]
  · have hnone : (l ++ [a])[i]? = none := List.getElem?_eq_none (by rw [List.length_append]; exact h)
    simp [hnone, List.getElem?_eq_none (Nat.le_of_lt h), Nat.ne_of_gt h]

theorem added_of (h : l[i]? = some a) : (l ++ [b])[i]? = some a := added_eq_some.2 (.inl h)

theorem added_last : (l ++ [a])[l.length]? = some a := List.getElem?_concat_length

theorem lt_of_eq_some (h : l[i]? = some a) : i < l.length := (List.getElem?_eq_some_iff.1 h).1

theorem set_eq_some (h : l[i]? = some a) :
    (l.set i b)[j]? = some c ↔ (j = i ∧ c = b) ∨ (j ≠ i ∧ l[j]? = some c) := by
  by_cases hj : j = i
  · subst hj
    simp [lt_of_eq_some h, eq_comm]
  · simp [List.getElem?_set_ne (Ne.symm hj), hj]

theorem set_self (h : l[i]? = some a) : (l.set i b)[i]? = some b := (set_eq_some h).2 (.inl ⟨rfl, rfl⟩)

theorem countP_set (h : l[i]? = some a) :
    (l.set i b).countP p + (if p a then 1 else 0) = l.countP p + if p b then 1 else 0 := by
  obtain ⟨hlt, rfl⟩ := List.getElem?_eq_some_iff.1 h
  rw [List.countP_set hlt]
  have hle : (if p l[i] then 1 else 0) ≤ l.countP p := by
    by_cases hp : p l[i]
    · rw [if_pos hp]
      exact List.countP_pos_iff.2 ⟨_, List.getElem_mem hlt, hp⟩
    · rw [if_neg hp]
      exact Nat.zero_le _
  omega

/-- Replacing a row by one that the property does not tell from it. -/
theorem countP_set_of_eq (h : l[i]? = some a) (hp : p b = p a) : (l.set i b).countP p = l.countP p := by
  have hset := countP_set (p := p) (b := b) h
  rw [hp] at hset
  omega

theorem modify_eq_some {f : α → α} :
    (l.modify i f)[j]? = some c ↔ (j = i ∧ ∃ a, l[j]? = some a ∧ c = f a) ∨ (j ≠ i ∧ l[j]? = some c) := by
  by_cases hj : j = i
  · subst hj
    rw [List.getElem?_modify_eq, Option.map_eq_map, Option.map_eq_some_iff]
    simp [eq_comm]
  · simp [List.getElem?_modify_ne _ _ (Ne.symm hj), hj]

end Table
