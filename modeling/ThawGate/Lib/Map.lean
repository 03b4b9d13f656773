import Mathlib.Data.List.AList

/-!
# Maps

A `Map` of TypeScript is an association list with distinct keys. The order of its entries is not kept as
`Map` keeps it; what is read off a map here does not depend on it.
-/

abbrev Map (κ ν : Type) := AList fun _ : κ => ν

namespace Map

variable {κ ν : Type} [DecidableEq κ] {m : Map κ ν} {k l : κ} {v w : ν}

theorem lookup_insert_eq_some :
    (m.insert k v).lookup l = some w ↔ l = k ∧ v = w ∨ l ≠ k ∧ m.lookup l = some w := by
  obtain rfl | h := eq_or_ne l k
  · simp
  · simp [AList.lookup_insert_ne h, h]

theorem lookup_erase_eq_some : (m.erase k).lookup l = some w ↔ l ≠ k ∧ m.lookup l = some w := by
  obtain rfl | h := eq_or_ne l k
  · simp
  · simp [AList.lookup_erase_ne h, h]

/-- `map.values()` -/
def values (m : Map κ ν) : List ν := m.entries.map Sigma.snd

omit [DecidableEq κ] in
theorem mem_values : v ∈ m.values ↔ ∃ k, ⟨k, v⟩ ∈ m.entries := by
  simp [values]

theorem mem_values_iff : v ∈ m.values ↔ ∃ k, m.lookup k = some v := by
  rw [mem_values]
  exact exists_congr fun k => AList.mem_lookup_iff.symm

/-- The entries inserted in order: of equal keys, the last one stays. -/
def insertAll (m : Map κ ν) (entries : List (κ × ν)) : Map κ ν :=
  entries.foldl (fun m e => m.insert e.1 e.2) m

/-- Keys with the values that a function gives them. -/
theorem lookup_insertAll_zip (f : κ → ν) (ks : List κ) (m : Map κ ν) :
    (m.insertAll (ks.zip (ks.map f))).lookup l = if l ∈ ks then some (f l) else m.lookup l := by
  induction ks generalizing m with
  | nil => rfl
  | cons k ks ih =>
    rw [List.map_cons, List.zip_cons_cons, insertAll, List.foldl_cons]
    refine (ih _).trans ?_
    by_cases hl : l ∈ ks
    · rw [if_pos hl, if_pos (List.mem_cons_of_mem k hl)]
    · obtain rfl | h := eq_or_ne l k
      · rw [if_neg hl, if_pos (List.mem_cons_self ..), AList.lookup_insert]
      · rw [if_neg hl, if_neg (by simp [h, hl]), AList.lookup_insert_ne h]

/-- Entries that give each key one value. -/
theorem lookup_insertAll_eq_some {entries : List (κ × ν)} (h : ∀ k v w, (k, v) ∈ entries → (k, w) ∈ entries → v = w)
    (m : Map κ ν) : (m.insertAll entries).lookup l = some v ↔
      (l, v) ∈ entries ∨ (∀ w, (l, w) ∉ entries) ∧ m.lookup l = some v := by
  induction entries generalizing m with
  | nil => simp [insertAll]
  | cons e entries ih =>
    obtain ⟨k, u⟩ := e
    have hrest : ∀ k v w, (k, v) ∈ entries → (k, w) ∈ entries → v = w :=
      fun k v w hv hw => h k v w (List.mem_cons_of_mem _ hv) (List.mem_cons_of_mem _ hw)
    rw [insertAll, List.foldl_cons]
    refine (ih hrest (m.insert k u)).trans ?_
    rw [lookup_insert_eq_some]
    have hsame (w : ν) (hw : (k, w) ∈ entries) : w = u :=
      h k w u (List.mem_cons_of_mem _ hw) (List.mem_cons_self ..)
    simp only [List.mem_cons, Prod.mk.injEq]
    obtain rfl | hl := eq_or_ne l k
    · by_cases hmem : ∃ w, (l, w) ∈ entries
      · obtain ⟨w, hw⟩ := hmem
        obtain rfl := hsame w hw
        grind
      · grind
    · grind

/-- `for (const k of [...map.keys()]) if (!p(k)) map.delete(k)` -/
def retain (m : Map κ ν) (p : κ → Bool) : Map κ ν :=
  (m.keys.filter fun k => !p k).foldl (fun m k => m.erase k) m

theorem lookup_foldl_erase (ks : List κ) (m : Map κ ν) :
    (ks.foldl (fun m k => m.erase k) m).lookup l = if l ∈ ks then none else m.lookup l := by
  induction ks generalizing m with
  | nil => rfl
  | cons k ks ih =>
    rw [List.foldl_cons, ih]
    obtain rfl | h := eq_or_ne l k
    · simp
    · simp [h]

theorem lookup_retain {p : κ → Bool} : (m.retain p).lookup l = if p l then m.lookup l else none := by
  rw [retain, lookup_foldl_erase]
  by_cases hp : p l
  · simp [hp]
  · by_cases hl : l ∈ m.keys
    · simp [hp, hl]
    · simp [hp, AList.lookup_eq_none.2 hl]

end Map
