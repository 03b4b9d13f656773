import Mathlib.Data.List.Basic
import Mathlib.Order.Basic

/-!
# Requests in batches

A list of keys is asked for in batches of at most `n`, and the answers are put together again. Where each batch is
answered key by key, the batches make no difference.
-/

namespace Batch

variable {α β : Type} {n : Nat}

/-- The batches of the first keys, at most `fuel` of them. -/
def batchesWithin (n : Nat) : Nat → List α → List (List α)
  | 0, _ => []
  | fuel + 1, keys => if keys = [] then [] else keys.take n :: batchesWithin n fuel (keys.drop n)

/-- `for (let i = 0; i < keys.length; i += n) keys.slice(i, i + n)` -/
def batches (n : Nat) (keys : List α) : List (List α) := batchesWithin n keys.length keys

def batched (n : Nat) (call : List α → List β) (keys : List α) : List β := (batches n keys).flatMap call

theorem batchesWithin_flatten (hn : 0 < n) :
    ∀ (fuel : Nat) (keys : List α), keys.length ≤ fuel → (batchesWithin n fuel keys).flatten = keys
  | 0, keys, h => by
    obtain rfl := List.length_eq_zero_iff.1 (Nat.le_zero.1 h)
    rfl
  | fuel + 1, keys, h => by
    unfold batchesWithin
    by_cases hk : keys = []
    · rw [if_pos hk, hk, List.flatten_nil]
    · have hdrop : (keys.drop n).length ≤ fuel := by
        have hpos := List.length_pos_iff.2 hk
        rw [List.length_drop]
        omega
      rw [if_neg hk, List.flatten_cons, batchesWithin_flatten hn fuel _ hdrop, List.take_append_drop]

theorem batchesWithin_length (fuel : Nat) (keys batch : List α) (h : batch ∈ batchesWithin n fuel keys) :
    batch.length ≤ n := by
  induction fuel generalizing keys with
  | zero => simp [batchesWithin] at h
  | succ fuel ih =>
    unfold batchesWithin at h
    split_ifs at h with hk
    · simp at h
    · obtain rfl | h := List.mem_cons.1 h
      · exact List.length_take_le n keys
      · exact ih _ h

theorem batches_length {keys batch : List α} (h : batch ∈ batches n keys) : batch.length ≤ n :=
  batchesWithin_length keys.length keys batch h

/-- A call that answers each key of a batch by itself, and takes no larger batch. -/
theorem batched_eq_map (hn : 0 < n) {call : List α → List β} {answer : α → β}
    (hcall : ∀ batch, batch.length ≤ n → call batch = batch.map answer) (keys : List α) :
    batched n call keys = keys.map answer := by
  have hmap : (batches n keys).map call = (batches n keys).map (List.map answer) :=
    List.map_congr_left fun batch h => hcall batch (batches_length h)
  rw [batched, List.flatMap_def, hmap, ← List.map_flatten, batches,
    batchesWithin_flatten hn _ _ (Nat.le_refl _)]

end Batch
