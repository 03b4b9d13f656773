import ThawGate.Lib.Bytes

/-!
# Computations that return, fail or panic

`Exec ε α` is a Rust function body of type `Result<α, ε>`: it returns, it fails with an error that
a caller can catch (`attempt`), or it panics, which nothing catches. Indexing, range slices and
`unwrap` panic out of bounds, so "never out of bounds" is a theorem about a body and not part of
its type. `Exec Empty α` is a body that cannot fail but may panic.

A handler is a chain of guards and steps; `bind_eq_ok`, `require_eq_ok` and their siblings turn
"the handler succeeded" into the conjunction of what each link checked and returned.
-/

inductive Exec (ε α : Type) where
  | ok (a : α)
  | err (e : ε)
  | panic
  deriving DecidableEq, Repr

namespace Exec

open Borsh (Bytes slice)

variable {ε ε' α β : Type}

protected def bind : Exec ε α → (α → Exec ε β) → Exec ε β
  | ok a, f => f a
  | err e, _ => err e
  | panic, _ => panic

instance : Monad (Exec ε) where
  pure := ok
  bind := Exec.bind

@[simp] theorem pure_eq (a : α) : (pure a : Exec ε α) = ok a := rfl

@[simp] theorem bind_ok (a : α) (f : α → Exec ε β) : (ok a >>= f) = f a := rfl

@[simp] theorem bind_err (e : ε) (f : α → Exec ε β) : (err e >>= f) = err e := rfl

@[simp] theorem bind_panic (f : α → Exec ε β) : (panic >>= f) = panic := rfl

theorem bind_eq_ok {x : Exec ε α} {f : α → Exec ε β} {b : β} :
    (x >>= f) = ok b ↔ ∃ a, x = ok a ∧ f a = ok b := by
  cases x <;> simp

theorem bind_eq_err {x : Exec ε α} {f : α → Exec ε β} {e : ε} :
    (x >>= f) = err e ↔ x = err e ∨ ∃ a, x = ok a ∧ f a = err e := by
  cases x <;> simp

def isOk : Exec ε α → Bool
  | ok _ => true
  | _ => false

theorem isOk_iff {x : Exec ε α} : x.isOk ↔ ∃ a, x = ok a := by
  cases x <;> simp [isOk]

def error? : Exec ε α → Option ε
  | err e => some e
  | _ => none

theorem error?_eq_some {x : Exec ε α} {e : ε} : x.error? = some e ↔ x = err e := by
  cases x <;> simp [error?]

theorem mapM'_eq_ok {f : α → Exec ε β} {g : α → β} {l : List α} (h : ∀ a ∈ l, f a = ok (g a)) :
    l.mapM' f = ok (l.map g) := by
  induction l with
  | nil => rfl
  | cons a l ih =>
    rw [List.mapM'_cons, h a (List.mem_cons_self ..), bind_ok, ih fun b hb => h b (List.mem_cons_of_mem a hb)]
    rfl

theorem mapM'_ok {f : α → Exec ε β} {R : α → β → Prop} {l : List α} (h : ∀ a ∈ l, ∃ b, f a = ok b ∧ R a b) :
    ∃ bs, l.mapM' f = ok bs ∧ (∀ a ∈ l, ∃ b ∈ bs, R a b) ∧ ∀ b ∈ bs, ∃ a ∈ l, R a b := by
  induction l with
  | nil => exact ⟨[], rfl, fun _ ha => absurd ha List.not_mem_nil, fun _ hb => absurd hb List.not_mem_nil⟩
  | cons a l ih =>
    obtain ⟨b, hb, hab⟩ := h a (List.mem_cons_self ..)
    obtain ⟨bs, hbs, hfrom, hto⟩ := ih fun x hx => h x (List.mem_cons_of_mem a hx)
    refine ⟨b :: bs, by rw [List.mapM'_cons, hb, bind_ok, hbs]; rfl, fun x hx => ?_, fun y hy => ?_⟩
    · obtain rfl | hx := List.mem_cons.1 hx
      · exact ⟨b, List.mem_cons_self .., hab⟩
      · obtain ⟨y, hy, hxy⟩ := hfrom x hx
        exact ⟨y, List.mem_cons_of_mem b hy, hxy⟩
    · obtain rfl | hy := List.mem_cons.1 hy
      · exact ⟨a, List.mem_cons_self .., hab⟩
      · obtain ⟨x, hx, hxy⟩ := hto y hy
        exact ⟨x, List.mem_cons_of_mem a hx, hxy⟩

/-! ### Guards -/

/-- `require!(c, e)`. -/
def require (c : Prop) [Decidable c] (e : ε) : Exec ε Unit := if c then ok () else err e

section require

variable {c : Prop} [Decidable c] {e : ε}

@[simp] theorem require_eq_ok {u : Unit} : require c e = ok u ↔ c := by
  unfold require
  split_ifs with h <;> simp [h]

@[simp] theorem require_eq_err {e' : ε} : require c e = err e' ↔ ¬c ∧ e = e' := by
  unfold require
  split_ifs with h <;> simp [h]

theorem require_pos (h : c) : require c e = ok () := if_pos h

theorem require_neg (h : ¬c) : require c e = err e := if_neg h

/-- A guarded body succeeds exactly when the guard holds and the body does. -/
theorem require_bind_eq_ok {f : Unit → Exec ε β} {b : β} :
    (require c e >>= f) = ok b ↔ c ∧ f () = ok b := by
  by_cases h : c
  · rw [require_pos h, bind_ok]
    exact (and_iff_right h).symm
  · rw [require_neg h, bind_err]
    simp [h]

end require

/-- `if c { x }`. -/
def when (c : Prop) [Decidable c] (x : Exec ε Unit) : Exec ε Unit := if c then x else ok ()

theorem when_bind_eq_ok {c : Prop} [Decidable c] {x : Exec ε Unit} {f : Unit → Exec ε β} {b : β} :
    (when c x >>= f) = ok b ↔ (c → x = ok ()) ∧ f () = ok b := by
  unfold when
  split_ifs with h
  · rw [bind_eq_ok, forall_prop_of_true h]
    exact ⟨fun ⟨(), hx⟩ => hx, fun hx => ⟨(), hx⟩⟩
  · simp [h]

/-- `ok_or(e)`: an absent value is the error `e`. -/
def orErr (x : Option α) (e : ε) : Exec ε α := x.elim (err e) ok

@[simp] theorem orErr_some (a : α) (e : ε) : orErr (some a) e = ok a := rfl

@[simp] theorem orErr_none (e : ε) : (orErr none e : Exec ε α) = err e := rfl

@[simp] theorem orErr_eq_ok {x : Option α} {e : ε} {a : α} : orErr x e = ok a ↔ x = some a := by
  cases x <;> simp

@[simp] theorem orErr_eq_err {x : Option α} {e e' : ε} : orErr x e = err e' ↔ x = none ∧ e = e' := by
  cases x <;> simp

/-! ### What panics -/

/-- `unwrap()`. -/
def unwrap (x : Option α) : Exec ε α := x.elim panic ok

@[simp] theorem unwrap_some (a : α) : (unwrap (some a) : Exec ε α) = ok a := rfl

@[simp] theorem unwrap_eq_ok {x : Option α} {a : α} : (unwrap x : Exec ε α) = ok a ↔ x = some a := by
  cases x <;> simp [unwrap]

/-- `data[i]`. -/
def index (data : Bytes) (i : Nat) : Exec ε UInt8 := unwrap data[i]?

theorem index_eq {data : Bytes} {i : Nat} (h : i < data.length) :
    (index data i : Exec ε UInt8) = ok data[i] := by
  simp [index, h]

/-- `&data[lo..lo + n]`. -/
def range (data : Bytes) (lo n : Nat) : Exec ε Bytes :=
  if lo + n ≤ data.length then ok (slice data lo n) else panic

theorem range_eq {data : Bytes} {lo n : Nat} (h : lo + n ≤ data.length) :
    (range data lo n : Exec ε Bytes) = ok (slice data lo n) :=
  if_pos h

/-- `&data[lo..]`. -/
def rangeFrom (data : Bytes) (lo : Nat) : Exec ε Bytes :=
  if lo ≤ data.length then ok (data.drop lo) else panic

theorem rangeFrom_eq {data : Bytes} {lo : Nat} (h : lo ≤ data.length) :
    (rangeFrom data lo : Exec ε Bytes) = ok (data.drop lo) :=
  if_pos h

/-! ### Catching an error -/

/-- `match x { Ok(a) => …, Err(e) => … }`: the caller sees the error; a panic goes on. -/
def attempt : Exec ε α → Exec ε' (Except ε α)
  | ok a => ok (.ok a)
  | err e => ok (.error e)
  | panic => panic

@[simp] theorem attempt_ok (a : α) : (attempt (ok a : Exec ε α) : Exec ε' _) = ok (.ok a) := rfl

@[simp] theorem attempt_err (e : ε) : (attempt (err e : Exec ε α) : Exec ε' _) = ok (.error e) := rfl

/-! ### Wrapping an error -/

/-- `map_err(f)?`: the error of a callee as one of the caller's. -/
def mapErr (f : ε → ε') : Exec ε α → Exec ε' α
  | ok a => ok a
  | err e => err (f e)
  | panic => panic

@[simp] theorem mapErr_eq_ok {f : ε → ε'} {x : Exec ε α} {a : α} : mapErr f x = ok a ↔ x = ok a := by
  cases x <;> simp [mapErr]

end Exec
