import ThawGate.Token.Entries

/-!
# Accounts as bytes

Anchor loads an account by decoding its data, runs the handler, and writes the new encoding over the first
bytes of that data. An account is as large as its longest value, so after a shorter value the end of a longer
one stays behind it. A `Storage` keeps some accounts of the ledger this way, and `storage` is sss-token over
it: the handlers run on what is decoded (`Stored.loaded`).

What a storage owes is a law about one instruction: the encodings fit, and what is decoded is what was encoded
last. Then the runs of `storage` are those of `machine` (`Stored.run_loaded`, `Stored.of_run`).
-/

namespace ThawGate.Token

open Borsh Exec Function

variable {W : Type} {P : Programs W} {now : Int64} {h : List Label}

/-! ### Writing an account back -/

section write

variable {α : Type} {t : AccountType α} {size : Nat} {e : α}

/-- An account's data when a handler gets it: `init_if_needed` makes a new one of zeroes. -/
def buffer (size : Nat) (data : Bytes) : Bytes := if data.isEmpty then List.replicate size 0 else data

/-- The handler's account at `a` is written back. -/
def writeBack (t : AccountType α) (size : Nat) (accounts : Pda → Option α) (a : Pda) (data : Pda → Bytes) :
    Option (Pda → Bytes) := do
  let e ← accounts a
  let bytes ← t.store (buffer size (data a)) e
  pure (update data a bytes)

theorem buffer_length {data : Bytes} (hlen : data = [] ∨ data.length = size) : (buffer size data).length = size := by
  unfold buffer
  obtain rfl | hlen := hlen
  · exact List.length_replicate
  · split
    · exact List.length_replicate
    · exact hlen

/-- A value is written into a new account, or over an earlier one. -/
theorem store_buffer {data : Bytes} (hlen : data = [] ∨ data.length = size) (hfits : (t.bytes e).length ≤ size) :
    ∃ data', t.store (buffer size data) e = some data' ∧ t.tryDeserialize data' = some e ∧ data'.length = size := by
  have hsize := buffer_length hlen
  have hfits : (t.bytes e).length ≤ (buffer size data).length := hfits.trans hsize.ge
  obtain ⟨data', hstore, hread, hsame⟩ := t.store_of_fits hfits
  exact ⟨data', hstore, hread, hsame.trans hsize⟩

theorem writeBack_update {accounts : Pda → Option α} {a : Pda} {data : Pda → Bytes} {bytes : Bytes}
    (hstore : t.store (buffer size (data a)) e = some bytes) :
    writeBack t size (update accounts a (some e)) a data = some (update data a bytes) := by
  simp only [writeBack, update_self, hstore, Option.bind_eq_bind, Option.bind_some, Option.pure_def]

end write

/-! ### The program over bytes -/

structure Layout where
  /-- What the handlers see of the ledger: some of it is decoded from the accounts. -/
  load : Ledger → (Pda → Bytes) → Ledger
  /-- The accounts after an instruction that left the ledger: the one it names mutably is written back, none
  other. -/
  exit : Instruction → Ledger → (Pda → Bytes) → Option (Pda → Bytes)
  /-- What an account's data can be. -/
  Held : Bytes → Prop

/-- What an instruction left fits, and is what the handlers see next. -/
def Layout.Exits (L : Layout) (ix : Instruction) (l : Ledger) (data : Pda → Bytes) : Prop :=
  ∃ data', L.exit ix l data = some data' ∧ L.load l data' = l ∧ ∀ a, L.Held (data' a)

/-- One account is written back, and what is written is held, and loaded as the instruction left it. -/
theorem Layout.Exits.of_write {L : Layout} {α : Type} {t : AccountType α} {size : Nat} {accounts : Pda → Option α}
    {a : Pda} {e : α} {ix : Instruction} {l : Ledger} {data : Pda → Bytes} (hk : ∀ a, L.Held (data a))
    (hix : L.exit ix l data = writeBack t size (update accounts a (some e)) a data)
    (hlen : data a = [] ∨ (data a).length = size) (hfits : (t.bytes e).length ≤ size)
    (hwrite : ∀ bytes, t.tryDeserialize bytes = some e → bytes.length = size →
      L.Held bytes ∧ L.load l (update data a bytes) = l) : L.Exits ix l data := by
  obtain ⟨bytes, hstore, hread, hsize⟩ := store_buffer hlen hfits
  obtain ⟨hheld, hload⟩ := hwrite bytes hread hsize
  refine ⟨update data a bytes, ?_, hload, (forall_update_iff data fun _ => L.Held).2 ⟨hheld, fun b _ => hk b⟩⟩
  rw [hix]
  exact writeBack_update hstore

structure Storage extends Layout where
  held_nil : Held []
  load_empty : load .empty (fun _ => []) = .empty
  exits : ∀ {W : Type} {P : Programs W} {now : Int64} {s s' : State W} {ix : Instruction} {data : Pda → Bytes},
    (∀ a, Held (data a)) → (load s.ledger data).Addressed P →
      exec P now { s with ledger := load s.ledger data } ix = ok s' → toLayout.Exits ix s'.ledger data

/-- The state, with some accounts by their data. -/
structure Stored (S : Storage) (W : Type) where
  state : State W
  data : Pda → Bytes

variable {S : Storage} {st : Stored S W}

/-- What the handlers see. -/
def Stored.loaded (st : Stored S W) : State W := { st.state with ledger := S.load st.state.ledger st.data }

inductive Stored.Step (P : Programs W) : Stored S W → Label → Stored S W → Prop
  | succeeded {st : Stored S W} {ix : Instruction} {now : Int64} {s : State W} {data : Pda → Bytes}
    (hx : exec P now st.loaded ix = ok s) (hd : S.exit ix s.ledger st.data = some data) :
    Step P st (.tx ix now true) ⟨s, data⟩
  /-- The handler fails, or what it leaves does not fit (`AccountDidNotSerialize`). -/
  | failed {st : Stored S W} {ix : Instruction} {now : Int64}
    (hx : ∀ s, exec P now st.loaded ix = ok s → S.exit ix s.ledger st.data = none) :
    Step P st (.tx ix now false) st
  | outside {st : Stored S W} (w : W) : Step P st .outside { st with state := { st.state with world := w } }

def storage (S : Storage) (P : Programs W) : Lts (Stored S W) Label where
  start st := st.state.ledger = .empty ∧ st.state.events = [] ∧ st.data = fun _ => []
  step := Stored.Step P

namespace Stored

def Kept (st : Stored S W) : Prop := ∀ a, S.Held (st.data a)

/-- **Step.** What an instruction leaves always fits, and is what the next one loads. -/
theorem Kept.exits {ix : Instruction} {s : State W} (hk : st.Kept) (hl : st.loaded.ledger.Addressed P)
    (hx : exec P now st.loaded ix = ok s) :
    ∃ data', S.exit ix s.ledger st.data = some data' ∧ (⟨s, data'⟩ : Stored S W).loaded = s ∧
      (⟨s, data'⟩ : Stored S W).Kept := by
  obtain ⟨data', hexit, hload, hheld⟩ := S.exits hk hl hx
  refine ⟨data', hexit, ?_, hheld⟩
  unfold loaded
  dsimp only
  rw [hload]

theorem loaded_start (hst : (storage S P).start st) : (machine P).start st.loaded ∧ st.Kept := by
  obtain ⟨⟨l, w, events⟩, data⟩ := st
  obtain ⟨rfl, rfl, rfl⟩ := hst
  exact ⟨⟨S.load_empty, rfl⟩, fun _ => S.held_nil⟩

/-- **Refinement.** What the handlers load is the state of a run of the ledger. -/
theorem run_loaded (r : (storage S P).Run h st) : (machine P).Run h st.loaded ∧ st.Kept := by
  refine r.invariant (I := fun h st => (machine P).Run h st.loaded ∧ st.Kept) ?_ ?_
  · intro st hst
    obtain ⟨hstart, hkept⟩ := loaded_start hst
    exact ⟨.start hstart, hkept⟩
  · intro h st e st' _ ⟨r, hk⟩ hs
    have hl := Ledger.Addressed.of_reachable ⟨h, r⟩
    cases hs with
    | @succeeded ix now s data hx hd =>
      obtain ⟨data', hd', hloaded, hkept⟩ := hk.exits hl hx
      rw [hd] at hd'
      obtain rfl := Option.some.inj hd'
      rw [hloaded]
      exact ⟨r.step (.succeeded hx), hkept⟩
    | @failed ix now hx =>
      refine ⟨r.step (.failed fun s hs => ?_), hk⟩
      obtain ⟨data', hd', -⟩ := hk.exits hl hs
      rw [hx s hs] at hd'
      contradiction
    | outside w => exact ⟨r.step (.outside w), hk⟩

/-- After a run, what an instruction leaves fits. -/
theorem run_exits {ix : Instruction} {s : State W} (r : (storage S P).Run h st) (hx : exec P now st.loaded ix = ok s) :
    ∃ data', S.exit ix s.ledger st.data = some data' ∧ (⟨s, data'⟩ : Stored S W).loaded = s := by
  obtain ⟨r', hk⟩ := run_loaded r
  obtain ⟨data', hd, hloaded, -⟩ := hk.exits (.of_reachable ⟨h, r'⟩) hx
  exact ⟨data', hd, hloaded⟩

/-- And every run of the ledger is one of a run over bytes: serialization refuses nothing the handlers accept. -/
theorem of_run (S : Storage) {s : State W} (r : (machine P).Run h s) :
    ∃ st : Stored S W, (storage S P).Run h st ∧ st.loaded = s := by
  induction r with
  | @start s hs =>
    have hst : (storage S P).start ⟨s, fun _ => []⟩ := ⟨hs.1, hs.2, rfl⟩
    refine ⟨_, .start hst, ?_⟩
    obtain ⟨l, w, events⟩ := s
    obtain ⟨rfl, rfl⟩ := hs
    unfold loaded
    dsimp only
    rw [S.load_empty]
  | @step h s s' e _ hs ih =>
    obtain ⟨st, r, rfl⟩ := ih
    obtain ⟨r', hk⟩ := run_loaded r
    have hl := Ledger.Addressed.of_reachable ⟨h, r'⟩
    cases hs with
    | @succeeded _ ix now hx =>
      obtain ⟨data', hd', hloaded, -⟩ := hk.exits hl hx
      exact ⟨_, r.step (.succeeded hx hd'), hloaded⟩
    | @failed ix now hx => exact ⟨st, r.step (.failed fun s hs => absurd hs (hx s)), rfl⟩
    | outside w => exact ⟨_, r.step (.outside w), rfl⟩

end Stored

end ThawGate.Token
