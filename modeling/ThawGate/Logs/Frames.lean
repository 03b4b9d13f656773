import ThawGate.Logs.Transcript

/-!
# Frames rebuilt from lines

The readers of logs keep a stack of program addresses: an `invoke` line pushes, an exit line pops, and a line
is attributed to the program on top. The readers differ in the expression for an exit line. On the lines of a
transcript the stack is that of the open frames before every line if and only if every line inside a frame is
`Quiet`: it reads neither as a push nor as a pop (`follows_iff_quiet`).
-/

namespace ThawGate.Logs

/-- The stack after a line; `exit` is the reader's test of an exit line. -/
def stackAfter (exit : Text → Bool) (line : Text) (stack : List Text) : List Text :=
  match invokeLine line with
  | some program => program :: stack
  | none => if exit line then stack.tail else stack

/-- The test accepts the runtime's exit lines. -/
def ReadsExits (exit : Text → Bool) : Prop :=
  ∀ (program : ProgramId) (failure : Option Message), exit (Entry.exit program failure).text = true

/-- The line reads neither as a push nor as a pop. -/
def Quiet (exit : Text → Bool) (line : Text) : Prop := invokeLine line = none ∧ exit line = false

/-- Before every line the stack is that of the frames which are open. -/
def Follows (exit : Text → Bool) : List Text → List (Entry × List ProgramId) → Prop
  | _, [] => True
  | stack, (e, path) :: rest => stack = path.map ProgramId.text ∧ Follows exit (stackAfter exit e.text stack) rest

variable {exit : Text → Bool} {es : List (Entry × List ProgramId)} {path : List ProgramId}

theorem follows_iff {stack : List Text} : Follows exit stack es ↔
    ∀ before e path after, es = before ++ (e, path) :: after →
      before.foldl (fun stack e => stackAfter exit e.1.text stack) stack = path.map ProgramId.text := by
  induction es generalizing stack with
  | nil =>
    refine ⟨fun _ before e path after h => ?_, fun _ => trivial⟩
    exact absurd h.symm (List.append_ne_nil_of_right_ne_nil _ (List.cons_ne_nil _ _))
  | cons head rest ih =>
    obtain ⟨e₀, path₀⟩ := head
    rw [Follows, ih]
    constructor
    · rintro ⟨hstack, hrest⟩ before e path after h
      cases before with
      | nil =>
        obtain ⟨h₁, -⟩ := List.cons_eq_cons.1 h
        rw [List.foldl_nil, hstack]
        cases h₁
        rfl
      | cons b before =>
        obtain ⟨rfl, h₂⟩ := List.cons_eq_cons.1 h
        exact hrest before e path after h₂
    · intro h
      refine ⟨h [] e₀ path₀ rest rfl, fun before e path after hsplit => ?_⟩
      exact h ((e₀, path₀) :: before) e path after (by rw [hsplit, List.cons_append])

theorem stackAfter_quiet {line : Text} (h : Quiet exit line) (stack : List Text) :
    stackAfter exit line stack = stack := by
  rw [stackAfter, h.1]
  exact if_neg (by rw [h.2]; exact Bool.false_ne_true)

/-- A line that is not quiet changes every stack but the empty one. -/
theorem quiet_of_stackAfter {line : Text} {stack : List Text} (hne : stack ≠ [])
    (h : stackAfter exit line stack = stack) : Quiet exit line := by
  obtain ⟨top, stack, rfl⟩ := List.exists_cons_of_ne_nil hne
  rw [stackAfter] at h
  cases hinvoke : invokeLine line with
  | some program =>
    rw [hinvoke] at h
    have hlength := congrArg List.length h
    simp at hlength
  | none =>
    rw [hinvoke] at h
    by_cases hexit : exit line
    · have hlength := congrArg List.length ((if_pos hexit).symm.trans h)
      simp at hlength
    · exact ⟨hinvoke, Bool.eq_false_iff.2 hexit⟩

theorem invokeLine_exit (program : ProgramId) (failure : Option Message) :
    invokeLine (Entry.exit program failure).text = none := by
  have htail (tail : Text) (h : tail.head? = some 's' ∨ tail.head? = some 'f') : isInvokeTail tail = false := by
    rw [isInvokeTail]
    cases hrest : tail.dropPrefix? "invoke [".toList with
    | none => rfl
    | some rest =>
      rw [dropPrefix?_eq_some] at hrest
      subst hrest
      rcases h with h | h <;> cases h
  cases failure with
  | none =>
    rw [Entry.text, invokeLine_text (isWord_base58 program), htail _ (.inl rfl)]
    rfl
  | some message =>
    rw [Entry.text, invokeLine_text (isWord_base58 program), htail _ (.inr rfl)]
    rfl

theorem stackAfter_invoke (program : ProgramId) (depth : Nat) (stack : List Text) :
    stackAfter exit (Entry.invoke program depth).text stack = program.text :: stack := by
  rw [stackAfter, invokeLine_invoke]

theorem stackAfter_exit (hexit : ReadsExits exit) (program : ProgramId) (failure : Option Message) (stack : List Text) :
    stackAfter exit (Entry.exit program failure).text stack = stack.tail := by
  rw [stackAfter, invokeLine_exit]
  exact if_pos (hexit program failure)

/-- The stack follows the open frames exactly when every line inside a frame is quiet. -/
theorem follows_iff_quiet (hexit : ReadsExits exit) (h : Tracks path es) :
    Follows exit (path.map ProgramId.text) es ↔ ∀ l p, (.line l, p) ∈ es → Quiet exit l.text := by
  induction h with
  | done => exact ⟨fun _ l p hmem => absurd hmem List.not_mem_nil, fun _ => trivial⟩
  | @invoke program depth path rest _ ih =>
    rw [Follows, stackAfter_invoke]
    refine ⟨fun hf l p hmem => ?_, fun hq => ⟨rfl, ih.2 fun l p hmem => hq l p (List.mem_cons_of_mem _ hmem)⟩⟩
    rcases List.mem_cons.1 hmem with heq | hmem
    · cases heq
    · exact ih.1 hf.2 l p hmem
  | @exit program failure path rest _ ih =>
    rw [Follows, stackAfter_exit hexit]
    refine ⟨fun hf l p hmem => ?_, fun hq => ⟨rfl, ih.2 fun l p hmem => hq l p (List.mem_cons_of_mem _ hmem)⟩⟩
    rcases List.mem_cons.1 hmem with heq | hmem
    · cases heq
    · exact ih.1 hf.2 l p hmem
  | @line l path rest hpath hrest ih =>
    rw [Follows]
    constructor
    · rintro ⟨-, hf⟩
      -- another line follows, and the stack before it is still the one of this frame
      obtain ⟨e, after, rfl⟩ := hrest.next hpath
      have hquiet : Quiet exit l.text := quiet_of_stackAfter (mt List.map_eq_nil_iff.1 hpath) hf.1
      rw [Entry.text, stackAfter_quiet hquiet] at hf
      intro l' p hmem
      rcases List.mem_cons.1 hmem with heq | hmem
      · cases heq
        exact hquiet
      · exact ih.1 hf l' p hmem
    · intro hq
      have hquiet : Quiet exit l.text := hq l path List.mem_cons_self
      rw [Entry.text, stackAfter_quiet hquiet]
      exact ⟨rfl, ih.2 fun l' p hmem => hq l' p (List.mem_cons_of_mem _ hmem)⟩

end ThawGate.Logs
