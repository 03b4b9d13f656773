import ThawGate.Backend.MintService
import ThawGate.Backend.Once

/-!
# A request takes effect at most once

`atMostOnce_iff`: a request that was answered took effect `AtMostOnce`, and not at all if the answer is an error,
exactly when the service `Heard` what happened to its transactions at every step of the run.

Proof. A transaction is `Stray` if it landed and the request is about none or another one. A stray transaction
stays stray, as `sendWithRetry` never returns to an attempt, and each step at which the service does not hear makes
one (`stray_iff`). So a run has a stray transaction exactly when one of its steps was such (`heard_iff`), and at the
end of a request the stray transactions are what `AtMostOnce` rules out.
-/

namespace ThawGate.Backend

open Logs (Text)

variable {svc : Service} {req : Request} {s s' : RequestState} {label : RequestLabel} {h : List RequestLabel}
  {tx tx' : Nat}

namespace Phase

/-- The transaction that was confirmed. -/
def settled : Phase → Option Nat
  | .confirmed tx | .located tx _ | .creating tx _ | .writing tx _ | .updating tx _
  | .replied (.success tx _ _) => some tx
  | _ => none

/-- The transaction that the request is about. -/
def current : Phase → Option Nat
  | .waiting _ tx => some tx
  | phase => phase.settled

end Phase

theorem retry_current (attempt : Nat) (message : Option Text) : (retry req attempt message).current = none := by
  unfold retry
  split_ifs <;> rfl

theorem retry_settled (attempt : Nat) (message : Option Text) : (retry req attempt message).settled = none := by
  unfold retry
  split_ifs <;> rfl

namespace RequestState

/-- The transaction took effect. -/
def Landed (s : RequestState) (tx : Nat) : Prop := s.flights[tx]? = some .landed

structure AtMostOnce (s : RequestState) : Prop where
  once : ∀ tx tx', s.Landed tx → s.Landed tx' → tx = tx'
  failed : ∀ code message, s.phase = .replied (.error code message) → ∀ tx, ¬s.Landed tx

/-- The service hears what happens to its transactions: only the one it waits for or has confirmed lands, an attempt
that throws after the send did not take effect, and no call after the confirmation throws. -/
def Heard (s : RequestState) : RequestLabel → Prop
  | .lands tx => s.phase.current = some tx
  | .unconfirmed _ => ∀ tx, s.phase.current = some tx → ¬s.Landed tx
  | .failed _ => False
  | _ => True

/-- The transaction took effect, and the request is not about it. -/
def Stray (s : RequestState) : Prop := ∃ tx, s.Landed tx ∧ s.phase.current ≠ some tx

/-! ### What a step does to the transactions -/

section moved

variable (req : Request) (s : RequestState)

inductive Moved : RequestLabel → RequestState → Prop
  | lands {tx : Nat} (hf : s.flights[tx]? = some .inFlight) :
    Moved (.lands tx) { s with flights := s.flights.set tx .landed }
  | drops {tx : Nat} (hf : s.flights[tx]? = some .inFlight) :
    Moved (.drops tx) { s with flights := s.flights.set tx .dropped }
  | sent {attempt : Nat} (hp : s.phase = .sending attempt) :
    Moved .sent { s with phase := .waiting attempt s.flights.length, flights := s.flights ++ [.inFlight] }
  | confirmed {attempt tx : Nat} (hp : s.phase = .waiting attempt tx) (hl : s.Landed tx) :
    Moved .confirmed (s.goto (.confirmed tx))
  /-- The attempt is given up. -/
  | unconfirmed {attempt tx : Nat} {message : Option Text} (hp : s.phase = .waiting attempt tx) :
    Moved (.unconfirmed message) (s.goto (retry req attempt message))
  | failed {tx : Nat} {message : Option Text} (hp : s.phase.settled = some tx) :
    Moved (.failed message) (s.goto (.replied (req.caught message)))
  | kept {label : RequestLabel} {s' : RequestState} (hheard : s.Heard label)
    (hcurrent : s'.phase.current = s.phase.current) (hsettled : s'.phase.settled = s.phase.settled)
    (hf : s'.flights = s.flights) : Moved label s'

end moved

/-- The request goes on with no transaction or the same one. -/
theorem Moved.of_phase {phase phase' : Phase} (hp : s.phase = phase) (hp' : s'.phase = phase') (hheard : s.Heard label)
    (hcurrent : phase'.current = phase.current) (hsettled : phase'.settled = phase.settled)
    (hf : s'.flights = s.flights) : Moved req s label s' := by
  subst hp hp'
  exact .kept hheard hcurrent hsettled hf

theorem next_moved (hs : s.next svc req label = some s') : Moved req s label s' := by
  cases label <;> simp only [next] at hs
  case lands tx =>
    split_ifs at hs with hf
    obtain rfl := Option.some.inj hs
    exact .lands hf
  case drops tx =>
    split_ifs at hs with hf
    obtain rfl := Option.some.inj hs
    exact .drops hf
  case sent =>
    split at hs
    case h_1 hp =>
      obtain rfl := Option.some.inj hs
      exact .sent hp
    case h_2 => contradiction
  case confirmed =>
    split at hs
    case h_1 hp =>
      split_ifs at hs with hl
      obtain rfl := Option.some.inj hs
      exact .confirmed hp hl
    case h_2 => contradiction
  case unconfirmed message =>
    split at hs
    case h_1 hp =>
      obtain rfl := Option.some.inj hs
      exact .unconfirmed hp
    case h_2 => contradiction
  case failed message =>
    split at hs <;> try contradiction
    all_goals
      rename_i hp
      obtain rfl := Option.some.inj hs
      exact .failed (congrArg Phase.settled hp)
  case notSent message =>
    split at hs
    case h_1 attempt hp =>
      obtain rfl := Option.some.inj hs
      exact .of_phase hp rfl trivial (retry_current attempt message) (retry_settled attempt message) rfl
    case h_2 => contradiction
  case written =>
    split at hs
    case h_1 hp _ =>
      split_ifs at hs
      obtain ⟨db, -, rfl⟩ := Option.map_eq_some_iff.1 hs
      exact .of_phase hp rfl trivial rfl rfl rfl
    case h_2 => contradiction
  case updated =>
    split at hs
    case h_1 hp _ =>
      obtain ⟨db, -, rfl⟩ := Option.map_eq_some_iff.1 hs
      exact .of_phase hp rfl trivial rfl rfl rfl
    case h_2 => contradiction
  case indexes tx call =>
    split_ifs at hs
    obtain ⟨i, -, rfl⟩ := Option.map_eq_some_iff.1 hs
    exact .kept trivial rfl rfl rfl
  case checked =>
    split at hs
    case h_1 hp _ =>
      obtain rfl := Option.some.inj hs
      exact .of_phase hp rfl trivial rfl rfl rfl
    case h_2 reply hp hcheck =>
      obtain ⟨code, message, rfl⟩ := Request.check_error hcheck
      obtain rfl := Option.some.inj hs
      exact .of_phase hp rfl trivial rfl rfl rfl
    case h_3 => contradiction
  case found | created =>
    split at hs <;> try contradiction
    all_goals
      rename_i hp _
      obtain rfl := Option.some.inj hs
      exact .of_phase hp rfl trivial rfl rfl rfl
  case built | notBuilt | located =>
    split at hs <;> try contradiction
    rename_i hp
    obtain rfl := Option.some.inj hs
    exact .of_phase hp rfl trivial rfl rfl rfl

/-! ### One step -/

theorem landed_set (hf : s.flights[tx]? = some .inFlight) :
    ((s.flights.set tx .landed)[tx']? = some .landed) ↔ tx' = tx ∨ s.Landed tx' := by
  obtain ⟨hlt, -⟩ := List.getElem?_eq_some_iff.1 hf
  by_cases heq : tx' = tx
  · subst heq
    rw [List.getElem?_set_self hlt]
    exact iff_of_true rfl (.inl rfl)
  · rw [List.getElem?_set_ne (Ne.symm heq), or_iff_right heq]
    rfl

theorem landed_drop (hf : s.flights[tx]? = some .inFlight) :
    ((s.flights.set tx .dropped)[tx']? = some .landed) ↔ s.Landed tx' := by
  obtain ⟨hlt, -⟩ := List.getElem?_eq_some_iff.1 hf
  unfold Landed
  by_cases heq : tx' = tx
  · subst heq
    rw [List.getElem?_set_self hlt, hf]
    decide
  · rw [List.getElem?_set_ne (Ne.symm heq)]

theorem landed_send : ((s.flights ++ [.inFlight])[tx]? = some .landed) ↔ s.Landed tx := by
  obtain hlt | hge := lt_or_ge tx s.flights.length
  · rw [List.getElem?_append_left hlt]
    rfl
  · unfold Landed
    rw [List.getElem?_append_right hge, List.getElem?_eq_none hge]
    cases tx - s.flights.length <;> simp

theorem Landed.lt (hl : s.Landed tx) : tx < s.flights.length := (List.getElem?_eq_some_iff.1 hl).1

/-- What was confirmed landed. -/
def Sound (s : RequestState) : Prop := ∀ tx, s.phase.settled = some tx → s.Landed tx

theorem Moved.sound (hx : Moved req s label s') (hs : s.Sound) : s'.Sound := by
  intro tx hp'
  cases hx with
  | lands hf => exact (landed_set hf).2 (.inr (hs tx hp'))
  | drops hf => exact (landed_drop hf).2 (hs tx hp')
  | sent => contradiction
  | confirmed hp hl =>
    obtain rfl := Option.some.inj hp'
    exact hl
  | unconfirmed =>
    rw [show ∀ phase, (s.goto phase).phase = phase from fun _ => rfl, retry_settled] at hp'
    contradiction
  | failed => contradiction
  | kept _ _ hsettled hf =>
    rw [hsettled] at hp'
    unfold Landed
    rw [hf]
    exact hs tx hp'

/-- **Step.** A transaction is stray after a step that was not heard, and where one was before. -/
theorem Moved.stray_iff (hx : Moved req s label s') (hs : s.Sound) : s'.Stray ↔ s.Stray ∨ ¬s.Heard label := by
  cases hx with
  | @lands tx hf =>
    refine ⟨?_, ?_⟩
    · rintro ⟨tx', hl, hp⟩
      obtain rfl | hl := (landed_set hf).1 hl
      · exact .inr hp
      · exact .inl ⟨tx', hl, hp⟩
    · rintro (⟨tx', hl, hp⟩ | hp)
      · exact ⟨tx', (landed_set hf).2 (.inr hl), hp⟩
      · exact ⟨tx, (landed_set hf).2 (.inl rfl), hp⟩
  | @drops tx hf =>
    have hheard : s.Heard (.drops tx) := trivial
    rw [or_iff_left (not_not.2 hheard)]
    exact exists_congr fun tx' => and_congr_left' (landed_drop hf)
  | sent hp =>
    have hheard : s.Heard .sent := trivial
    rw [or_iff_left (not_not.2 hheard)]
    refine ⟨?_, ?_⟩
    · rintro ⟨tx', hl, -⟩
      exact ⟨tx', landed_send.1 hl, by rw [hp]; exact Option.some_ne_none tx' |>.symm⟩
    · rintro ⟨tx', hl, -⟩
      refine ⟨tx', landed_send.2 hl, ?_⟩
      intro heq
      exact (Landed.lt hl).ne (Option.some.inj heq).symm
  | confirmed hp hl =>
    have hheard : s.Heard .confirmed := trivial
    rw [or_iff_left (not_not.2 hheard)]
    unfold Stray
    rw [hp]
    rfl
  | @unconfirmed attempt tx message hp =>
    have hnone : (s.goto (retry req attempt message)).phase.current = none := retry_current attempt message
    refine ⟨?_, ?_⟩
    · rintro ⟨tx', hl, -⟩
      by_cases heq : tx = tx'
      · subst heq
        refine .inr fun hheard => hheard tx ?_ hl
        rw [hp]
        rfl
      · refine .inl ⟨tx', hl, ?_⟩
        rw [hp]
        exact fun h => heq (Option.some.inj h)
    · intro hstray
      have hlanded : ∃ tx', s.Landed tx' := by
        obtain ⟨tx', hl, -⟩ | hheard := hstray
        · exact ⟨tx', hl⟩
        · obtain ⟨tx', hheard⟩ := not_forall.1 hheard
          exact ⟨tx', not_not.1 (Classical.not_imp.1 hheard).2⟩
      obtain ⟨tx', hl⟩ := hlanded
      refine ⟨tx', hl, ?_⟩
      rw [hnone]
      exact (Option.some_ne_none tx').symm
  | @failed tx message hp =>
    exact iff_of_true ⟨tx, hs tx hp, (Option.some_ne_none tx).symm⟩ (.inr id)
  | kept hheard hcurrent _ hf =>
    rw [or_iff_left (not_not.2 hheard)]
    unfold Stray Landed
    rw [hf, hcurrent]

/-! ### A run -/

theorem sound_of_reachable (r : (requests svc req).Reachable s) : s.Sound := by
  refine r.invariant ?_ ?_
  · intro s hstart tx hp
    rw [hstart.1] at hp
    contradiction
  · exact fun s label s' hsound hstep => (next_moved hstep).sound hsound

/-- The runs in which every step is heard. -/
def heard (svc : Service) (req : Request) : Lts RequestState RequestLabel :=
  (requests svc req).restrict fun s label _ => s.Heard label

/-- **Run.** No transaction is stray after a run exactly when each of its steps was heard. -/
theorem heard_iff (r : (requests svc req).Run h s) : (heard svc req).Run h s ↔ ¬s.Stray := by
  refine Lts.Run.restrict_iff (P := fun s => ¬s.Stray) ?_ ?_ r
  · rintro s hstart ⟨tx, hl, -⟩
    rw [Landed, hstart.2.1] at hl
    contradiction
  · intro s label s' hreach hstep
    rw [(next_moved hstep).stray_iff (sound_of_reachable hreach), not_or, not_not]

theorem AtMostOnce.of_not_stray (hs : ¬s.Stray) : s.AtMostOnce := by
  have hcurrent : ∀ tx, s.Landed tx → s.phase.current = some tx := by
    intro tx hl
    by_contra hp
    exact hs ⟨tx, hl, hp⟩
  refine ⟨?_, ?_⟩
  · intro tx tx' hl hl'
    exact Option.some.inj ((hcurrent tx hl).symm.trans (hcurrent tx' hl'))
  · intro code message hp tx hl
    have hnone := hcurrent tx hl
    rw [hp] at hnone
    contradiction

/-- A request that was answered has no transaction in mind but the one it was confirmed. -/
theorem AtMostOnce.not_stray {reply : Reply} (ha : s.AtMostOnce) (hs : s.Sound) (hp : s.phase = .replied reply) :
    ¬s.Stray := by
  rintro ⟨tx, hl, hne⟩
  cases reply with
  | error code message => exact ha.failed code message hp tx hl
  | success tx' slot amount =>
    have hl' : s.Landed tx' := hs tx' (by rw [hp]; rfl)
    rw [ha.once tx tx' hl hl', hp] at hne
    exact hne rfl

/-- A run whose steps were heard takes effect at most once, and of the answered requests no other does. -/
theorem atMostOnce_iff :
    ((heard svc req).Run h s → s.AtMostOnce) ∧
      ∀ reply, (requests svc req).Run h s → s.phase = .replied reply → (s.AtMostOnce ↔ (heard svc req).Run h s) := by
  refine ⟨?_, ?_⟩
  · intro r
    exact .of_not_stray ((heard_iff r.of_restrict).1 r)
  · intro reply r hp
    rw [heard_iff r]
    exact ⟨fun ha => ha.not_stray (sound_of_reachable r.reachable) hp, .of_not_stray⟩

def sampleService : Service where
  isPublicKey text := text.length = 43
  minter := some (List.replicate 43 'C')
  transaction n := .ofLogs (List.replicate (n + 1) 's') [sampleLine "Program log: TokensMinted"]

def sampleRequest : Request := ⟨.mint, sampleMint, List.replicate 43 'B', "5".toList⟩

def sampleReceived : RequestState := ⟨.received, [], ⟨sampleDb, 0, 0⟩, fun _ => []⟩

theorem sampleReceived_run {labels : List RequestLabel}
    (hs : labels.foldlM (RequestState.next sampleService sampleRequest) sampleReceived = some s) :
    (requests sampleService sampleRequest).Run labels.reverse s := by
  have r := Lts.Run.of_foldlM (L := requests sampleService sampleRequest) (fun _ _ _ => id) hs
    (.start ⟨rfl, rfl, fun _ => rfl⟩)
  rwa [List.append_nil] at r

/-- The first attempt is dropped, and the second one lands. -/
theorem atMostOnce_iff_sample :
    ∃ h s, (heard sampleService sampleRequest).Run h s ∧ s.flights = [.dropped, .landed] ∧ s.AtMostOnce := by
  have hrun : (([.checked, .built, .sent, .drops 0, .unconfirmed none, .sent, .lands 1, .confirmed, .located (some 9),
      .found, .written, .updated] : List RequestLabel).foldlM (next sampleService sampleRequest) sampleReceived).any
      fun s => s.phase = .replied (.success 1 9 "5".toList) ∧ s.flights = [.dropped, .landed] := by decide +kernel
  obtain ⟨s, hs, hend⟩ := (Option.any_eq_true _ _).1 hrun
  obtain ⟨hp, hf⟩ := of_decide_eq_true hend
  have hone : ∀ tx, s.Landed tx → tx = 1 := by
    intro tx hl
    rw [Landed, hf] at hl
    match tx, hl with
    | 1, _ => rfl
  have ha : s.AtMostOnce := by
    refine ⟨?_, ?_⟩
    · intro tx tx' hl hl'
      rw [hone tx hl, hone tx' hl']
    · intro code message herror
      rw [hp] at herror
      cases herror
  have hr := (atMostOnce_iff.2 _ (sampleReceived_run hs) hp).1 ha
  exact ⟨_, s, hr, hf, atMostOnce_iff.1 hr⟩

/-- The first attempt lands after its confirmation timed out, and the second one mints again. In the other run the
indexer has written the row of the confirmed transaction, and the service's own is refused. -/
theorem request_mints_twice :
    (∃ h s, (requests sampleService sampleRequest).Run h s ∧ s.phase = .replied (.success 1 9 "5".toList) ∧
      s.Landed 0 ∧ s.Landed 1 ∧ ¬s.AtMostOnce) ∧
    ∃ h s, (requests sampleService sampleRequest).Run h s ∧
      s.phase = .replied (.error 500 "Unique constraint failed".toList) ∧ s.Landed 0 ∧
      s.store.db.has .mintOperation (sampleService.transaction 0).signature ∧ ¬s.AtMostOnce := by
  refine ⟨?_, ?_⟩
  · have hrun : (([.checked, .built, .sent, .unconfirmed none, .lands 0, .sent, .lands 1, .confirmed,
        .located (some 9), .found, .written, .updated] : List RequestLabel).foldlM
        (next sampleService sampleRequest) sampleReceived).any
        fun s => s.phase = .replied (.success 1 9 "5".toList) ∧ s.flights = [.landed, .landed] := by decide +kernel
    obtain ⟨s, hs, hend⟩ := (Option.any_eq_true _ _).1 hrun
    obtain ⟨hp, hf⟩ := of_decide_eq_true hend
    have hl : s.Landed 0 := by rw [Landed, hf]; rfl
    have hl' : s.Landed 1 := by rw [Landed, hf]; rfl
    refine ⟨_, s, sampleReceived_run hs, hp, hl, hl', ?_⟩
    intro ha
    exact Nat.zero_ne_one (ha.once 0 1 hl hl')
  · have hrun : (([.checked, .built, .sent, .lands 0, .confirmed, .located (some 9), .found,
        .indexes 0 (.start .websocket 9), .indexes 0 (.step 0), .indexes 0 (.step 0), .indexes 0 (.step 0),
        .indexes 0 (.step 0), .failed (some "Unique constraint failed".toList)] : List RequestLabel).foldlM
        (next sampleService sampleRequest) sampleReceived).any
        fun s => s.phase = .replied (.error 500 "Unique constraint failed".toList) ∧ s.flights = [.landed] ∧
          s.store.db.has .mintOperation (sampleService.transaction 0).signature := by decide +kernel
    obtain ⟨s, hs, hend⟩ := (Option.any_eq_true _ _).1 hrun
    obtain ⟨hp, hf, hrow⟩ := of_decide_eq_true hend
    have hl : s.Landed 0 := by rw [Landed, hf]; rfl
    refine ⟨_, s, sampleReceived_run hs, hp, hl, hrow, ?_⟩
    intro ha
    exact ha.failed _ _ hp 0 hl

end RequestState

end ThawGate.Backend
