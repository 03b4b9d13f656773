import ThawGate.Attestor.Decision

/-!
# The attestor beside the program

A tick reads the attestation, then the clock, decides, and sends. Until its transaction lands anybody may call
sss-token: the master authority may replace the attestor, and another process may post with the attestor's key. A tick
may also give up while its transaction is in flight. `posts_land`: whatever comes in between, a post fails only if the
attestation is no longer the one that the tick read, and one that succeeds stores its report, which the next tick
leaves alone.
-/

namespace ThawGate.Attestor

open Borsh Exec Lts Token Utf16

/-! ### Ticks -/

/-- What the service takes from its runtime. -/
structure Host where
  address : JsString → Option Pubkey
  dateParse : JsString → Option Int
  replaced : Bytes → JsString
  text : Pubkey → String

inductive Tick where
  | idle
  /-- The account is read, the clock is not. -/
  | fetched (report : ReserveReport) (data : Bytes)
  | confirming

/-- A transaction that has not landed, with the account's data that its tick read. -/
structure Flight where
  report : ReserveReport
  data : Bytes

structure Attesting (W : Type) where
  program : Stored reserveAccounts W
  clock : Int64
  tick : Tick
  flights : List Flight

inductive TickLabel where
  | program (l : Token.Label)
  | time (now : Int64)
  | fetch (doc : Json)
  | skip
  | send
  | land (i : Nat) (succeeded : Bool)
  | expire (i : Nat)
  | done

/-- The instruction of a report, as the program reads it. -/
def ReserveReport.instruction (report : ReserveReport) (attestor : Pubkey) (a : Pda) : Option Instruction := do
  let data ← attestReservesInstruction report
  let (reserves, asOf, uri) ← attestReservesData.tryDeserialize data
  pure (.attestReserves ⟨attestor, a⟩ reserves asOf uri)

section system

variable {W : Type} (P : Programs W) (host : Host) (attestor : Pubkey)

def reservePda (report : ReserveReport) : Pda := P.canonical (.reserve report.mint)

/-- Other callers' instructions come at any clock, and the cluster's clock does not go back. -/
inductive Attesting.Step : Attesting W → TickLabel → Attesting W → Prop
  | program {s : Attesting W} {l : Token.Label} {st : Stored reserveAccounts W}
    (hs : (storage reserveAccounts P).step s.program l st) :
    Step s (.program l) { s with program := st }
  | time {s : Attesting W} {now : Int64} (hnow : s.clock ≤ now) : Step s (.time now) { s with clock := now }
  | fetch {s : Attesting W} {doc : Json} {report : ReserveReport} (hidle : s.tick = .idle)
    (hreport : parseReport host.address host.dateParse doc = .ok report) :
    Step s (.fetch doc) { s with tick := .fetched report (s.program.data (reservePda P report)) }
  | skip {s : Attesting W} {report : ReserveReport} {data : Bytes} {onChain : Option OnChainAttestation}
    (htick : s.tick = .fetched report data) (hfetch : fetchAttestation host.replaced data = .ok onChain)
    (hskip : (decideReport host.text report onChain attestor s.clock.toInt).posts = false) :
    Step s .skip { s with tick := .idle }
  | send {s : Attesting W} {report : ReserveReport} {data : Bytes} {onChain : Option OnChainAttestation}
    (htick : s.tick = .fetched report data) (hfetch : fetchAttestation host.replaced data = .ok onChain)
    (hposts : (decideReport host.text report onChain attestor s.clock.toInt).posts = true) :
    Step s .send { s with tick := .confirming, flights := s.flights ++ [⟨report, data⟩] }
  | land {s : Attesting W} {i : Nat} {f : Flight} {ix : Instruction} {succeeded : Bool} {st : Stored reserveAccounts W}
    (hf : s.flights[i]? = some f) (hix : f.report.instruction attestor (reservePda P f.report) = some ix)
    (hs : (storage reserveAccounts P).step s.program (.tx ix s.clock succeeded) st) :
    Step s (.land i succeeded) { s with program := st, flights := s.flights.eraseIdx i }
  /-- The blockhash expires before the transaction lands. -/
  | expire {s : Attesting W} (i : Nat) : Step s (.expire i) { s with flights := s.flights.eraseIdx i }
  /-- The tick ends: confirmed, by a throw, by a dry run, or because the service stops. -/
  | done {s : Attesting W} : Step s .done { s with tick := .idle }

def attesting : Lts (Attesting W) TickLabel where
  start s := (storage reserveAccounts P).start s.program ∧ s.tick = .idle ∧ s.flights = []
  step := Attesting.Step P host attestor

/-- The attestation is the attestor's, and has no newer figures than the report. -/
def Takes (l : Ledger) (report : ReserveReport) : Prop :=
  ∃ t, l.reserves (reservePda P report) = some t ∧ t.attestor = attestor ∧ t.asOf.toInt ≤ report.asOf

end system

/-! ### One post -/

section post

variable {W : Type} {P : Programs W} {now : Int64} {s s' : State W} {attestor : Pubkey} {a : Pda} {report : ReserveReport}
  {ix : Instruction}

theorem instruction_eq (hvalid : report.Valid) (hix : report.instruction attestor a = some ix) :
    ix = .attestReserves ⟨attestor, a⟩ (UInt64.ofNat report.reserves) (Int64.ofInt report.asOf) hvalid.uri ∧
      (Int64.ofInt report.asOf).toInt = report.asOf := by
  obtain ⟨data, hdata, hix⟩ := Option.bind_eq_some_iff.1 hix
  obtain ⟨args, hargs, hix⟩ := Option.bind_eq_some_iff.1 hix
  obtain ⟨hread, hlow, hhigh⟩ := attestReservesInstruction_read hvalid hdata
  obtain rfl := Option.some.inj (hread.symm.trans hargs)
  exact ⟨(Option.some.inj hix).symm, Int64.toInt_ofInt_of_le hlow hhigh⟩

/-- What a post comes to that lands at `now`. -/
theorem exec_post_iff (now : Int64) (hvalid : report.Valid)
    (here : ∀ t, s.ledger.reserves a = some t → a = ⟨.reserve t.mint, t.bump⟩)
    (hnow : report.asOf ≤ now.toInt) (hix : report.instruction attestor a = some ix) :
    (∃ s', exec P now s ix = .ok s') ↔
      ∃ t, s.ledger.reserves a = some t ∧ t.attestor = attestor ∧ t.asOf.toInt ≤ report.asOf := by
  obtain ⟨rfl, hasOf⟩ := instruction_eq hvalid hix
  constructor
  · rintro ⟨s', hx⟩
    obtain ⟨t, ht, -, hattestor, -, hstored, -⟩ := attestReservesHandler_ok hx
    rw [Int64.le_iff_toInt_le, hasOf] at hstored
    exact ⟨t, ht, hattestor, hstored⟩
  · rintro ⟨t, ht, hattestor, hstored⟩
    have hlen : (utf8 report.reportUri).length ≤ maxUriLen := hvalid.reportUri
    have hpost : validPost (Int64.ofInt report.asOf) t.asOf now hvalid.uri.bytes.length = true := by
      simp only [validPost, Bool.and_eq_true, decide_eq_true_eq, ge_iff_le, Int64.le_iff_toInt_le, hasOf]
      exact ⟨⟨hnow, hstored⟩, hlen⟩
    refine ⟨s.commit (s.ledger.setReserve a (posted t hvalid now)) (some (.reservesAttested t.mint t.attestor
      (UInt64.ofNat report.reserves) (Int64.ofInt report.asOf) hvalid.uri now)), ?_⟩
    show attestReservesHandler now s _ _ _ _ = _
    rw [attestReservesHandler]
    simp only [ht, account, Exec.orErr_some, Exec.bind_ok, checkSeeds, Exec.require_pos (here t ht),
      Exec.require_pos hattestor, Exec.require_pos hpost, Exec.pure_eq]
    rfl

theorem exec_post_stores (hvalid : report.Valid) (hix : report.instruction attestor a = some ix)
    (hx : exec P now s ix = .ok s') :
    ∃ t, s.ledger.reserves a = some t ∧ t.attestor = attestor ∧ t.asOf.toInt ≤ report.asOf ∧
      s'.ledger.reserves a = some (posted t hvalid now) := by
  obtain ⟨rfl, hasOf⟩ := instruction_eq hvalid hix
  obtain ⟨t, ht, -, hattestor, -, hstored, rfl⟩ := attestReservesHandler_ok hx
  rw [Int64.le_iff_toInt_le, hasOf] at hstored
  refine ⟨t, ht, hattestor, hstored, ?_⟩
  show (s.ledger.setReserve a _).reserves a = _
  rw [Ledger.setReserve_reserves, Function.update_self]
  rfl

/-- An instruction takes effect where the handler accepts it: what it leaves always fits. -/
theorem storage_tx {st st' : Stored reserveAccounts W} {h : List Label} {succeeded : Bool}
    (r : (storage reserveAccounts P).Run h st)
    (hs : (storage reserveAccounts P).step st (.tx ix now succeeded) st') :
    (succeeded = true ∧ exec P now st.loaded ix = .ok st'.loaded) ∨
      succeeded = false ∧ st' = st ∧ ¬∃ s, exec P now st.loaded ix = .ok s := by
  cases hs with
  | succeeded hx hd =>
    obtain ⟨data', hd', hloaded⟩ := Stored.run_exits r hx
    obtain rfl := Option.some.inj (hd.symm.trans hd')
    rw [hloaded]
    exact .inl ⟨rfl, hx⟩
  | failed hx =>
    refine .inr ⟨rfl, rfl, ?_⟩
    rintro ⟨s, hs⟩
    obtain ⟨data', hd', -⟩ := Stored.run_exits r hs
    cases (hx s hs).symm.trans hd'

/-- Over the report itself the service does not post, unless its URI has a lone surrogate. -/
theorem decideReport_unchanged {replaced : Bytes → JsString} {text : Pubkey → String} {t : ReserveAttestation}
    (hsame : ¬Differs report t) (hattestor : t.attestor = attestor) (hnow : report.asOf ≤ now.toInt)
    (huri : toWellFormed report.reportUri = report.reportUri) :
    decideReport text report (some (.of replaced t)) attestor now.toInt = .skip .unchanged none := by
  obtain ⟨hasOf, hreserves, hbytes⟩ := not_not.1 hsame
  have hread : report.reportUri = ofUtf8 replaced t.reportUri.bytes := (eq_ofUtf8_iff ..).2 ⟨hbytes, huri⟩
  rw [decideReport.eq_def]
  dsimp only
  refine (if_neg (not_not_intro hattestor)).trans ?_
  refine (if_neg (not_lt.2 hnow)).trans ?_
  refine (if_neg (not_lt.2 hasOf.ge)).trans ?_
  exact (if_pos hasOf).trans (if_pos ⟨hreserves, hread⟩)

end post

/-! ### Runs -/

section runs

variable {W : Type} {P : Programs W} {host : Host} {attestor : Pubkey} {h : List TickLabel} {s s' : Attesting W}

theorem Attesting.program_run (r : (attesting P host attestor).Run h s) :
    ∃ h', (storage reserveAccounts P).Run h' s.program := by
  induction r with
  | start hs => exact ⟨[], .start hs.1⟩
  | step _ hs ih =>
    obtain ⟨h', r'⟩ := ih
    cases hs with
    | program hs => exact ⟨_, r'.step hs⟩
    | land _ _ hs => exact ⟨_, r'.step hs⟩
    | _ => exact ⟨h', r'⟩

theorem Attesting.clock_le (path : (attesting P host attestor).Path s h s') : s.clock ≤ s'.clock := by
  induction path with
  | refl => exact Int64.le_refl _
  | step _ hs ih =>
    cases hs with
    | time hnow => exact Int64.le_trans ih hnow
    | _ => exact ih

/-- What the service had read when it sent a transaction. -/
structure Flight.Sound (attestor : Pubkey) (clock : Int64) (f : Flight) : Prop where
  valid : f.report.Valid
  asOf : f.report.asOf ≤ clock.toInt
  read : ∃ t, ReserveAttestation.account.tryDeserialize f.data = some t ∧ t.attestor = attestor ∧
    t.asOf.toInt ≤ f.report.asOf

theorem Flight.Sound.mono {clock clock' : Int64} {f : Flight} (hf : f.Sound attestor clock) (hle : clock ≤ clock') :
    f.Sound attestor clock' :=
  ⟨hf.valid, hf.asOf.trans (Int64.le_iff_toInt_le.1 hle), hf.read⟩

/-- What the service decides to post, the attestation that it read takes. -/
theorem sound_of_posts {report : ReserveReport} {data : Bytes} {onChain : Option OnChainAttestation} {clock : Int64}
    (hvalid : report.Valid) (hdata : AttestationData data) (hfetch : fetchAttestation host.replaced data = .ok onChain)
    (hposts : (decideReport host.text report onChain attestor clock.toInt).posts = true) :
    Flight.Sound attestor clock ⟨report, data⟩ := by
  cases hdata with
  | vacant =>
    obtain rfl := Exec.ok.inj hfetch
    cases hposts
  | attestation ht _ _ =>
    have hne : data ≠ [] := by
      rintro rfl
      cases ht
    rw [fetchAttestation, if_neg hne, decode_of_tryDeserialize host.replaced ht] at hfetch
    obtain rfl := Exec.ok.inj hfetch
    obtain ⟨hattestor, hnow, hstored, -⟩ := decideReport_posts.1 hposts
    exact ⟨hvalid, hnow, _, ht, hattestor, hstored⟩

structure Attesting.Sound (attestor : Pubkey) (s : Attesting W) : Prop where
  fetched : ∀ {report : ReserveReport} {data : Bytes}, s.tick = .fetched report data →
    report.Valid ∧ AttestationData data
  flights : ∀ f ∈ s.flights, f.Sound attestor s.clock

theorem Attesting.Sound.step {l : TickLabel} (hk : s.program.Kept) (hsound : s.Sound attestor)
    (hs : (attesting P host attestor).step s l s') : s'.Sound attestor := by
  cases hs with
  | program hs => exact ⟨hsound.fetched, hsound.flights⟩
  | time hnow => exact ⟨hsound.fetched, fun f hf => (hsound.flights f hf).mono hnow⟩
  | fetch hidle hreport =>
    refine ⟨?_, hsound.flights⟩
    intro report data htick
    obtain ⟨rfl, rfl⟩ := Tick.fetched.inj htick
    exact ⟨parseReport_ok hreport, hk _⟩
  | skip htick hfetch hskip => exact ⟨nofun, hsound.flights⟩
  | send htick hfetch hposts =>
    refine ⟨nofun, ?_⟩
    intro f hf
    obtain hf | hf := List.mem_append.1 hf
    · exact hsound.flights f hf
    · obtain rfl := List.mem_singleton.1 hf
      obtain ⟨hvalid, hdata⟩ := hsound.fetched htick
      exact sound_of_posts hvalid hdata hfetch hposts
  | land hf hix hs => exact ⟨hsound.fetched, fun f hf => hsound.flights f (List.mem_of_mem_eraseIdx hf)⟩
  | expire i => exact ⟨hsound.fetched, fun f hf => hsound.flights f (List.mem_of_mem_eraseIdx hf)⟩
  | done => exact ⟨nofun, hsound.flights⟩

theorem Attesting.sound_of_run (r : (attesting P host attestor).Run h s) : s.Sound attestor := by
  refine r.invariant (I := fun _ s => s.Sound attestor) ?_ ?_
  · rintro s ⟨-, htick, hflights⟩
    refine ⟨fun h => ?_, fun f hf => ?_⟩
    · cases htick.symm.trans h
    · rw [hflights] at hf
      cases hf
  · intro h s l s' r hsound hs
    obtain ⟨h', r'⟩ := program_run r
    exact hsound.step (Stored.run_loaded r').2 hs

end runs

/-! ### Landing -/

section landing

variable {W : Type} {P : Programs W} {host : Host} {attestor : Pubkey}

/-- How a post ends that lands in `s` and leaves `s'`, from where the run goes on to `s''`. -/
structure Lands (P : Programs W) (host : Host) (attestor : Pubkey) (f : Flight) (succeeded : Bool)
    (s s' s'' : Attesting W) : Prop where
  takes : succeeded = true ↔ Takes P attestor s.program.loaded.ledger f.report
  /-- The attestation is no longer the one that the tick read. -/
  changed : succeeded = false → s.program.data (reservePda P f.report) ≠ f.data
  stored : succeeded = true → ∃ t t', s.program.loaded.ledger.reserves (reservePda P f.report) = some t ∧
    s'.program.loaded.ledger.reserves (reservePda P f.report) = some t' ∧ t.asOf.toInt ≤ t'.asOf.toInt ∧
      ¬Differs f.report t'
  /-- A tick that reads what the post left has nothing to post of this report. -/
  settled : succeeded = true → s''.tick = .fetched f.report (s'.program.data (reservePda P f.report)) →
    toWellFormed f.report.reportUri = f.report.reportUri →
      ∃ onChain, fetchAttestation host.replaced (s'.program.data (reservePda P f.report)) = .ok onChain ∧
        decideReport host.text f.report onChain attestor s''.clock.toInt = .skip .unchanged none

theorem not_differs_posted {report : ReserveReport} (hvalid : report.Valid) {t : ReserveAttestation} {now : Int64}
    (hasOf : (Int64.ofInt report.asOf).toInt = report.asOf) : ¬Differs report (posted t hvalid now) :=
  not_not_intro ⟨hasOf.symm, (UInt64.toNat_ofNat_of_lt' hvalid.reserves).symm, rfl⟩

theorem lands_of_takes {h h' : List TickLabel} {s s' s'' : Attesting W} {f : Flight} {ix : Instruction}
    (hf : f.Sound attestor s.clock) (hix : f.report.instruction attestor (reservePda P f.report) = some ix)
    (hx : exec P s.clock s.program.loaded ix = .ok s'.program.loaded) (r : (attesting P host attestor).Run h s')
    (hclock : s'.clock = s.clock) (path : (attesting P host attestor).Path s' h' s'') :
    Lands P host attestor f true s s' s'' := by
  obtain ⟨-, hasOf⟩ := instruction_eq hf.valid hix
  obtain ⟨t, ht, hattestor, hstored, ht'⟩ := exec_post_stores hf.valid hix hx
  have hsame : ¬Differs f.report (posted t hf.valid s.clock) := not_differs_posted hf.valid hasOf
  refine ⟨iff_of_true rfl ⟨t, ht, hattestor, hstored⟩, nofun, fun _ => ⟨t, _, ht, ht', ?_, hsame⟩, ?_⟩
  · exact hstored.trans hasOf.ge
  · intro _ _ huri
    obtain ⟨_, r'⟩ := Attesting.program_run r
    have hread := (held_of_run r' (reservePda P f.report)).loaded.symm.trans ht'
    have hne : s'.program.data (reservePda P f.report) ≠ [] := fun h => by
      rw [h] at hread
      cases hread
    have hnow : f.report.asOf ≤ s''.clock.toInt :=
      hf.asOf.trans (Int64.le_iff_toInt_le.1 (hclock ▸ Attesting.clock_le path))
    refine ⟨_, (if_neg hne).trans (decode_of_tryDeserialize host.replaced hread), ?_⟩
    exact decideReport_unchanged hsame hattestor hnow huri

/-- **Posts.** Whatever anybody does between a tick's read and the landing of its post, the program takes the post exactly
when the attestation is still the attestor's and has no newer figures. So a post fails only where the attestation was
changed since the tick read it; one that succeeds stores its report and takes no figures back; and until somebody else
changes the attestation again, no tick posts the report another time, unless its URI has a lone surrogate. -/
theorem posts_land {h₁ h₂ : List TickLabel} {i : Nat} {succeeded : Bool} {s : Attesting W}
    (r : (attesting P host attestor).Run (h₂ ++ .land i succeeded :: h₁) s) :
    ∃ s₁ s₂ f, (attesting P host attestor).Run h₁ s₁ ∧ (attesting P host attestor).step s₁ (.land i succeeded) s₂ ∧
      s₁.flights[i]? = some f ∧ Lands P host attestor f succeeded s₁ s₂ s := by
  obtain ⟨s₁, s₂, r₁, hs, path⟩ := r.between
  have r₂ := r₁.step hs
  obtain ⟨_, r'⟩ := Attesting.program_run r₁
  cases hs with
  | @land _ f ix _ st hf hix hs =>
    have hsound := (Attesting.sound_of_run r₁).flights f (List.mem_of_getElem? hf)
    refine ⟨s₁, _, f, r₁, .land hf hix hs, hf, ?_⟩
    rcases storage_tx r' hs with ⟨rfl, hx⟩ | ⟨rfl, -, hx⟩
    · exact lands_of_takes hsound hix hx r₂ rfl path
    · have hheld := held_of_run r' (reservePda P f.report)
      rw [exec_post_iff s₁.clock hsound.valid hheld.here hsound.asOf hix] at hx
      refine ⟨iff_of_false nofun hx, ?_, nofun, nofun⟩
      intro _ hsame
      obtain ⟨t, ht, hattestor, hstored⟩ := hsound.read
      exact hx ⟨t, hheld.loaded.trans (hsame ▸ ht), hattestor, hstored⟩

end landing

/-! ### A sample -/

theorem Attesting.of_program_run {W : Type} {P : Programs W} (host : Host) (attestor : Pubkey)
    (clock : Int64) {h : List Token.Label} {st : Stored reserveAccounts W} (r : (storage reserveAccounts P).Run h st) :
    (attesting P host attestor).Run (h.map .program) ⟨st, clock, .idle, []⟩ := by
  induction r with
  | start hs => exact .start ⟨hs, rfl, rfl⟩
  | step _ hs ih => exact ih.step (.program hs)

def sampleHost : Host where
  address _ := some (sampleKey 2)
  dateParse _ := none
  replaced _ := []
  text _ := ""

/-- The posted report with another URI. -/
def correction : ReserveReport := sampleReport [0x61]

def correctionPda : Pda := reservePda bank correction

theorem correction_instruction : ∃ ix, correction.instruction (sampleKey 4) correctionPda = some ix := by
  refine Option.isSome_iff_exists.1 ?_
  decide +kernel

theorem correction_posts {t : ReserveAttestation} (hattestor : t.attestor = sampleKey 4) (hasOf : t.asOf = 45)
    (huri : t.reportUri = replacementUri) :
    (decideReport sampleHost.text correction (some (.of sampleHost.replaced t)) (sampleKey 4) (60 : Int64).toInt).posts =
      true := by
  refine decideReport_posts.2 ⟨hattestor, by decide, ?_, fun h => ?_⟩
  · show t.asOf.toInt ≤ 45
    rw [hasOf]
    decide
  · have hread : [0x61] = ofUtf8 sampleHost.replaced t.reportUri.bytes := h.2.2
    have hbytes := ((eq_ofUtf8_iff _ _ _).1 hread).1
    rw [huri] at hbytes
    exact absurd hbytes (by decide)

/-- The attestor of mint 2 corrects the URI of its post. -/
theorem posts_land_sample : ∃ h s s₁ s₂ f, (attesting bank sampleHost (sampleKey 4)).Run (.land 0 true :: h) s ∧
    Lands bank sampleHost (sampleKey 4) f true s₁ s₂ s := by
  have hreport := @parse_sampleDoc [0x61] (by decide)
  have hvalid : correction.Valid := parseReport_ok hreport
  obtain ⟨h, r⟩ : (machine bank).Reachable (execAll bank sampleStart postedSample) :=
    execAll_reachable sampleStart_reachable
  obtain ⟨st, r, hloaded⟩ := Stored.of_run reserveAccounts r
  have hheld := held_of_run r correctionPda
  have hstored : (st.loaded.ledger.reserves correctionPda).map (fun t => (t.attestor, t.asOf, t.reportUri)) =
      some (sampleKey 4, 45, replacementUri) := by
    rw [hloaded]
    decide +kernel
  obtain ⟨t, ht, hfields⟩ := Option.map_eq_some_iff.1 hstored
  obtain ⟨hattestor, hasOf, huri⟩ : t.attestor = sampleKey 4 ∧ t.asOf = 45 ∧ t.reportUri = replacementUri := by
    simpa only [Prod.mk.injEq] using hfields
  have hread := hheld.loaded.symm.trans ht
  have hfetch : fetchAttestation sampleHost.replaced (st.data correctionPda) =
      .ok (some (.of sampleHost.replaced t)) := by
    rw [fetchAttestation, if_neg (by intro h; rw [h] at hread; cases hread), decode_of_tryDeserialize _ hread]
  have hposts := correction_posts hattestor hasOf huri
  have hsound := sound_of_posts hvalid hheld.written hfetch hposts
  obtain ⟨ix, hix⟩ := correction_instruction
  obtain ⟨s, hx⟩ := (exec_post_iff 60 hvalid hheld.here hsound.asOf hix).2
    ⟨t, ht, hattestor, (decideReport_posts.1 hposts).2.2.1⟩
  obtain ⟨data, hd, -⟩ := Stored.run_exits r hx
  have hfetched : (attesting bank sampleHost (sampleKey 4)).step ⟨st, 60, .idle, []⟩ (.fetch (sampleDoc [0x61]))
      ⟨st, 60, .fetched correction (st.data correctionPda), []⟩ := .fetch rfl hreport
  have hsent : (attesting bank sampleHost (sampleKey 4)).step ⟨st, 60, .fetched correction (st.data correctionPda), []⟩
      .send ⟨st, 60, .confirming, [⟨correction, st.data correctionPda⟩]⟩ := .send rfl hfetch hposts
  have hlanded : (attesting bank sampleHost (sampleKey 4)).step
      ⟨st, 60, .confirming, [⟨correction, st.data correctionPda⟩]⟩ (.land 0 true) ⟨⟨s, data⟩, 60, .confirming, []⟩ :=
    .land rfl hix (.succeeded hx hd)
  have r' := (((Attesting.of_program_run sampleHost (sampleKey 4) 60 r).step hfetched).step hsent).step hlanded
  obtain ⟨s₁, s₂, f, -, -, -, hlands⟩ := @posts_land _ _ _ _ _ [] _ _ _ r'
  exact ⟨_, _, s₁, s₂, f, r', hlands⟩

end ThawGate.Attestor
