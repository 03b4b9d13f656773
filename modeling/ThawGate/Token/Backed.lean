import ThawGate.Token.Machine

/-!
# Reserve-backed minting

`minted_within_reserves`: when `mint_tokens` succeeds on a mint that Token ACL governs, or that has an
attestation account, the supply it leaves is covered by the last figure that the current attestor
itself posted since it took office, and that figure is not stale.

`tenure` reads who is in office, and what was posted since, off the labels of a run. The ledger only
keeps the last figure; `Ledger.Attests` is the invariant that ties the two: the stored attestor is the
one in office, and the stored figure is its last post, or zero when it has not posted. A mint is of a
positive amount, so a figure of zero covers none. The invariant is kept by the two instructions that
write an attestation: `set_reserve_attestor` zeroes the figure exactly when another key takes office,
and `attest_reserves` takes a post only from the key in office, not dated in the future and not before
the stored one. The window is compared in saturating arithmetic, which is exact here because a stored
date is never negative.
-/

namespace ThawGate.Token

open Exec Function

variable {W : Type} {P : Programs W} {now : Int64} {s s' : State W} {l : Ledger}

/-! ### Who is in office, and what it posted -/

structure Post where
  signer : Pubkey
  reserves : UInt64
  asOf : Int64
  /-- The clock when it was posted. -/
  time : Int64

structure Tenure where
  attestor : Pubkey
  /-- Newest first. -/
  posts : List Post

/-- Another key takes office without posts; the same one stays. -/
def Tenure.appoint (attestor : Pubkey) : Option Tenure → Tenure
  | some t => if t.attestor = attestor then t else ⟨attestor, []⟩
  | none => ⟨attestor, []⟩

/-- What one successful instruction does to the tenure at `mint`. -/
def Tenure.after (mint : Pubkey) (t : Option Tenure) (now : Int64) : Instruction → Option Tenure
  | .setReserveAttestor x attestor _ => if x.mint = mint then some (.appoint attestor t) else t
  | .attestReserves x reserves asOf _ =>
    if x.reserveAttestation.seeds = .reserve mint then
      t.map fun t => { t with posts := ⟨x.attestor, reserves, asOf, now⟩ :: t.posts }
    else t
  | _ => t

/-- The tenure at `mint` after a run. -/
def tenure (mint : Pubkey) : List Label → Option Tenure
  | [] => none
  | .tx ix now true :: h => Tenure.after mint (tenure mint h) now ix
  | _ :: h => tenure mint h

/-- The attestor's own posts, none dated ahead of its clock and no date before an earlier one's. -/
structure Tenure.Sound (t : Tenure) : Prop where
  signed : ∀ p ∈ t.posts, p.signer = t.attestor
  past : ∀ p ∈ t.posts, p.asOf ≤ p.time
  ordered : t.posts.Pairwise fun later earlier => earlier.asOf ≤ later.asOf

/-- The last post covers `supply`, and is at most `maxStaleness` old at `now`. -/
def Tenure.Covers (t : Tenure) (supply : UInt64) (now maxStaleness : Int64) : Prop :=
  ∃ p rest, t.posts = p :: rest ∧ supply ≤ p.reserves ∧ now.toInt - p.asOf.toInt ≤ maxStaleness.toInt

/-! ### The invariant -/

/-- The stored attestation is what the tenure comes to. -/
structure ReserveAttestation.Reflects (att : ReserveAttestation) (t : Tenure) : Prop where
  attestor : att.attestor = t.attestor
  figure : (att.reserves = 0 ∧ t.posts = []) ∨
    ∃ p rest, t.posts = p :: rest ∧ att.reserves = p.reserves ∧ att.asOf = p.asOf
  dated : 0 ≤ att.asOf.toInt
  sound : t.Sound

/-- Attestations are where `find_program_address` puts them, configs and attestations are of real mints,
and each mint's attestation reflects its tenure. -/
structure Ledger.Attests (P : Programs W) (h : List Label) (l : Ledger) : Prop where
  config_mint : ∀ {a c}, l.configs a = some c → c.mint ≠ .default
  reserve_at : ∀ {a att}, l.reserves a = some att →
    a = P.canonical (.reserve att.mint) ∧ att.bump = a.bump ∧ att.mint ≠ .default
  reflects : ∀ {a att}, l.reserves a = some att → ∃ t, tenure att.mint h = some t ∧ att.Reflects t
  vacant : ∀ mint, l.reserves (P.canonical (.reserve mint)) = none → tenure mint h = none

theorem Tenure.Sound.empty (attestor : Pubkey) : (⟨attestor, []⟩ : Tenure).Sound where
  signed _ h := by contradiction
  past _ h := by contradiction
  ordered := .nil

/-- A post by the attestor, not dated ahead and not before the last one. -/
theorem Tenure.Sound.post {t : Tenure} (ht : t.Sound) {p : Post} (hsigner : p.signer = t.attestor)
    (hpast : p.asOf ≤ p.time) (hlast : ∀ q rest, t.posts = q :: rest → q.asOf ≤ p.asOf) :
    ({ t with posts := p :: t.posts } : Tenure).Sound where
  signed := by
    intro q hq
    obtain rfl | hq := List.mem_cons.1 hq
    · exact hsigner
    · exact ht.signed q hq
  past := by
    intro q hq
    obtain rfl | hq := List.mem_cons.1 hq
    · exact hpast
    · exact ht.past q hq
  ordered := by
    refine List.pairwise_cons.2 ⟨?_, ht.ordered⟩
    intro q hq
    -- the last post is dated no earlier than q, and the new one no earlier than the last
    cases hposts : t.posts with
    | nil =>
      rw [hposts] at hq
      contradiction
    | cons r rest =>
      have hr := hlast r rest hposts
      have hordered := ht.ordered
      rw [hposts] at hq hordered
      obtain rfl | hq := List.mem_cons.1 hq
      · exact hr
      · exact Int64.le_trans ((List.pairwise_cons.1 hordered).1 q hq) hr

section setAttestor

variable {att : ReserveAttestation} {mint attestor : Pubkey} {maxStaleness : Int64} {bump : UInt8} {t : Tenure}

theorem ReserveAttestation.setAttestor_mint (att : ReserveAttestation) :
    (att.setAttestor mint attestor maxStaleness bump).mint = mint := by
  simp only [setAttestor]
  split_ifs <;> rfl

theorem ReserveAttestation.setAttestor_bump (att : ReserveAttestation) :
    (att.setAttestor mint attestor maxStaleness bump).bump = bump := by
  simp only [setAttestor]
  split_ifs <;> rfl

/-- The attestor in office keeps its figure. -/
theorem ReserveAttestation.Reflects.setAttestor_same (h : att.Reflects t) (hmint : att.mint ≠ .default)
    (hsame : att.attestor = attestor) : (att.setAttestor mint attestor maxStaleness bump).Reflects t := by
  have hkeep : ¬(att.mint = .default ∨ att.attestor ≠ attestor) := by simp [hmint, hsame]
  simp only [setAttestor, if_neg hkeep]
  exact ⟨hsame ▸ h.attestor, h.figure, h.dated, h.sound⟩

/-- A new one starts with none. -/
theorem ReserveAttestation.reflects_reset (att : ReserveAttestation)
    (h : att.mint = .default ∨ att.attestor ≠ attestor) :
    (att.setAttestor mint attestor maxStaleness bump).Reflects ⟨attestor, []⟩ := by
  simp only [setAttestor, if_pos h]
  exact ⟨rfl, .inl ⟨rfl, rfl⟩, le_of_eq Int64.toInt_zero.symm, .empty attestor⟩

end setAttestor

/-! ### What one instruction preserves -/

/-- A mint that was created is not the default key. -/
theorem createMint_ne_default (laws : P.MintsExactly) {x : Initialize} {args : InitializeArgs}
    {calls : List Call} {w w' : W} (hcalls : createMint P x args = ok calls)
    (h : calls.foldlM P.invoke w = some w') : x.mint ≠ .default := by
  simp only [createMint, bind_eq_ok, pure_eq, Exec.ok.injEq, List.append_assoc] at hcalls
  obtain ⟨hook, -, rfl⟩ := hcalls
  rw [List.singleton_append, List.foldlM_cons] at h
  obtain ⟨_, hcreate, -⟩ := Option.bind_eq_some_iff.1 h
  exact laws.createMintAccount hcreate

/-- An instruction that writes no attestation, or another mint's, leaves a mint's tenure as it is. -/
theorem Tenure.after_of_not_writes {mint : Pubkey} {t : Option Tenure} {ix : Instruction}
    (h : .reserve ∉ ix.writes) : Tenure.after mint t now ix = t := by
  cases ix <;> first | rfl | simp [Instruction.writes] at h

theorem Tenure.after_post {mint : Pubkey} {t : Tenure} {x : AttestReserves} {reserves : UInt64} {asOf : Int64}
    {uri : Borsh.Str} (h : x.reserveAttestation.seeds = .reserve mint) :
    Tenure.after mint (some t) now (.attestReserves x reserves asOf uri) =
      some { t with posts := ⟨x.attestor, reserves, asOf, now⟩ :: t.posts } :=
  if_pos h

namespace Ledger.Attests

variable {h : List Label}

theorem empty : Ledger.empty.Attests P [] where
  config_mint h := by contradiction
  reserve_at h := by contradiction
  reflects h := by contradiction
  vacant _ _ := rfl

/-- Writing the attestation of one mint, when the run's labels make `t` its tenure and leave the other
mints' alone. -/
theorem setReserve {h' : List Label} (hl : l.Attests P h) {mint : Pubkey} {att : ReserveAttestation}
    {t : Tenure} (hmint : att.mint = mint) (hne : mint ≠ .default)
    (hbump : att.bump = P.canonicalBump (.reserve mint)) (htenure : tenure mint h' = some t)
    (hothers : ∀ m, m ≠ mint → tenure m h' = tenure m h) (ht : att.Reflects t) :
    (l.setReserve (P.canonical (.reserve mint)) att).Attests P h' where
  config_mint := hl.config_mint
  reserve_at := by
    intro a r hr
    obtain ⟨ha, rfl⟩ | ⟨-, hr⟩ := update_eq_some.1 hr
    · rw [ha, hmint]
      exact ⟨rfl, hbump, hne⟩
    · exact hl.reserve_at hr
  reflects := by
    intro a r hr
    obtain ⟨-, rfl⟩ | ⟨ha, hr⟩ := update_eq_some.1 hr
    · rw [hmint]
      exact ⟨t, htenure, ht⟩
    · have hm : r.mint ≠ mint := by
        intro hm
        exact ha (by rw [(hl.reserve_at hr).1, hm])
      rw [hothers _ hm]
      exact hl.reflects hr
  vacant := by
    intro m hm
    rw [setReserve_reserves] at hm
    by_cases heq : m = mint
    · subst heq
      rw [update_self] at hm
      contradiction
    · rw [update_of_ne (by rwa [ne_eq, P.canonical_inj, Seeds.reserve.injEq])] at hm
      rw [hothers _ heq]
      exact hl.vacant m hm

theorem setReserveAttestor (hl : s.ledger.Attests P h) {x : SetReserveAttestor} {attestor : Pubkey}
    {maxStaleness : Int64} (hx : setReserveAttestorHandler P now s x attestor maxStaleness = ok s') :
    s'.ledger.Attests P (.tx (.setReserveAttestor x attestor maxStaleness) now true :: h) := by
  obtain ⟨c, r, att, e, hc, hcmint, -, hatt, -, rfl⟩ := setReserveAttestorHandler_ok hx
  have hmint : x.mint ≠ .default := hcmint ▸ hl.config_mint (configAccount_eq_ok.1 hc).1
  obtain ⟨haddr, hatt⟩ := initIfNeeded_eq_ok hatt
  rw [haddr]
  refine hl.setReserve (t := .appoint attestor (tenure x.mint h)) att.setAttestor_mint hmint
    att.setAttestor_bump (if_pos rfl) (fun m hm => if_neg hm.symm) ?_
  -- whether the attestation was there and names this attestor decides both the reset and the tenure
  obtain hatt | ⟨hnone, -, rfl⟩ := hatt
  · obtain ⟨hat, -, hattmint⟩ := hl.reserve_at hatt
    obtain ⟨t, ht, href⟩ := hl.reflects hatt
    have hxmint : att.mint = x.mint := by
      rw [haddr, P.canonical_inj, Seeds.reserve.injEq] at hat
      exact hat.symm
    rw [← hxmint, ht]
    by_cases hsame : att.attestor = attestor
    · rw [Tenure.appoint, if_pos (href.attestor.symm.trans hsame)]
      exact href.setAttestor_same hattmint hsame
    · rw [Tenure.appoint, if_neg (href.attestor ▸ hsame)]
      exact att.reflects_reset (.inr hsame)
  · rw [haddr] at hnone
    rw [hl.vacant _ hnone]
    exact ReserveAttestation.reflects_reset _ (.inl rfl)

theorem attestReserves (hl : s.ledger.Attests P h) {x : AttestReserves} {reserves : UInt64} {asOf : Int64}
    {uri : Borsh.Str} (hx : attestReservesHandler now s x reserves asOf uri = ok s') :
    s'.ledger.Attests P (.tx (.attestReserves x reserves asOf uri) now true :: h) := by
  obtain ⟨att, hatt, haddr, hattestor, hpast, hlater, rfl⟩ := attestReservesHandler_ok hx
  obtain ⟨hat, hbump, hmint⟩ := hl.reserve_at hatt
  obtain ⟨t, ht, href⟩ := hl.reflects hatt
  have hseeds : x.reserveAttestation.seeds = .reserve att.mint := by rw [haddr]
  rw [hat]
  refine hl.setReserve (t := { t with posts := ⟨x.attestor, reserves, asOf, now⟩ :: t.posts }) rfl hmint ?_ ?_ ?_ ?_
  · rw [hbump, hat]
    rfl
  · show Tenure.after _ _ _ _ = _
    rw [ht, Tenure.after_post hseeds]
  · intro m hm
    refine if_neg ?_
    rw [hseeds, Seeds.reserve.injEq]
    exact hm.symm
  · refine ⟨href.attestor, .inr ⟨_, _, rfl, rfl, rfl⟩, ?_, ?_⟩
    · exact Int.le_trans href.dated (Int64.le_iff_toInt_le.1 hlater)
    · refine href.sound.post (hattestor.symm.trans href.attestor) hpast ?_
      intro q rest hq
      obtain ⟨-, hnil⟩ | ⟨p, rest', hp, -, hasOf⟩ := href.figure
      · rw [hnil] at hq
        contradiction
      · obtain ⟨rfl, -⟩ := List.cons.inj (hp.symm.trans hq)
        rwa [← hasOf]

/-- **Step.** -/
theorem exec (laws : P.MintsExactly) (hl : s.ledger.Attests P h) {ix : Instruction}
    (hx : exec P now s ix = ok s') : s'.ledger.Attests P (.tx ix now true :: h) := by
  by_cases hix : .reserve ∈ ix.writes
  · cases ix <;> simp only [Instruction.writes, List.mem_cons, List.not_mem_nil, reduceCtorEq, or_false] at hix
    case setReserveAttestor x attestor maxStaleness => exact hl.setReserveAttestor hx
    case attestReserves x reserves asOf uri => exact hl.attestReserves hx
  · have hreserves := (exec_frame hx).reserves hix
    have htenure (m : Pubkey) : tenure m (.tx ix now true :: h) = tenure m h :=
      Tenure.after_of_not_writes hix
    refine ⟨?_, ?_, ?_, ?_⟩
    · intro a c' hc'
      obtain ⟨c, hc, hm⟩ | ⟨x, args, calls, w, hcalls, hw, rfl⟩ := exec_config hx hc'
      · exact hm ▸ hl.config_mint hc
      · exact createMint_ne_default laws hcalls hw
    · intro a att hatt
      rw [hreserves] at hatt
      exact hl.reserve_at hatt
    · intro a att hatt
      rw [hreserves] at hatt
      rw [htenure]
      exact hl.reflects hatt
    · intro m hm
      rw [hreserves] at hm
      rw [htenure]
      exact hl.vacant m hm

/-- **Run.** -/
theorem of_run (laws : P.MintsExactly) (r : (machine P).Run h s) : s.ledger.Attests P h := by
  refine r.invariant (I := fun h s => s.ledger.Attests P h) ?_ ?_
  · intro s hs
    rw [hs.1]
    exact empty
  · intro h s e s' _ hl hs
    cases hs with
    | succeeded hx => exact hl.exec laws hx
    | failed => exact ⟨hl.config_mint, hl.reserve_at, hl.reflects, hl.vacant⟩
    | outside => exact ⟨hl.config_mint, hl.reserve_at, hl.reflects, hl.vacant⟩

/-- Whatever bump `mint_tokens` checks the attestation's address with, it is the canonical one. -/
theorem reserveBump_eq (hl : l.Attests P h) {a : Pda} {mint : Pubkey}
    (ha : a = ⟨.reserve mint, reserveBump P l a mint⟩) : a = P.canonical (.reserve mint) := by
  cases hatt : l.reserves a with
  | none =>
    rw [reserveBump, hatt] at ha
    exact ha
  | some att =>
    have hat := (hl.reserve_at hatt).1
    have hseeds : Seeds.reserve mint = .reserve att.mint :=
      (congrArg Pda.seeds ha).symm.trans (congrArg Pda.seeds hat)
    rw [hat, hseeds]

end Ledger.Attests

/-! ### The mint itself -/

/-- In saturating arithmetic too, a date that is not negative is at most the window old. -/
theorem age_le {asOf maxStaleness : Int64} (hdated : 0 ≤ asOf.toInt)
    (h : saturatingSub now asOf ≤ maxStaleness) : now.toInt - asOf.toInt ≤ maxStaleness.toInt := by
  rw [Int64.le_iff_toInt_le, toInt_saturatingSub] at h
  have hnow := now.toInt_le
  omega

/-- **Reserve-backed minting.** After any run, a `mint_tokens` that succeeds on a mint that Token ACL
governs, or that has an attestation account, leaves a supply covered by the last post of the tenure of
the attestor the account names. -/
theorem minted_within_reserves (laws : P.MintsExactly) {h : List Label} (r : (machine P).Run h s)
    {x : MintTokens} {amount : UInt64} (hx : mintHandler P now s x amount = ok s')
    (hbacked : (∃ c, s.ledger.configs x.config = some c ∧ c.usesTokenAcl) ∨
      (s.ledger.reserves (P.canonical (.reserve x.mint))).isSome) :
    ∃ att t m', s.ledger.reserves (P.canonical (.reserve x.mint)) = some att ∧
      tenure x.mint h = some t ∧ t.attestor = att.attestor ∧ t.Sound ∧
      P.mint s'.world x.mint = some m' ∧ t.Covers m'.supply now att.maxStaleness := by
  have hl := Ledger.Attests.of_run laws r
  obtain ⟨c, q, m, hm⟩ := mintHandler_ok hx
  have haddr := hl.reserveBump_eq hm.reserveAttestation
  obtain ⟨m', hm', hsupply⟩ := hm.supply laws
  obtain ⟨hnone, -, hhook⟩ | ⟨att, hatt, hcheck⟩ := checkReserveAttestation_eq_ok.1 hm.covered
  · -- no attestation and no Token ACL
    rw [haddr] at hnone
    obtain ⟨c', hc', hacl⟩ | hsome := hbacked
    · obtain rfl := Option.some.inj (hc'.symm.trans (configAccount_eq_ok.1 hm.config).1)
      rw [hhook] at hacl
      contradiction
    · rw [hnone] at hsome
      contradiction
  · obtain ⟨hage, hcovered⟩ := checkReserves_eq_ok.1 hcheck
    obtain ⟨hat, -, -⟩ := hl.reserve_at hatt
    obtain ⟨t, ht, href⟩ := hl.reflects hatt
    have hmint : att.mint = x.mint := by
      rw [haddr, P.canonical_inj, Seeds.reserve.injEq] at hat
      exact hat.symm
    rw [hmint] at ht
    refine ⟨att, t, m', haddr ▸ hatt, ht, href.attestor.symm, href.sound, hm', ?_⟩
    obtain ⟨hzero, -⟩ | ⟨p, rest, hposts, hfigure, hasOf⟩ := href.figure
    · -- a figure of zero covers no positive amount
      have hpositive := UInt64.lt_iff_toNat_lt.1 hm.positive
      rw [hzero] at hcovered
      exact absurd (hcovered.trans_lt hpositive) (by simp)
    · refine ⟨p, rest, hposts, ?_, ?_⟩
      · rw [UInt64.le_iff_toNat_le, ← hfigure]
        omega
      · rw [← hasOf]
        exact age_le href.dated hage

/-- Mint 2 with minter 3 and attestor 4, which posts 1000 at time 40. -/
def attestedSample : List (Instruction × Int64) :=
  let config := bank.canonical (.config (sampleKey 2))
  let authorityRole := bank.canonical (.role (sampleKey 2) (sampleKey 1) .masterAuthority)
  let reserveAttestation := bank.canonical (.reserve (sampleKey 2))
  [(initializeSample, 10), (updateMinterSample 0 .lifetime, 20),
    (.setReserveAttestor
      { authority := sampleKey 1, config, authorityRole, mint := sampleKey 2, reserveAttestation }
      (sampleKey 4) 100, 30),
    (.attestReserves { attestor := sampleKey 4, reserveAttestation } 1000 40 .empty, 40)]

theorem minted_within_reserves_sample :
    ∃ h s s', (machine bank).Run h s ∧ mintHandler bank 50 s mintSample 600 = ok s' ∧
      ∃ att t m', s.ledger.reserves (bank.canonical (.reserve (sampleKey 2))) = some att ∧
        tenure (sampleKey 2) h = some t ∧ t.attestor = att.attestor ∧ t.Sound ∧
        bank.mint s'.world (sampleKey 2) = some m' ∧ t.Covers m'.supply 50 att.maxStaleness := by
  have hrun : (mintHandler bank 50 (execAll bank sampleStart attestedSample) mintSample 600).isOk ∧
      ((execAll bank sampleStart attestedSample).ledger.reserves
        (bank.canonical (.reserve mintSample.mint))).isSome := by decide +kernel
  obtain ⟨s', hs'⟩ := Exec.isOk_iff.1 hrun.1
  obtain ⟨h, r⟩ := (execAll_reachable sampleStart_reachable : (machine bank).Reachable (execAll bank sampleStart attestedSample))
  exact ⟨h, _, s', r, hs', minted_within_reserves bank_mintsExactly r hs' (.inr hrun.2)⟩

end ThawGate.Token
