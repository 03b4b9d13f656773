import ThawGate.Attestor.Report
import ThawGate.Token.ReserveBytes

/-!
# The attestor's decision

`attestor/src/attestor.ts` and `chain.ts`: the service reads the mint's attestation account, decides whether to post the report,
and builds `attest_reserves`. `decide_iff` compares the decision with the program: the service posts exactly when the
program would accept the report and store something else than it has, unless the report is the stored one and its URI has
a lone surrogate. Such a URI is stored as other characters than it is compared as, and is posted again at every tick.
-/

namespace ThawGate.Attestor

open Borsh Utf16 Token

/-! ### Reading the account -/

structure OnChainAttestation where
  mint : Pubkey
  attestor : Pubkey
  reserves : Nat
  asOf : Int
  maxStaleness : Int
  reportUri : JsString
  postedAt : Int
  deriving DecidableEq

/-- `addr.decode(data.subarray(at, at + 32))` -/
def addressAt (data : Bytes) (at_ : Nat) : Exec String Pubkey :=
  if h : at_ + 32 ≤ data.length then .ok ⟨slice data at_ 32, key_length h⟩ else .err "codec: not enough bytes"

/-- `view.getBigUint64(at, true)` -/
def getBigUint64 (data : Bytes) (at_ : Nat) : Exec String Nat :=
  if at_ + 8 ≤ data.length then .ok (leNat (slice data at_ 8)) else .err "Offset is outside the bounds of the DataView"

/-- `view.getBigInt64(at, true)` -/
def getBigInt64 (data : Bytes) (at_ : Nat) : Exec String Int := do
  let n ← getBigUint64 data at_
  pure (UInt64.ofNat n).toInt64.toInt

/-- `null` where the discriminator does not match. -/
def decodeReserveAttestation (replaced : Bytes → JsString) (data : Bytes) : Exec String (Option OnChainAttestation) :=
  if data.length < 8 + 32 + 32 + 24 + 4 ∨ ¬ReserveAttestation.account.discriminator.isPrefixOf data then .ok none
  else do
    let uriLen := leNat (slice data 96 4)
    let mint ← addressAt data 8
    let attestor ← addressAt data 40
    let reserves ← getBigUint64 data 72
    let asOf ← getBigInt64 data 80
    let maxStaleness ← getBigInt64 data 88
    let postedAt ← getBigInt64 data (100 + uriLen)
    pure (some ⟨mint, attestor, reserves, asOf, maxStaleness, ofUtf8 replaced (slice data 100 uriLen), postedAt⟩)

/-- The fields that the program wrote. -/
def OnChainAttestation.of (replaced : Bytes → JsString) (t : ReserveAttestation) : OnChainAttestation where
  mint := t.mint
  attestor := t.attestor
  reserves := t.reserves.toNat
  asOf := t.asOf.toInt
  maxStaleness := t.maxStaleness.toInt
  reportUri := ofUtf8 replaced t.reportUri.bytes
  postedAt := t.postedAt.toInt

section decode

variable {data : Bytes} {at_ : Nat}

theorem addressAt_ok (h : at_ + 32 ≤ data.length) {k : Pubkey} (hk : k.1 = slice data at_ 32) :
    addressAt data at_ = .ok k := by
  rw [addressAt, dif_pos h]
  exact congrArg Exec.ok (Subtype.ext hk.symm)

theorem getBigUint64_ok (h : at_ + 8 ≤ data.length) : getBigUint64 data at_ = .ok (leNat (slice data at_ 8)) := if_pos h

theorem getBigInt64_ok (h : at_ + 8 ≤ data.length) {n : Int64} (hn : n.toUInt64.toNat = leNat (slice data at_ 8)) :
    getBigInt64 data at_ = .ok n.toInt := by
  rw [getBigInt64, getBigUint64_ok h, Exec.bind_ok, Exec.pure_eq, ← hn, UInt64.ofNat_toNat, Int64.toInt64_toUInt64]

/-- **The decoder gives what the program wrote**, whatever follows the attestation. -/
theorem decode_of_tryDeserialize (replaced : Bytes → JsString) {t : ReserveAttestation}
    (ht : ReserveAttestation.account.tryDeserialize data = some t) :
    decodeReserveAttestation replaced data = .ok (some (.of replaced t)) := by
  have hstarts : ReserveAttestation.account.discriminator.isPrefixOf data := by
    obtain ⟨tail, rfl⟩ := ReserveAttestation.account.tryDeserialize_iff.1 ht
    rw [AccountType.bytes, List.append_assoc]
    exact List.isPrefixOf_iff_prefix.2 ⟨_, rfl⟩
  rw [AccountType.tryDeserialize_at] at ht
  simp only [ReserveAttestation.account, ReserveAttestation.codec, Codec.pmap_dec_iff, Codec.prod_dec_iff,
    List.length_cons, List.length_nil, Nat.zero_add, Nat.reduceAdd, Pubkey.codec_at, Codec.str_at, Codec.i64_at,
    Codec.u64_at, Codec.u8_at, and_assoc, exists_and_left, exists_eq_left] at ht
  obtain ⟨-, -, hmint, -, hattestor, hreserves_end, hreserves, hasOf_end, hasOf, hmax_end, hmax, huri_end, huri_len, huri,
    hposted_end, hposted, -⟩ := ht
  have hlong : ¬(data.length < 8 + 32 + 32 + 24 + 4 ∨ ¬ReserveAttestation.account.discriminator.isPrefixOf data) := by
    rw [not_or, not_not]
    exact ⟨by omega, hstarts⟩
  rw [decodeReserveAttestation, if_neg hlong, ← huri_len]
  dsimp only
  rw [addressAt_ok (by omega) hmint, Exec.bind_ok, addressAt_ok (by omega) hattestor, Exec.bind_ok,
    getBigUint64_ok (by omega), Exec.bind_ok, getBigInt64_ok hasOf_end hasOf, Exec.bind_ok, getBigInt64_ok hmax_end hmax,
    Exec.bind_ok, getBigInt64_ok hposted_end hposted, Exec.bind_ok, Exec.pure_eq, ← hreserves, ← huri]
  rfl

end decode

/-! ### Deciding -/

inductive PostReason where
  | firstPost
  | newer
  | correction
  deriving DecidableEq

inductive SkipReason where
  | noAttestation
  | notAttestor
  | olderThanChain
  | unchanged
  | futureAsOf
  deriving DecidableEq

inductive Decision where
  | post (reason : PostReason)
  | skip (reason : SkipReason) (detail : Option String)
  deriving DecidableEq

def Decision.posts : Decision → Bool
  | post _ => true
  | skip _ _ => false

/-- `decide`; `text` writes an address in base58. -/
def decideReport (text : Pubkey → String) (report : ReserveReport) (onChain : Option OnChainAttestation)
    (attestor : Pubkey) (now : Int) : Decision :=
  match onChain with
  | none => .skip .noAttestation (some "MasterAuthority hasn't called set_reserve_attestor for this mint")
  | some onChain =>
    if onChain.attestor ≠ attestor then .skip .notAttestor (some ("the mint's attestor is " ++ text onChain.attestor))
    else if now < report.asOf then
      .skip .futureAsOf (some ("asOf " ++ toString report.asOf ++ " > now " ++ toString now))
    else if report.asOf < onChain.asOf then
      .skip .olderThanChain (some ("asOf " ++ toString report.asOf ++ " < on-chain " ++ toString onChain.asOf))
    else if report.asOf = onChain.asOf then
      if report.reserves = onChain.reserves ∧ report.reportUri = onChain.reportUri then .skip .unchanged none
      else .post .correction
    else .post (if onChain.asOf = 0 then .firstPost else .newer)

theorem decideReport_posts {text : Pubkey → String} {report : ReserveReport} {c : OnChainAttestation} {attestor : Pubkey}
    {now : Int} : (decideReport text report (some c) attestor now).posts = true ↔
      c.attestor = attestor ∧ report.asOf ≤ now ∧ c.asOf ≤ report.asOf ∧
        ¬(report.asOf = c.asOf ∧ report.reserves = c.reserves ∧ report.reportUri = c.reportUri) := by
  rw [decideReport.eq_def]
  dsimp only
  by_cases hattestor : c.attestor = attestor
  swap
  · simp [hattestor, Decision.posts]
  by_cases hfuture : now < report.asOf
  · simp [hattestor, hfuture, Decision.posts]
  by_cases holder : report.asOf < c.asOf
  · simp [hattestor, hfuture, holder, Decision.posts]
  rw [if_neg (not_not_intro hattestor), if_neg hfuture, if_neg holder]
  have hrange : report.asOf ≤ now ∧ c.asOf ≤ report.asOf := by omega
  by_cases hsame : report.asOf = c.asOf
  · rw [if_pos hsame]
    by_cases hunchanged : report.reserves = c.reserves ∧ report.reportUri = c.reportUri
    · simp [hunchanged, hsame, Decision.posts]
    · rw [if_neg hunchanged]
      exact iff_of_true rfl ⟨hattestor, hrange.1, hrange.2, fun h => hunchanged h.2⟩
  · rw [if_neg hsame]
    exact iff_of_true rfl ⟨hattestor, hrange.1, hrange.2, fun h => hsame h.1⟩

/-! ### Posting -/

/-- `attest_reserves`'s arguments, behind its discriminator. -/
def attestReservesData : AccountType (UInt64 × Int64 × Str) where
  discriminator := [68, 20, 40, 240, 165, 2, 146, 10]
  codec := Codec.u64.prod (Codec.i64.prod Codec.str)

/-- The instruction's data; the writers of 64-bit numbers throw where one does not fit. -/
def attestReservesInstruction (report : ReserveReport) : Option Bytes :=
  let uri := utf8 report.reportUri
  if report.reserves < 2 ^ 64 ∧ -2 ^ 63 ≤ report.asOf ∧ report.asOf < 2 ^ 63 ∧ uri.length < 2 ^ 32 then
    some (attestReservesData.discriminator ++ (leBytes 8 report.reserves ++
      (leBytes 8 (Int64.ofInt report.asOf).toUInt64.toNat ++ (leBytes 4 uri.length ++ uri))))
  else none

/-- The URI as the program reads it. -/
def ReserveReport.Valid.uri {report : ReserveReport} (h : report.Valid) : Str where
  bytes := utf8 report.reportUri
  utf8 := validateUTF8_encode _
  length_lt := h.reportUri.trans_lt (by decide)

theorem attestReservesInstruction_read {report : ReserveReport} (h : report.Valid) {data : Bytes}
    (hdata : attestReservesInstruction report = some data) :
    attestReservesData.tryDeserialize data =
      some (UInt64.ofNat report.reserves, Int64.ofInt report.asOf, h.uri) ∧
      -2 ^ 63 ≤ report.asOf ∧ report.asOf < 2 ^ 63 := by
  rw [attestReservesInstruction, Option.ite_none_right_eq_some] at hdata
  obtain ⟨⟨hreserves, hlow, hhigh, -⟩, hdata⟩ := hdata
  refine ⟨?_, hlow, hhigh⟩
  have hnat : (UInt64.ofNat report.reserves).toNat = report.reserves := UInt64.toNat_ofNat_of_lt' hreserves
  have hbytes : data =
      attestReservesData.bytes (UInt64.ofNat report.reserves, Int64.ofInt report.asOf, h.uri) ++ [] := by
    rw [List.append_nil, ← Option.some.inj hdata, AccountType.bytes]
    show _ = _ ++ (leBytes 8 (UInt64.ofNat report.reserves).toNat ++ _)
    rw [hnat]
    rfl
  rw [hbytes, AccountType.tryDeserialize_bytes]

section program

variable {W : Type}

/-- The account `a` holds `data` in the state: the program loads what is decoded from it, and an attestation there is
at its own address. -/
structure Held (s : State W) (a : Pda) (data : Bytes) : Prop where
  written : AttestationData data
  loaded : s.ledger.reserves a = ReserveAttestation.account.tryDeserialize data
  here : ∀ t, s.ledger.reserves a = some t → a = ⟨.reserve t.mint, t.bump⟩

/-- **Run.** Whatever the program wrote is held so. -/
theorem held_of_run {P : Programs W} {h : List Label} {st : Stored reserveAccounts W}
    (r : (storage reserveAccounts P).Run h st) (a : Pda) : Held st.loaded a (st.data a) := by
  obtain ⟨r', hk⟩ := Stored.run_loaded r
  refine ⟨hk a, rfl, fun t ht => ?_⟩
  obtain ⟨hat, hbump⟩ := Ledger.ReservesAt.of_run r' a t ht
  rw [hbump]
  conv_rhs => rw [hat]
  exact hat

/-- `attest_reserves`, signed by the attestor, accepts the report and leaves other figures or another URI. -/
def Changes (now : Int64) (s : State W) (a : Pda) (attestor : Pubkey) (report : ReserveReport) : Prop :=
  ∃ data args s' t t', attestReservesInstruction report = some data ∧
    attestReservesData.tryDeserialize data = some args ∧
    attestReservesHandler now s ⟨attestor, a⟩ args.1 args.2.1 args.2.2 = .ok s' ∧
    s.ledger.reserves a = some t ∧ s'.ledger.reserves a = some t' ∧
    (t'.reserves, t'.asOf, t'.reportUri.bytes) ≠ (t.reserves, t.asOf, t.reportUri.bytes)

variable {now : Int64} {s : State W} {a : Pda} {attestor : Pubkey} {report : ReserveReport}

/-- The report is not what the attestation holds. -/
def Differs (report : ReserveReport) (t : ReserveAttestation) : Prop :=
  ¬(report.asOf = t.asOf.toInt ∧ report.reserves = t.reserves.toNat ∧ utf8 report.reportUri = t.reportUri.bytes)

theorem differs_iff (hvalid : report.Valid) (hlow : -2 ^ 63 ≤ report.asOf) (hhigh : report.asOf < 2 ^ 63)
    {t : ReserveAttestation} :
    (UInt64.ofNat report.reserves, Int64.ofInt report.asOf, hvalid.uri.bytes) ≠ (t.reserves, t.asOf, t.reportUri.bytes) ↔
      Differs report t := by
  have hreserves : UInt64.ofNat report.reserves = t.reserves ↔ report.reserves = t.reserves.toNat := by
    rw [← UInt64.toNat_inj, UInt64.toNat_ofNat_of_lt' hvalid.reserves]
  have hasOf : Int64.ofInt report.asOf = t.asOf ↔ report.asOf = t.asOf.toInt := by
    rw [← Int64.toInt_inj, Int64.toInt_ofInt_of_le hlow hhigh]
  rw [Differs, Ne, Prod.mk.injEq, Prod.mk.injEq, hreserves, hasOf, not_iff_not]
  exact ⟨fun h => ⟨h.2.1, h.1, h.2.2⟩, fun h => ⟨h.2.1, h.1, h.2.2⟩⟩

/-- The attestation once the report is posted. -/
def posted (t : ReserveAttestation) (hvalid : report.Valid) (now : Int64) : ReserveAttestation :=
  { t with
    reserves := UInt64.ofNat report.reserves
    asOf := Int64.ofInt report.asOf
    reportUri := hvalid.uri
    postedAt := now }

/-- What the program asks of the report, and what it then changes. -/
theorem changes_iff (hvalid : report.Valid) (here : ∀ t, s.ledger.reserves a = some t → a = ⟨.reserve t.mint, t.bump⟩) :
    Changes now s a attestor report ↔ ∃ t, s.ledger.reserves a = some t ∧ t.attestor = attestor ∧
      report.asOf ≤ now.toInt ∧ t.asOf.toInt ≤ report.asOf ∧ Differs report t := by
  constructor
  · rintro ⟨data, args, s', t, t', hdata, hargs, hx, ht, ht', hne⟩
    obtain ⟨hread, hlow, hhigh⟩ := attestReservesInstruction_read hvalid hdata
    obtain rfl := Option.some.inj (hread.symm.trans hargs)
    obtain ⟨u, hu, -, hattestor, hnow, hstored, rfl⟩ := attestReservesHandler_ok hx
    obtain rfl := Option.some.inj (ht.symm.trans hu)
    have hasOf : (Int64.ofInt report.asOf).toInt = report.asOf := Int64.toInt_ofInt_of_le hlow hhigh
    rw [Int64.le_iff_toInt_le, hasOf] at hnow hstored
    refine ⟨t, ht, hattestor, hnow, hstored, (differs_iff hvalid hlow hhigh).1 ?_⟩
    have hset : (s.ledger.setReserve a (posted t hvalid now)).reserves a = some t' := ht'
    rw [Ledger.setReserve_reserves, Function.update_self] at hset
    obtain rfl := Option.some.inj hset
    exact hne
  · rintro ⟨t, ht, hattestor, hnow, hstored, hdiffers⟩
    have hlow : -2 ^ 63 ≤ report.asOf := t.asOf.le_toInt.trans hstored
    have hhigh : report.asOf < 2 ^ 63 := hnow.trans_lt now.toInt_lt
    have hasOf : (Int64.ofInt report.asOf).toInt = report.asOf := Int64.toInt_ofInt_of_le hlow hhigh
    have hlen : (utf8 report.reportUri).length ≤ maxUriLen := hvalid.reportUri
    have hdata : ∃ data, attestReservesInstruction report = some data :=
      ⟨_, if_pos ⟨hvalid.reserves, hlow, hhigh, hlen.trans_lt (by decide)⟩⟩
    obtain ⟨data, hdata⟩ := hdata
    have hpost : validPost (Int64.ofInt report.asOf) t.asOf now hvalid.uri.bytes.length = true := by
      simp only [validPost, Bool.and_eq_true, decide_eq_true_eq, ge_iff_le, Int64.le_iff_toInt_le, hasOf]
      exact ⟨⟨hnow, hstored⟩, hlen⟩
    refine ⟨data, _, s.commit (s.ledger.setReserve a (posted t hvalid now)) (some (.reservesAttested t.mint t.attestor
      (UInt64.ofNat report.reserves) (Int64.ofInt report.asOf) hvalid.uri now)), t, posted t hvalid now, hdata,
      (attestReservesInstruction_read hvalid hdata).1, ?_, ht, ?_, (differs_iff hvalid hlow hhigh).2 hdiffers⟩
    · rw [attestReservesHandler]
      simp only [ht, account, Exec.orErr_some, Exec.bind_ok, checkSeeds, Exec.require_pos (here t ht),
        Exec.require_pos hattestor, Exec.require_pos hpost, Exec.pure_eq]
      rfl
    · show (s.ledger.setReserve a _).reserves a = _
      rw [Ledger.setReserve_reserves, Function.update_self]

/-! ### The service and the program -/

/-- What `tick` reads: no attestation where the address has no account. -/
def fetchAttestation (replaced : Bytes → JsString) (data : Bytes) : Exec String (Option OnChainAttestation) :=
  if data = [] then .ok none else decodeReserveAttestation replaced data

/-- The decoder gives what the program wrote, and the service posts exactly when the program would accept the report and
store something else. -/
structure Agrees (replaced : Bytes → JsString) (text : Pubkey → String) (now : Int64) (s : State W) (a : Pda)
    (data : Bytes) (attestor : Pubkey) (report : ReserveReport) : Prop where
  decoded : ∀ t, ReserveAttestation.account.tryDeserialize data = some t →
    decodeReserveAttestation replaced data = .ok (some (.of replaced t))
  decision : ∃ onChain, fetchAttestation replaced data = .ok onChain ∧
    ((decideReport text report onChain attestor now.toInt).posts = true ↔ Changes now s a attestor report)

/-- The report is stored already, and its URI has a lone surrogate. -/
def Reposts (now : Int64) (s : State W) (a : Pda) (attestor : Pubkey) (report : ReserveReport) : Prop :=
  toWellFormed report.reportUri ≠ report.reportUri ∧ ∃ t, s.ledger.reserves a = some t ∧ t.attestor = attestor ∧
    report.asOf ≤ now.toInt ∧ ¬Differs report t

theorem agrees_iff_of_valid {replaced : Bytes → JsString} {text : Pubkey → String} {data : Bytes} (hheld : Held s a data)
    (hvalid : report.Valid) :
    Agrees replaced text now s a data attestor report ↔ ¬Reposts now s a attestor report := by
  have hdecoded (t : ReserveAttestation) (ht : ReserveAttestation.account.tryDeserialize data = some t) :=
    decode_of_tryDeserialize replaced ht
  cases ht : s.ledger.reserves a with
  | none =>
    -- nothing is there, for the service and for the program
    have hdata : data = [] := hheld.written.eq_nil (hheld.loaded.symm.trans ht)
    refine iff_of_true ⟨hdecoded, none, if_pos hdata, ?_⟩ ?_
    · rw [changes_iff hvalid hheld.here, ht]
      simp [decideReport, Decision.posts]
    · rintro ⟨-, t, ht', -⟩
      cases ht.symm.trans ht'
  | some t =>
    have hread := hheld.loaded.symm.trans ht
    have hfetch : fetchAttestation replaced data = .ok (some (.of replaced t)) := by
      rw [fetchAttestation, if_neg (by rintro rfl; cases hread), hdecoded t hread]
    have hagrees : Agrees replaced text now s a data attestor report ↔
        ((decideReport text report (some (.of replaced t)) attestor now.toInt).posts = true ↔
          Changes now s a attestor report) := by
      refine ⟨?_, fun h => ⟨hdecoded, _, hfetch, h⟩⟩
      rintro ⟨-, onChain, honChain, h⟩
      obtain rfl := Exec.ok.inj (hfetch.symm.trans honChain)
      exact h
    have huri : report.reportUri = ofUtf8 replaced t.reportUri.bytes ↔
        utf8 report.reportUri = t.reportUri.bytes ∧ toWellFormed report.reportUri = report.reportUri := eq_ofUtf8_iff ..
    rw [hagrees, changes_iff hvalid hheld.here, decideReport_posts, Reposts, ht]
    simp only [OnChainAttestation.of, Option.some.injEq, exists_eq_left', huri, Differs]
    by_cases hwell : toWellFormed report.reportUri = report.reportUri
    · simp only [hwell, and_true, ne_eq, not_true_eq_false, false_and, not_false_eq_true]
    by_cases hstored : report.asOf = t.asOf.toInt ∧ report.reserves = t.reserves.toNat ∧
        utf8 report.reportUri = t.reportUri.bytes
    · -- it is stored already
      simp [hwell, hstored]
    · simp [hwell, hstored]

/-- **The service posts exactly when the program would store something else**, unless the report is stored already and
its URI has a lone surrogate: that one is posted again. -/
theorem agrees_iff (replaced : Bytes → JsString) (text : Pubkey → String) (address : JsString → Option Pubkey)
    (dateParse : JsString → Option Int) (doc : Json) (report : ReserveReport) (now : Int64) (s : State W) (a : Pda)
    (data : Bytes) (attestor : Pubkey) (hreport : parseReport address dateParse doc = .ok report)
    (hheld : Held s a data) :
    Agrees replaced text now s a data attestor report ↔ ¬Reposts now s a attestor report :=
  agrees_iff_of_valid hheld (parseReport_ok hreport)

end program

/-! ### Samples -/

/-- The replacement character in UTF-8. -/
def replacementUri : Str := ⟨[0xEF, 0xBF, 0xBD], by decide, by decide⟩

/-- The attestor of mint 2 has posted reserves of 1000, with a URI of one lone surrogate. -/
def postedSample : List (Instruction × Int64) :=
  attestedSample ++ [(.attestReserves { attestor := sampleKey 4, reserveAttestation := bank.canonical (.reserve (sampleKey 2)) }
    1000 45 replacementUri, 45)]

/-- The report that was posted. -/
def sampleDoc (uri : JsString) : Json :=
  .object fun key =>
    if key = "mint" then .string []
    else if key = "reserves" then .string [0x31, 0x30, 0x30, 0x30]
    else if key = "asOf" then .number (some 45)
    else if key = "reportUri" then .string uri
    else .undefined

def sampleReport (uri : JsString) : ReserveReport := ⟨sampleKey 2, 1000, 45, uri⟩

theorem parse_sampleDoc {uri : JsString} (huri : (utf8 uri).length ≤ maxUriBytes) :
    parseReport (fun _ => some (sampleKey 2)) (fun _ => none) (sampleDoc uri) = .ok (sampleReport uri) := by
  have huri' : parseUri (.string uri) = .ok uri := if_neg (by omega)
  show (parseUri (.string uri)).bind _ = _
  rw [huri']
  rfl

/-- The account of mint 2 after the post. -/
theorem held_sample : ∃ (st : Stored reserveAccounts Bank) (t : ReserveAttestation),
    Held st.loaded (bank.canonical (.reserve (sampleKey 2))) (st.data (bank.canonical (.reserve (sampleKey 2)))) ∧
      st.loaded.ledger.reserves (bank.canonical (.reserve (sampleKey 2))) = some t ∧ t.attestor = sampleKey 4 ∧
      t.asOf = 45 ∧ t.reserves = 1000 ∧ t.reportUri = replacementUri := by
  obtain ⟨h, r⟩ : (machine bank).Reachable (execAll bank sampleStart postedSample) :=
    execAll_reachable sampleStart_reachable
  obtain ⟨st, r, hloaded⟩ := Stored.of_run reserveAccounts r
  have hstored : ((execAll bank sampleStart postedSample).ledger.reserves (bank.canonical (.reserve (sampleKey 2)))).map
      (fun t => (t.attestor, t.asOf, t.reserves, t.reportUri)) = some (sampleKey 4, 45, 1000, replacementUri) := by
    decide +kernel
  rw [← hloaded] at hstored
  obtain ⟨t, ht, hfields⟩ := Option.map_eq_some_iff.1 hstored
  simp only [Prod.mk.injEq] at hfields
  exact ⟨st, t, held_of_run r _, ht, hfields⟩

theorem agrees_sample : ∃ (s : State Bank) (a : Pda) (data : Bytes), Held s a data ∧
    Agrees (fun _ => []) (fun _ => "") 60 s a data (sampleKey 4) (sampleReport [0x61]) := by
  obtain ⟨st, t, hheld, -⟩ := held_sample
  have hreport := @parse_sampleDoc [0x61] (by decide)
  exact ⟨_, _, _, hheld, (agrees_iff (fun _ => []) (fun _ => "") _ _ _ _ 60 _ _ _ (sampleKey 4) hreport hheld).2
    fun h => h.1 (by decide)⟩

/-- The stored report is posted again, because its URI is compared with the replacement character that is stored for
its lone surrogate. -/
theorem stored_report_posted_again : ∃ (doc : Json) (report : ReserveReport) (s : State Bank) (a : Pda) (data : Bytes)
    (onChain : Option OnChainAttestation),
    parseReport (fun _ => some (sampleKey 2)) (fun _ => none) doc = .ok report ∧ Held s a data ∧
      fetchAttestation (fun _ => []) data = .ok onChain ∧
      (decideReport (fun _ => "") report onChain (sampleKey 4) 60).posts = true ∧
      ¬Changes 60 s a (sampleKey 4) report ∧
      ¬Agrees (fun _ => []) (fun _ => "") 60 s a data (sampleKey 4) report := by
  obtain ⟨st, t, hheld, ht, hattestor, hasOf, hreserves, huri⟩ := held_sample
  have hreport := @parse_sampleDoc [0xD800] (by decide)
  have hvalid := parseReport_ok hreport
  have hsame : ¬Differs (sampleReport [0xD800]) t := by
    rw [Differs, not_not, hasOf, hreserves, huri]
    decide
  have hreposts : Reposts 60 st.loaded (bank.canonical (.reserve (sampleKey 2))) (sampleKey 4) (sampleReport [0xD800]) :=
    ⟨by decide, t, ht, hattestor, by decide, hsame⟩
  have hread := hheld.loaded.symm.trans ht
  have hfetch : fetchAttestation (fun _ => []) (st.data (bank.canonical (.reserve (sampleKey 2)))) =
      .ok (some (.of (fun _ => []) t)) := by
    rw [fetchAttestation, if_neg (by intro h; rw [h] at hread; cases hread), decode_of_tryDeserialize _ hread]
  refine ⟨_, _, _, _, _, _, hreport, hheld, hfetch, ?_, ?_, fun h => (agrees_iff_of_valid hheld hvalid).1 h hreposts⟩
  · refine decideReport_posts.2 ⟨hattestor, by decide, ?_, fun h => ?_⟩
    · show t.asOf.toInt ≤ 45
      rw [hasOf]
      decide
    · have hread : [0xD800] = ofUtf8 (fun _ => []) t.reportUri.bytes := h.2.2
      exact absurd ((eq_ofUtf8_iff _ _ _).1 hread).2 (by decide)
  · rw [changes_iff hvalid hheld.here]
    rintro ⟨t', ht', -, -, -, hdiffers⟩
    obtain rfl := Option.some.inj (ht.symm.trans ht')
    exact hsame hdiffers

end ThawGate.Attestor
