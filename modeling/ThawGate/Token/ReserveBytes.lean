import ThawGate.Token.Backed
import ThawGate.Token.Storage

/-!
# Where the reserve attestation is

`mint_tokens` checks the address of the reserve attestation it is passed with `reserve_bump`: the bump it
finds in the account's bytes if the program owns it and they look like an attestation, otherwise the
canonical one. `reserveAccounts` keeps sss-token's attestations as bytes, written over whatever a longer URI
left, and `checkReserveAddress` is the check on any account a caller can pass (`Presents`). It
accepts the canonical address and no other.
-/

namespace ThawGate.Token

open Borsh Exec Function

variable {W ε : Type} {P : Programs W} {now : Int64} {h : List Label} {s s' : State W} {l : Ledger}

/-! ### An attestation's bytes -/

namespace ReserveAttestation

def codec : Codec ReserveAttestation :=
  (Pubkey.codec.prod <| Pubkey.codec.prod <| Codec.u64.prod <| Codec.i64.prod <| Codec.i64.prod <| Codec.str.prod <|
    Codec.i64.prod <| Codec.u8.prod (Codec.chunk 64)).pmap
    (fun (m, a, r, o, x, u, p, b, z) => some ⟨m, a, r, o, x, u, p, b, z⟩)
    (fun t => (t.mint, t.attestor, t.reserves, t.asOf, t.maxStaleness, t.reportUri, t.postedAt, t.bump, t.reserved))
    (by rintro ⟨m, a, r, o, x, u, p, b, z⟩ ⟨⟩; simp)

def account : AccountType ReserveAttestation where
  discriminator := [105, 212, 95, 216, 140, 42, 205, 75]
  codec := codec

end ReserveAttestation

/-- Discriminator, mint, attestor, reserves, `as_of`, `max_staleness`, URI, `posted_at`, bump, reserved. -/
def reserveAttestationSize : Nat := 8 + 32 + 32 + 8 + 8 + 8 + (4 + maxUriLen) + 8 + 1 + 64

theorem reserveAttestation_length (t : ReserveAttestation) :
    (ReserveAttestation.account.bytes t).length = 173 + t.reportUri.bytes.length := by
  have hmint : t.mint.1.length = 32 := t.mint.2
  have hattestor : t.attestor.1.length = 32 := t.attestor.2
  have hreserved : t.reserved.1.length = 64 := t.reserved.2
  simp only [AccountType.bytes, ReserveAttestation.account, ReserveAttestation.codec, Pubkey.codec, Codec.chunk,
    Codec.str, Codec.vec, Codec.i64, Codec.u64, Codec.le, Codec.u8, Codec.pmap, Codec.prod, List.length_append,
    List.length_cons, List.length_nil, leBytes_length, hmint, hattestor, hreserved]
  omega

/-! ### The bump in the bytes -/

/-- The offset of `report_uri`'s length prefix. -/
def uriLenOffset : Nat := 8 + 32 + 32 + 8 + 8 + 8

/-- `data.get(at..at + n)`. -/
def getRange (data : Bytes) (at_ n : Nat) : Option Bytes :=
  if at_ + n ≤ data.length then some (slice data at_ n) else none

/-- An addition of 64-bit `usize`s, which panics on overflow. -/
def usizeAdd (a b : Nat) : Exec ε Nat := if a + b < 2 ^ 64 then ok (a + b) else panic

/-- `stored_bump` -/
def storedBump (data : Bytes) : Exec ε (Option UInt8) :=
  if ¬ReserveAttestation.account.discriminator.isPrefixOf data then ok none
  else
    match getRange data uriLenOffset 4 with
    | none => ok none
    | some len =>
      if maxUriLen < leNat len then ok none
      else do
        let bumpAt ← usizeAdd (← usizeAdd (uriLenOffset + 4) (leNat len)) 8
        pure data[bumpAt]?

theorem usizeAdd_eq {a b : Nat} (h : a + b < 2 ^ 64) : (usizeAdd a b : Exec ε Nat) = ok (a + b) := if_pos h

/-- The sums of the walk, for a length that passed the check. -/
theorem bumpAt_eq {n : Nat} (h : ¬maxUriLen < n) {α : Type} (f : Nat → Exec ε α) :
    (do let bumpAt ← usizeAdd (← usizeAdd (uriLenOffset + 4) n) 8
        f bumpAt) = f (100 + n + 8) := by
  have hmax : maxUriLen = 200 := rfl
  have hoff : uriLenOffset + 4 = 100 := rfl
  rw [hoff, usizeAdd_eq (by omega), bind_ok, usizeAdd_eq (by omega), bind_ok]

/-- The walk overflows nowhere, and asks for every byte before it takes it. -/
theorem storedBump_isOk (data : Bytes) : ∃ bump, (storedBump data : Exec ε _) = ok bump := by
  by_cases hstarts : ReserveAttestation.account.discriminator.isPrefixOf data
  swap
  · exact ⟨none, if_pos hstarts⟩
  rw [storedBump, if_neg (not_not.2 hstarts)]
  cases getRange data uriLenOffset 4 with
  | none => exact ⟨none, rfl⟩
  | some len =>
    by_cases hlong : maxUriLen < leNat len
    · exact ⟨none, if_pos hlong⟩
    · exact ⟨_, (if_neg hlong).trans (bumpAt_eq hlong _)⟩

/-- In an attestation the walk ends at its bump, whatever follows. -/
theorem storedBump_of_decoded {data : Bytes} {t : ReserveAttestation}
    (ht : ReserveAttestation.account.tryDeserialize data = some t) (huri : t.reportUri.bytes.length ≤ maxUriLen) :
    (storedBump data : Exec ε _) = ok (some t.bump) := by
  have hstarts : ReserveAttestation.account.discriminator.isPrefixOf data := by
    obtain ⟨tail, rfl⟩ := ReserveAttestation.account.tryDeserialize_iff.1 ht
    rw [AccountType.bytes, List.append_assoc]
    exact List.isPrefixOf_iff_prefix.2 ⟨_, rfl⟩
  rw [AccountType.tryDeserialize_at] at ht
  simp only [ReserveAttestation.account, ReserveAttestation.codec, Codec.pmap_dec_iff, Codec.prod_dec_iff,
    List.length_cons, List.length_nil, Nat.zero_add, Nat.reduceAdd, Pubkey.codec_at, Codec.str_at, Codec.i64_at,
    Codec.u64_at, Codec.u8_at, and_assoc, exists_and_left, exists_eq_left] at ht
  obtain ⟨-, -, -, -, -, -, -, -, -, -, -, huri_end, huri_len, -, -, -, hbump, -⟩ := ht
  have hlen : getRange data uriLenOffset 4 = some (slice data 96 4) := if_pos (by
    show 96 + 4 ≤ data.length
    omega)
  have hshort : ¬maxUriLen < leNat (slice data 96 4) := by
    rw [← huri_len]
    exact not_lt.2 huri
  rw [storedBump, if_neg (not_not.2 hstarts), hlen]
  refine (if_neg hshort).trans ((bumpAt_eq hshort _).trans ?_)
  rw [← huri_len, hbump, pure_eq]

/-! ### The attestations' accounts -/

/-- What an attestation account's data can be. Behind the attestation there may be anything. -/
inductive AttestationData : Bytes → Prop
  | vacant : AttestationData []
  | attestation {data : Bytes} {t : ReserveAttestation} (ht : ReserveAttestation.account.tryDeserialize data = some t)
    (huri : t.reportUri.bytes.length ≤ maxUriLen) (hlen : data.length = reserveAttestationSize) : AttestationData data

def reserveLayout : Layout where
  load l data := { l with reserves := fun a => ReserveAttestation.account.tryDeserialize (data a) }
  exit ix l data :=
    match ix with
    | .setReserveAttestor x _ _ | .attestReserves x _ _ _ =>
      writeBack ReserveAttestation.account reserveAttestationSize l.reserves x.reserveAttestation data
    | _ => some data
  Held := AttestationData

namespace AttestationData

variable {data : Bytes}

theorem length (hd : AttestationData data) : data = [] ∨ data.length = reserveAttestationSize := by
  cases hd with
  | vacant => exact .inl rfl
  | attestation ht huri hlen => exact .inr hlen

/-- A decoded attestation has a URI that was once accepted. -/
theorem uri_le (hd : AttestationData data) {t : ReserveAttestation}
    (ht : ReserveAttestation.account.tryDeserialize data = some t) : t.reportUri.bytes.length ≤ maxUriLen := by
  cases hd with
  | vacant => contradiction
  | attestation ht' huri hlen =>
    rw [ht] at ht'
    obtain rfl := Option.some.inj ht'
    exact huri

theorem eq_nil (hd : AttestationData data) (ht : ReserveAttestation.account.tryDeserialize data = none) :
    data = [] := by
  cases hd with
  | vacant => rfl
  | attestation ht' huri hlen =>
    rw [ht] at ht'
    contradiction

end AttestationData

/-! ### One instruction -/

theorem setAttestor_uri_le {t : ReserveAttestation} {mint attestor : Pubkey} {maxStaleness : Int64} {bump : UInt8}
    (ht : t.reportUri.bytes.length ≤ maxUriLen) :
    (t.setAttestor mint attestor maxStaleness bump).reportUri.bytes.length ≤ maxUriLen := by
  unfold ReserveAttestation.setAttestor
  dsimp only
  split_ifs
  · exact Nat.zero_le _
  · exact ht

theorem attestReservesHandler_uri_le {x : AttestReserves} {reserves : UInt64} {asOf : Int64} {reportUri : Str}
    (hx : attestReservesHandler now s x reserves asOf reportUri = ok s') : reportUri.bytes.length ≤ maxUriLen := by
  simp only [attestReservesHandler, checkSeeds, bind_eq_ok, account_eq_ok, require_eq_ok, exists_const, pure_eq,
    Exec.ok.injEq] at hx
  obtain ⟨t, -, -, -, hpost, -⟩ := hx
  simp only [validPost, Bool.and_eq_true, decide_eq_true_eq] at hpost
  exact hpost.2

section exits

variable {ix : Instruction} {l' : Ledger} {data : Pda → Bytes}

theorem reserveLayout_load (hr : ∀ a, ReserveAttestation.account.tryDeserialize (data a) = l.reserves a) :
    reserveLayout.load l data = l := by
  have hreserves := funext hr
  unfold reserveLayout
  dsimp only
  rw [hreserves]

theorem exits_attestation (hk : ∀ a, AttestationData (data a)) {a : Pda} {t : ReserveAttestation}
    (hix : reserveLayout.exit ix l' data =
      writeBack ReserveAttestation.account reserveAttestationSize l'.reserves a data)
    (huri : t.reportUri.bytes.length ≤ maxUriLen) (hs : l' = (reserveLayout.load l data).setReserve a t) :
    reserveLayout.Exits ix l' data := by
  have hfits : (ReserveAttestation.account.bytes t).length ≤ reserveAttestationSize := by
    rw [reserveAttestation_length]
    show 173 + _ ≤ 373
    have : maxUriLen = 200 := rfl
    omega
  rw [hs] at hix ⊢
  refine .of_write hk hix (hk a).length hfits fun bytes hread hlen => ?_
  refine ⟨.attestation hread huri hlen, reserveLayout_load ?_⟩
  intro b
  rw [apply_update fun _ => ReserveAttestation.account.tryDeserialize, hread]
  rfl

theorem reserve_exits (hk : ∀ a, AttestationData (data a))
    (hx : exec P now { s with ledger := reserveLayout.load s.ledger data } ix = ok s') :
    reserveLayout.Exits ix s'.ledger data := by
  have frame := exec_frame hx
  cases ix with
  | setReserveAttestor x attestor maxStaleness =>
    obtain ⟨c, r, t, reset, -, -, -, ht, -, rfl⟩ := setReserveAttestorHandler_ok hx
    refine exits_attestation hk rfl (setAttestor_uri_le ?_) rfl
    obtain hfound | ⟨-, -, rfl⟩ := (initIfNeeded_eq_ok ht).2
    · exact (hk _).uri_le hfound
    · exact Nat.zero_le _
  | attestReserves x reserves asOf reportUri =>
    have huri := attestReservesHandler_uri_le hx
    obtain ⟨t, -, -, -, -, -, rfl⟩ := attestReservesHandler_ok hx
    exact exits_attestation (t := { t with reserves, asOf, reportUri, postedAt := now }) hk rfl huri rfl
  | _ =>
    refine ⟨data, rfl, reserveLayout_load ?_, hk⟩
    intro a
    rw [frame.reserves (by simp [Instruction.writes])]
    rfl

end exits

/-- The reserve attestations, kept as bytes. -/
def reserveAccounts : Storage where
  toLayout := reserveLayout
  held_nil := .vacant
  load_empty := rfl
  exits hk _ := reserve_exits hk

/-- Attestations are where `find_program_address` puts them, and know it. -/
def Ledger.ReservesAt (P : Programs W) (l : Ledger) : Prop :=
  ∀ a t, l.reserves a = some t → a = P.canonical (.reserve t.mint) ∧ t.bump = a.bump

namespace Ledger.ReservesAt

theorem setReserve (hl : l.ReservesAt P) {a : Pda} {t : ReserveAttestation}
    (ht : a = P.canonical (.reserve t.mint) ∧ t.bump = a.bump) : (l.setReserve a t).ReservesAt P := by
  intro b u hu
  obtain ⟨rfl, rfl⟩ | ⟨-, hu⟩ := update_eq_some.1 hu
  · exact ht
  · exact hl b u hu

theorem exec {ix : Instruction} (hl : s.ledger.ReservesAt P) (hx : exec P now s ix = ok s') :
    s'.ledger.ReservesAt P := by
  have frame := exec_frame hx
  cases ix with
  | setReserveAttestor x attestor maxStaleness =>
    obtain ⟨c, r, t, reset, -, -, -, ht, -, rfl⟩ := setReserveAttestorHandler_ok hx
    refine hl.setReserve ⟨?_, t.setAttestor_bump⟩
    rw [t.setAttestor_mint]
    exact (initIfNeeded_eq_ok ht).1
  | attestReserves x reserves asOf reportUri =>
    obtain ⟨t, ht, -, -, -, -, rfl⟩ := attestReservesHandler_ok hx
    exact hl.setReserve (hl _ t ht)
  | _ =>
    intro a t ht
    rw [frame.reserves (by simp [Instruction.writes])] at ht
    exact hl a t ht

theorem of_run (r : (machine P).Run h s) : s.ledger.ReservesAt P := by
  refine r.invariant (I := fun _ s => s.ledger.ReservesAt P) ?_ ?_
  · intro s hs a t ht
    rw [hs.1] at ht
    contradiction
  · intro h s e s' _ hl hs
    cases hs with
    | succeeded hx => exact hl.exec hx
    | failed => exact hl
    | outside => exact hl

end Ledger.ReservesAt

/-! ### The account that `mint_tokens` is passed -/

def AccountKind.discriminator : AccountKind → Bytes
  | .config => [127, 25, 244, 213, 1, 192, 101, 6]
  | .role => [178, 241, 126, 194, 47, 84, 237, 40]
  | .quota => [42, 21, 27, 217, 49, 82, 230, 89]
  | .pause => PauseState.account.discriminator
  | .blacklist => BlacklistEntry.account.discriminator
  | .allowlist => AllowlistEntry.account.discriminator
  | .reserve => ReserveAttestation.account.discriminator

/-- What can be passed: one of the attestations where it is, another kind of account of the program, zeros
that were assigned to the program, or what another program owns (so does the system program an address
without an account). All but an attestation may be anywhere. -/
inductive Presents (P : Programs W) (st : Stored reserveAccounts W) : AccountInfo → Prop
  | attestation {a : Pda} (held : st.data a ≠ []) : Presents P st ⟨P.address a, sssTokenId, st.data a⟩
  | other {key : Pubkey} {data : Bytes} {kind : AccountKind} (hkind : kind ≠ .reserve)
    (hdata : kind.discriminator.isPrefixOf data) : Presents P st ⟨key, sssTokenId, data⟩
  | assigned {key : Pubkey} (n : Nat) : Presents P st ⟨key, sssTokenId, List.replicate n 0⟩
  | foreign {info : AccountInfo} (howner : info.owner ≠ sssTokenId) : Presents P st info

/-- No attestation is at an address of the mint's seeds with another derivation than its own. -/
def Stored.Distinct (P : Programs W) (st : Stored reserveAccounts W) (mint : Pubkey) : Prop :=
  ∀ a, st.data a ≠ [] → ∀ bump, P.address a = P.address ⟨.reserve mint, bump⟩ → a = ⟨.reserve mint, bump⟩

/-- `reserve_bump` -/
def reserveBumpOf (P : Programs W) (info : AccountInfo) (mint : Pubkey) : Exec ε UInt8 :=
  if info.owner = sssTokenId then do
    match ← storedBump info.data with
    | some bump => pure bump
    | none => pure (P.canonicalBump (.reserve mint))
  else pure (P.canonicalBump (.reserve mint))

/-- `seeds = [SEED_RESERVE, mint], bump = reserve_bump(..)`. A bump whose address is on the curve is also a
`ConstraintSeeds`. -/
def checkReserveAddress (P : Programs W) (info : AccountInfo) (mint : Pubkey) : Exec Failure Unit := do
  let bump ← reserveBumpOf P info mint
  require (info.key = P.address ⟨.reserve mint, bump⟩) (.anchor .constraintSeeds)

section check

variable {info : AccountInfo} {mint : Pubkey} {bump : UInt8} {st : Stored reserveAccounts W}

theorem checkReserveAddress_of_bump (hbump : (reserveBumpOf P info mint : Exec Failure _) = ok bump) :
    checkReserveAddress P info mint = ok () ↔ info.key = P.address ⟨.reserve mint, bump⟩ := by
  rw [checkReserveAddress, hbump, bind_ok, require_eq_ok]

theorem reserveBumpOf_of_none (hnone : (storedBump info.data : Exec ε _) = ok none) :
    (reserveBumpOf P info mint : Exec ε _) = ok (P.canonicalBump (.reserve mint)) := by
  unfold reserveBumpOf
  by_cases howner : info.owner = sssTokenId
  · rw [if_pos howner, hnone, bind_ok, pure_eq]
  · rw [if_neg howner, pure_eq]

theorem storedBump_of_discriminator {data : Bytes} (h : ¬ReserveAttestation.account.discriminator.isPrefixOf data) :
    (storedBump data : Exec ε _) = ok none := if_pos h

theorem AccountKind.discriminator_length (kind : AccountKind) : kind.discriminator.length = 8 := by
  cases kind <;> rfl

theorem AccountKind.discriminator_ne {kind : AccountKind} (hkind : kind ≠ .reserve) :
    kind.discriminator ≠ ReserveAttestation.account.discriminator := by
  cases kind with
  | reserve => contradiction
  | _ => decide

theorem storedBump_of_kind {data : Bytes} {kind : AccountKind} (hkind : kind ≠ .reserve)
    (hdata : kind.discriminator.isPrefixOf data) : (storedBump data : Exec ε _) = ok none := by
  refine storedBump_of_discriminator ?_
  intro hreserve
  have hlen : kind.discriminator.length = ReserveAttestation.account.discriminator.length := kind.discriminator_length
  have hstarts := List.prefix_of_prefix_length_le (List.isPrefixOf_iff_prefix.1 hdata)
    (List.isPrefixOf_iff_prefix.1 hreserve) hlen.le
  exact AccountKind.discriminator_ne hkind (hstarts.eq_of_length hlen)

theorem storedBump_of_zeros (n : Nat) : (storedBump (List.replicate n 0) : Exec ε _) = ok none := by
  refine storedBump_of_discriminator ?_
  intro hreserve
  have hmem : (105 : UInt8) ∈ List.replicate n 0 :=
    (List.isPrefixOf_iff_prefix.1 hreserve).subset List.mem_cons_self
  exact absurd (List.eq_of_mem_replicate hmem) (by decide)

/-- At an address of the ledger the bump is the one that `mint_handler` checks it with. -/
theorem reserveBumpOf_held (hk : st.Kept) (a : Pda) (key : Pubkey) :
    (reserveBumpOf P ⟨key, sssTokenId, st.data a⟩ mint : Exec ε _) = ok (reserveBump P st.loaded.ledger a mint) := by
  cases ht : ReserveAttestation.account.tryDeserialize (st.data a) with
  | some t =>
    have hloaded : st.loaded.ledger.reserves a = some t := ht
    rw [reserveBumpOf, if_pos rfl, storedBump_of_decoded ht ((hk a).uri_le ht), bind_ok, reserveBump, hloaded]
    rfl
  | none =>
    have hloaded : st.loaded.ledger.reserves a = none := ht
    have hnil : (storedBump [] : Exec ε _) = ok none := storedBump_of_discriminator (by decide)
    rw [(hk a).eq_nil ht, reserveBump, hloaded]
    exact reserveBumpOf_of_none hnil

theorem checkReserveAddress_held (hk : st.Kept) (hl : st.loaded.ledger.ReservesAt P) (hd : st.Distinct P mint)
    {a : Pda} (held : st.data a ≠ []) :
    checkReserveAddress P ⟨P.address a, sssTokenId, st.data a⟩ mint = ok () ↔
      P.address a = P.address (P.canonical (.reserve mint)) := by
  rw [checkReserveAddress_of_bump (reserveBumpOf_held hk a _)]
  cases ht : st.loaded.ledger.reserves a with
  | none =>
    rw [reserveBump, ht]
    rfl
  | some t =>
    obtain ⟨hat, hbump⟩ := hl a t ht
    rw [reserveBump, ht]
    dsimp only
    constructor
    · intro hkey
      have ha := hd a held _ hkey
      have hseeds : t.mint = mint := Seeds.reserve.inj ((congrArg Pda.seeds hat).symm.trans (congrArg Pda.seeds ha))
      rw [hat, hseeds]
    · intro hkey
      have ha := hd a held _ hkey
      rw [hbump]
      conv_rhs => rw [ha]
      exact hkey

/-- **The check accepts the canonical address and no other**, for any account that can be passed, whatever was
written before. The bump in an attestation's bytes is the decoded one, and no bytes make the walk panic. -/
theorem reserve_address_check (r : (storage reserveAccounts P).Run h st) :
    (∀ info mint, Presents P st info → st.Distinct P mint →
      (checkReserveAddress P info mint = ok () ↔ info.key = P.address (P.canonical (.reserve mint)))) ∧
    (∀ a t, ReserveAttestation.account.tryDeserialize (st.data a) = some t →
      (storedBump (st.data a) : Exec ε _) = ok (some t.bump)) ∧
    ∀ data, (storedBump data : Exec ε _) ≠ panic := by
  obtain ⟨r', hk⟩ := Stored.run_loaded r
  refine ⟨?_, fun a t ht => storedBump_of_decoded ht ((hk a).uri_le ht), ?_⟩
  · intro info mint hp hd
    cases hp with
    | attestation held => exact checkReserveAddress_held hk (.of_run r') hd held
    | other hkind hdata => exact checkReserveAddress_of_bump (reserveBumpOf_of_none (storedBump_of_kind hkind hdata))
    | assigned n => exact checkReserveAddress_of_bump (reserveBumpOf_of_none (storedBump_of_zeros n))
    | foreign howner =>
      refine checkReserveAddress_of_bump ?_
      rw [reserveBumpOf, if_neg howner, pure_eq]
  · intro data hpanic
    obtain ⟨bump, hbump⟩ := (storedBump_isOk data : ∃ bump, (storedBump data : Exec ε _) = ok bump)
    rw [hbump] at hpanic
    contradiction

end check

/-- Every byte moved by one. -/
def shiftedKey (k : Pubkey) : Pubkey := ⟨k.1.map (· + 1), by rw [List.length_map, k.2]⟩

theorem shiftedKey_injective : Injective shiftedKey := by
  intro k k' hk
  have hbytes : k.1.map (· + 1) = k'.1.map (· + 1) := congrArg Subtype.val hk
  exact Subtype.ext ((List.map_inj_right fun x y => (UInt8.add_left_inj 1).1).1 hbytes)

/-- `bank`, with another address for each mint's attestation. -/
def addressedBank : Programs Bank :=
  { bank with
    address
      | ⟨.reserve mint, bump⟩ => shiftedKey (if bump = 255 then mint else .default)
      | _ => sampleKey 255 }

theorem addressedBank_mintsExactly : addressedBank.MintsExactly where
  createMintAccount := @bank_mintsExactly.createMintAccount
  createAssociatedToken := @bank_mintsExactly.createAssociatedToken
  mintTo := @bank_mintsExactly.mintTo

theorem addressedBank_distinct {st : Stored reserveAccounts Bank} (r : (storage reserveAccounts addressedBank).Run h st)
    (mint : Pubkey) : st.Distinct addressedBank mint := by
  intro a held bump haddress
  obtain ⟨r', hk⟩ := Stored.run_loaded r
  cases ht : st.loaded.ledger.reserves a with
  | none => exact absurd ((hk a).eq_nil ht) held
  | some t =>
    obtain ⟨hat, -, hmint⟩ := (Ledger.Attests.of_run addressedBank_mintsExactly r').reserve_at ht
    rw [hat] at haddress
    have hkey : t.mint = if bump = 255 then mint else .default := shiftedKey_injective haddress
    split_ifs at hkey with hbump
    · rw [hat, hkey, hbump]
      rfl
    · contradiction

theorem reserve_address_check_sample :
    ∃ h st t, (storage reserveAccounts addressedBank).Run h st ∧
      ReserveAttestation.account.tryDeserialize (st.data (bank.canonical (.reserve (sampleKey 2)))) = some t ∧
      checkReserveAddress addressedBank ⟨addressedBank.address (bank.canonical (.reserve (sampleKey 2))), sssTokenId,
        st.data (bank.canonical (.reserve (sampleKey 2)))⟩ (sampleKey 2) = ok () ∧
      (storedBump (st.data (bank.canonical (.reserve (sampleKey 2)))) : Exec Failure _) = ok (some t.bump) := by
  have hstart : (machine addressedBank).Reachable sampleStart := ⟨[], .start ⟨rfl, rfl⟩⟩
  obtain ⟨h, r⟩ : (machine addressedBank).Reachable (execAll addressedBank sampleStart attestedSample) :=
    execAll_reachable hstart
  obtain ⟨st, r, hloaded⟩ := Stored.of_run reserveAccounts r
  have hsome : ((execAll addressedBank sampleStart attestedSample).ledger.reserves
      (bank.canonical (.reserve (sampleKey 2)))).isSome := by decide +kernel
  rw [← hloaded] at hsome
  obtain ⟨t, ht⟩ := Option.isSome_iff_exists.1 hsome
  have held : st.data (bank.canonical (.reserve (sampleKey 2))) ≠ [] := by
    intro hnil
    have hnone : ReserveAttestation.account.tryDeserialize [] = some t := hnil ▸ ht
    contradiction
  obtain ⟨hcheck, hbump, -⟩ := (reserve_address_check r :
    _ ∧ (∀ a t, _ → (storedBump (st.data a) : Exec Failure _) = _) ∧ _)
  exact ⟨h, st, t, r, ht, (hcheck _ _ (.attestation held) (addressedBank_distinct r _)).2 rfl, hbump _ t ht⟩

end ThawGate.Token
