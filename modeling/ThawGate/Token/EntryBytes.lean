import ThawGate.Token.Storage

/-!
# Registry entries as bytes

`entryAccounts` keeps sss-token's blacklist and allowlist entries as the data of their accounts. What was encoded last
is what is decoded, so an entry is as the last successful call on it left it (`blacklist_lastCall`,
`allowlist_lastCall`), whatever a longer reason left behind it.
-/

namespace ThawGate.Token

open Borsh Exec Function

variable {W : Type} {P : Programs W} {now : Int64} {h : List Label}

/-! ### Sizes -/

/-- Discriminator, mint, target, reason, `added_at`, `added_by`, active, bump. -/
def blacklistEntrySize : Nat := 8 + 32 + 32 + (4 + maxReasonLen) + 8 + 32 + 1 + 1

/-- Discriminator, mint, wallet, `added_at`, active, bump. -/
def allowlistEntrySize : Nat := 8 + 32 + 32 + 8 + 1 + 1

theorem blacklistEntry_length (e : BlacklistEntry) :
    (BlacklistEntry.account.bytes e).length = 118 + e.reason.bytes.length := by
  have hmint : e.mint.1.length = 32 := e.mint.2
  have htarget : e.target.1.length = 32 := e.target.2
  have hoperator : e.addedBy.1.length = 32 := e.addedBy.2
  simp only [AccountType.bytes, BlacklistEntry.account, BlacklistEntry.codec, Pubkey.codec, Codec.chunk,
    Codec.str, Codec.vec, Codec.i64, Codec.u64, Codec.le, Codec.bool, Codec.u8, Codec.pmap, Codec.prod,
    List.length_append, List.length_cons, List.length_nil, leBytes_length, hmint, htarget, hoperator]
  omega

theorem allowlistEntry_length (e : AllowlistEntry) :
    (AllowlistEntry.account.bytes e).length = allowlistEntrySize := by
  have hmint : e.mint.1.length = 32 := e.mint.2
  have hwallet : e.wallet.1.length = 32 := e.wallet.2
  simp only [AccountType.bytes, AllowlistEntry.account, AllowlistEntry.codec, Pubkey.codec, Codec.chunk,
    Codec.i64, Codec.u64, Codec.le, Codec.bool, Codec.u8, Codec.pmap, Codec.prod, List.length_append,
    List.length_cons, List.length_nil, leBytes_length, hmint, hwallet]
  rfl

/-! ### The entries' accounts -/

/-- What a registry account's data can be. Behind the entry there may be anything. -/
inductive EntryData : Bytes → Prop
  | vacant : EntryData []
  | blacklist {data : Bytes} {e : BlacklistEntry} (he : BlacklistEntry.account.tryDeserialize data = some e)
    (hreason : e.reason.bytes.length ≤ maxReasonLen) (hlen : data.length = blacklistEntrySize) : EntryData data
  | allowlist {data : Bytes} {e : AllowlistEntry} (he : AllowlistEntry.account.tryDeserialize data = some e)
    (hlen : data.length = allowlistEntrySize) : EntryData data

def entryLayout : Layout where
  load l data :=
    { l with
      blacklist := fun a => BlacklistEntry.account.tryDeserialize (data a)
      allowlist := fun a => AllowlistEntry.account.tryDeserialize (data a) }
  exit ix l data :=
    match ix with
    | .addToBlacklist x _ => writeBack BlacklistEntry.account blacklistEntrySize l.blacklist x.blacklistEntry data
    | .removeFromBlacklist x =>
      writeBack BlacklistEntry.account blacklistEntrySize l.blacklist x.blacklistEntry data
    | .addToAllowlistV3 x => writeBack AllowlistEntry.account allowlistEntrySize l.allowlist x.allowlistEntry data
    | .removeFromAllowlistV3 x =>
      writeBack AllowlistEntry.account allowlistEntrySize l.allowlist x.allowlistEntry data
    | _ => some data
  Held := EntryData

theorem blacklist_not_allowlist {data : Bytes} {e : BlacklistEntry}
    (he : BlacklistEntry.account.tryDeserialize data = some e) : AllowlistEntry.account.tryDeserialize data = none :=
  AccountType.tryDeserialize_other (t := BlacklistEntry.account) rfl (by decide) he

theorem allowlist_not_blacklist {data : Bytes} {e : AllowlistEntry}
    (he : AllowlistEntry.account.tryDeserialize data = some e) : BlacklistEntry.account.tryDeserialize data = none :=
  AccountType.tryDeserialize_other (t := AllowlistEntry.account) rfl (by decide) he

namespace EntryData

variable {data : Bytes}

theorem blacklist_length (hd : EntryData data) (hnot : AllowlistEntry.account.tryDeserialize data = none) :
    data = [] ∨ data.length = blacklistEntrySize := by
  cases hd with
  | vacant => exact .inl rfl
  | blacklist he hreason hlen => exact .inr hlen
  | allowlist he hlen =>
    rw [he] at hnot
    contradiction

theorem allowlist_length (hd : EntryData data) (hnot : BlacklistEntry.account.tryDeserialize data = none) :
    data = [] ∨ data.length = allowlistEntrySize := by
  cases hd with
  | vacant => exact .inl rfl
  | blacklist he hreason hlen =>
    rw [he] at hnot
    contradiction
  | allowlist he hlen => exact .inr hlen

/-- A reason that was once accepted stays within the bound. -/
theorem reason_le (hd : EntryData data) {e : BlacklistEntry}
    (he : BlacklistEntry.account.tryDeserialize data = some e) : e.reason.bytes.length ≤ maxReasonLen := by
  cases hd with
  | vacant => contradiction
  | blacklist he' hreason hlen =>
    rw [he] at he'
    obtain rfl := Option.some.inj he'
    exact hreason
  | allowlist he' hlen =>
    rw [allowlist_not_blacklist he'] at he
    contradiction

theorem eq_nil (hd : EntryData data) (hb : BlacklistEntry.account.tryDeserialize data = none)
    (ha : AllowlistEntry.account.tryDeserialize data = none) : data = [] := by
  cases hd with
  | vacant => rfl
  | blacklist he hreason hlen =>
    rw [he] at hb
    contradiction
  | allowlist he hlen =>
    rw [he] at ha
    contradiction

end EntryData

/-! ### One instruction -/

/-- An address of a blacklist entry's seeds has no allowlist entry, and the other way round. -/
theorem Ledger.Addressed.no_allowlist {l : Ledger} (hl : l.Addressed P) {mint wallet : Pubkey} {bump : UInt8} :
    l.allowlist ⟨.blacklist mint wallet, bump⟩ = none := by
  by_contra hsome
  obtain ⟨e, he⟩ := Option.ne_none_iff_exists'.1 hsome
  have hat := hl.allowlist he
  rw [Programs.canonical, Pda.mk.injEq] at hat
  nomatch hat.1

theorem Ledger.Addressed.no_blacklist {l : Ledger} (hl : l.Addressed P) {mint wallet : Pubkey} {bump : UInt8} :
    l.blacklist ⟨.allowlist mint wallet, bump⟩ = none := by
  by_contra hsome
  obtain ⟨e, he⟩ := Option.ne_none_iff_exists'.1 hsome
  have hat := hl.blacklist he
  rw [Programs.canonical, Pda.mk.injEq] at hat
  nomatch hat.1

section exits

variable {s s' : State W} {l l' : Ledger} {ix : Instruction} {data : Pda → Bytes}

theorem entryLayout_load (hb : ∀ a, BlacklistEntry.account.tryDeserialize (data a) = l.blacklist a)
    (ha : ∀ a, AllowlistEntry.account.tryDeserialize (data a) = l.allowlist a) : entryLayout.load l data = l := by
  have hblacklist := funext hb
  have hallowlist := funext ha
  unfold entryLayout
  dsimp only
  rw [hblacklist, hallowlist]

theorem exits_blacklist (hk : ∀ a, EntryData (data a)) {a : Pda} {e : BlacklistEntry}
    (hix : entryLayout.exit ix l' data =
      writeBack BlacklistEntry.account blacklistEntrySize l'.blacklist a data)
    (hnot : (entryLayout.load l data).allowlist a = none) (hreason : e.reason.bytes.length ≤ maxReasonLen)
    (hs : l' = (entryLayout.load l data).setBlacklist a e) : entryLayout.Exits ix l' data := by
  have hfits : (BlacklistEntry.account.bytes e).length ≤ blacklistEntrySize := by
    rw [blacklistEntry_length]
    show 118 + _ ≤ 218
    have : maxReasonLen = 100 := rfl
    omega
  rw [hs] at hix ⊢
  refine .of_write hk hix ((hk a).blacklist_length hnot) hfits fun bytes hread hlen => ?_
  refine ⟨.blacklist hread hreason hlen, entryLayout_load ?_ ?_⟩
  · intro b
    rw [apply_update fun _ => BlacklistEntry.account.tryDeserialize, hread]
    rfl
  · intro b
    rw [apply_update fun _ => AllowlistEntry.account.tryDeserialize, blacklist_not_allowlist hread, ← hnot]
    exact congrFun (update_eq_self a (entryLayout.load l data).allowlist) b

theorem exits_allowlist (hk : ∀ a, EntryData (data a)) {a : Pda} {e : AllowlistEntry}
    (hix : entryLayout.exit ix l' data =
      writeBack AllowlistEntry.account allowlistEntrySize l'.allowlist a data)
    (hnot : (entryLayout.load l data).blacklist a = none) (hs : l' = (entryLayout.load l data).setAllowlist a e) :
    entryLayout.Exits ix l' data := by
  have hfits : (AllowlistEntry.account.bytes e).length ≤ allowlistEntrySize := Nat.le_of_eq (allowlistEntry_length e)
  rw [hs] at hix ⊢
  refine .of_write hk hix ((hk a).allowlist_length hnot) hfits fun bytes hread hlen => ?_
  refine ⟨.allowlist hread hlen, entryLayout_load ?_ ?_⟩
  · intro b
    rw [apply_update fun _ => BlacklistEntry.account.tryDeserialize, allowlist_not_blacklist hread, ← hnot]
    exact congrFun (update_eq_self a (entryLayout.load l data).blacklist) b
  · intro b
    rw [apply_update fun _ => AllowlistEntry.account.tryDeserialize, hread]
    rfl

theorem entry_exits (hk : ∀ a, EntryData (data a)) (hl : (entryLayout.load s.ledger data).Addressed P)
    (hx : exec P now { s with ledger := entryLayout.load s.ledger data } ix = ok s') :
    entryLayout.Exits ix s'.ledger data := by
  have frame := exec_frame hx
  cases ix with
  | addToBlacklist x reason =>
    obtain ⟨c, _, _, _, -, -, he, -, hreason, rfl⟩ := handlerAddToBlacklist_ok hx
    have hat := (initIfNeeded_eq_ok he).1
    refine exits_blacklist hk rfl ?_ hreason rfl
    rw [hat]
    exact hl.no_allowlist
  | removeFromBlacklist x =>
    obtain ⟨c, _, e, -, -, he, -, hat, rfl⟩ := handlerRemoveFromBlacklist_ok hx
    have hreason := (hk _).reason_le he
    refine exits_blacklist (e := { e with active := false }) hk rfl ?_ hreason rfl
    rw [hat]
    exact hl.no_allowlist
  | addToAllowlistV3 x =>
    obtain ⟨c, _, -, he, -, rfl⟩ := addToAllowlistHandler_ok hx
    have hat := (initIfNeeded_eq_ok he).1
    refine exits_allowlist hk rfl ?_ rfl
    rw [hat]
    exact hl.no_blacklist
  | removeFromAllowlistV3 x =>
    obtain ⟨c, e, -, he, -, hat, rfl⟩ := removeFromAllowlistHandler_ok hx
    refine exits_allowlist (e := { e with active := false }) hk rfl ?_ rfl
    rw [hat]
    exact hl.no_blacklist
  | _ =>
    refine ⟨data, rfl, entryLayout_load ?_ ?_, hk⟩
    · intro a
      rw [frame.blacklist (by simp [Instruction.writes])]
      rfl
    · intro a
      rw [frame.allowlist (by simp [Instruction.writes])]
      rfl

end exits

/-- The registry entries, kept as bytes. -/
def entryAccounts : Storage where
  toLayout := entryLayout
  held_nil := .vacant
  load_empty := rfl
  exits := entry_exits

/-! ### The last call -/

/-- The entry an instruction sets and what it sets it to. -/
def Instruction.sets : Instruction → Option (Pda × Bool)
  | .addToBlacklist x _ => some (x.blacklistEntry, true)
  | .removeFromBlacklist x => some (x.blacklistEntry, false)
  | .addToAllowlistV3 x => some (x.allowlistEntry, true)
  | .removeFromAllowlistV3 x => some (x.allowlistEntry, false)
  | _ => none

/-- Whether the last successful call on the entry at `a` was an add; `none` if there was no call. -/
def lastCall (a : Pda) : List Label → Option Bool
  | [] => none
  | .tx ix _ true :: h =>
    match ix.sets with
    | some (b, active) => if b = a then some active else lastCall a h
    | none => lastCall a h
  | _ :: h => lastCall a h

theorem lastCall_of_sets {a b : Pda} {active : Bool} {ix : Instruction} (hix : ix.sets = some (b, active)) :
    lastCall a (.tx ix now true :: h) = if b = a then some active else lastCall a h := by
  simp only [lastCall, hix]

theorem lastCall_of_none {a : Pda} {ix : Instruction} (hix : ix.sets = none) :
    lastCall a (.tx ix now true :: h) = lastCall a h := by
  simp only [lastCall, hix]

/-- Whether the entry at an address is active; `none` if there is no entry. -/
def Ledger.entryActive (l : Ledger) (a : Pda) : Option Bool :=
  ((l.blacklist a).map BlacklistEntry.active).or ((l.allowlist a).map AllowlistEntry.active)

namespace Ledger

variable {l : Ledger} {a b : Pda}

theorem entryActive_of_eq {l' : Ledger} (hb : l'.blacklist a = l.blacklist a) (ha : l'.allowlist a = l.allowlist a) :
    l'.entryActive a = l.entryActive a := by
  rw [entryActive, hb, ha, entryActive]

theorem entryActive_setBlacklist (e : BlacklistEntry) :
    (l.setBlacklist b e).entryActive a = if b = a then some e.active else l.entryActive a := by
  by_cases h : b = a
  · subst h
    simp [entryActive]
  · rw [if_neg h]
    refine entryActive_of_eq ?_ rfl
    exact update_of_ne (Ne.symm h) ..

theorem entryActive_setAllowlist (e : AllowlistEntry) (hnot : l.blacklist b = none) :
    (l.setAllowlist b e).entryActive a = if b = a then some e.active else l.entryActive a := by
  by_cases h : b = a
  · subst h
    simp [entryActive, hnot]
  · rw [if_neg h]
    refine entryActive_of_eq rfl ?_
    exact update_of_ne (Ne.symm h) ..

theorem Addressed.entryActive_blacklist (hl : l.Addressed P) (mint wallet : Pubkey) :
    l.entryActive (P.canonical (.blacklist mint wallet)) =
      (l.blacklist (P.canonical (.blacklist mint wallet))).map BlacklistEntry.active := by
  have hnot : l.allowlist (P.canonical (.blacklist mint wallet)) = none := hl.no_allowlist
  rw [entryActive, hnot, Option.map_none, Option.or_none]

theorem Addressed.entryActive_allowlist (hl : l.Addressed P) (mint wallet : Pubkey) :
    l.entryActive (P.canonical (.allowlist mint wallet)) =
      (l.allowlist (P.canonical (.allowlist mint wallet))).map AllowlistEntry.active := by
  have hnot : l.blacklist (P.canonical (.allowlist mint wallet)) = none := hl.no_blacklist
  rw [entryActive, hnot, Option.map_none, Option.none_or]

end Ledger

theorem exec_entryActive {s s' : State W} {ix : Instruction} (hl : s.ledger.Addressed P)
    (hx : exec P now s ix = ok s') {a : Pda} (ih : s.ledger.entryActive a = lastCall a h) :
    s'.ledger.entryActive a = lastCall a (.tx ix now true :: h) := by
  have frame := exec_frame hx
  cases ix with
  | addToBlacklist x reason =>
    obtain ⟨c, _, _, _, -, -, -, -, -, rfl⟩ := handlerAddToBlacklist_ok hx
    rw [lastCall_of_sets rfl, Ledger.entryActive_setBlacklist, ih]
  | removeFromBlacklist x =>
    obtain ⟨c, _, e, -, -, -, -, -, rfl⟩ := handlerRemoveFromBlacklist_ok hx
    rw [lastCall_of_sets rfl, State.commit, Ledger.entryActive_setBlacklist, ih]
  | addToAllowlistV3 x =>
    obtain ⟨c, _, -, he, -, rfl⟩ := addToAllowlistHandler_ok hx
    have hat := (initIfNeeded_eq_ok he).1
    have hnot : s.ledger.blacklist x.allowlistEntry = none := by
      rw [hat]
      exact hl.no_blacklist
    rw [lastCall_of_sets rfl, State.commit, Ledger.entryActive_setAllowlist _ hnot, ih]
  | removeFromAllowlistV3 x =>
    obtain ⟨c, e, -, -, -, hat, rfl⟩ := removeFromAllowlistHandler_ok hx
    have hnot : s.ledger.blacklist x.allowlistEntry = none := by
      rw [hat]
      exact hl.no_blacklist
    rw [lastCall_of_sets rfl, State.commit, Ledger.entryActive_setAllowlist _ hnot, ih]
  | _ =>
    rw [lastCall_of_none rfl, ← ih]
    refine Ledger.entryActive_of_eq (congrFun ?_ a) (congrFun ?_ a)
    · exact frame.blacklist (by simp [Instruction.writes])
    · exact frame.allowlist (by simp [Instruction.writes])

/-- An entry is active when the last successful call on it was an add, and there is none when there was no
call. -/
theorem entryActive_eq_lastCall {s : State W} (r : (machine P).Run h s) (a : Pda) :
    s.ledger.entryActive a = lastCall a h := by
  refine r.invariant (I := fun h s => s.ledger.entryActive a = lastCall a h) ?_ ?_
  · intro s hs
    rw [hs.1]
    rfl
  · intro h s e s' r ih hs
    have hl := Ledger.Addressed.of_reachable ⟨h, r⟩
    cases hs with
    | succeeded hx => exact exec_entryActive hl hx ih
    | failed hx => exact ih
    | outside w => exact ih

/-! ### What a reader gets -/

/-- `info` is the account at `a` as a program or an RPC reads it: sss-token's if there is one. -/
structure Stored.Shows {S : Storage} (st : Stored S W) (a : Pda) (info : AccountInfo) : Prop where
  data : info.data = st.data a
  owner : info.data ≠ [] → info.owner = sssTokenId

/-- **The account of a wallet's blacklist entry.** There is none before the first call; after it, the account
is an entry of this mint and wallet, as the last call left it. -/
theorem blacklist_lastCall {st : Stored entryAccounts W} (r : (storage entryAccounts P).Run h st) (mint wallet : Pubkey) :
    lastCall (P.canonical (.blacklist mint wallet)) h = none ∧ st.data (P.canonical (.blacklist mint wallet)) = [] ∨
      ∃ e, BlacklistEntry.account.tryDeserialize (st.data (P.canonical (.blacklist mint wallet))) = some e ∧
        e.mint = mint ∧ e.target = wallet ∧ lastCall (P.canonical (.blacklist mint wallet)) h = some e.active := by
  obtain ⟨r', hk⟩ := Stored.run_loaded r
  have hl := Ledger.Addressed.of_reachable ⟨h, r'⟩
  have hactive := hl.entryActive_blacklist mint wallet
  rw [entryActive_eq_lastCall r'] at hactive
  cases he : st.loaded.ledger.blacklist (P.canonical (.blacklist mint wallet)) with
  | none =>
    rw [he] at hactive
    exact .inl ⟨hactive, (hk _).eq_nil he hl.no_allowlist⟩
  | some e =>
    rw [he] at hactive
    obtain ⟨hmint, hwallet⟩ := hl.blacklist_canonical he
    exact .inr ⟨e, he, hmint, hwallet, hactive⟩

theorem allowlist_lastCall {st : Stored entryAccounts W} (r : (storage entryAccounts P).Run h st) (mint wallet : Pubkey) :
    lastCall (P.canonical (.allowlist mint wallet)) h = none ∧ st.data (P.canonical (.allowlist mint wallet)) = [] ∨
      ∃ e, AllowlistEntry.account.tryDeserialize (st.data (P.canonical (.allowlist mint wallet))) = some e ∧
        e.mint = mint ∧ e.wallet = wallet ∧ lastCall (P.canonical (.allowlist mint wallet)) h = some e.active := by
  obtain ⟨r', hk⟩ := Stored.run_loaded r
  have hl := Ledger.Addressed.of_reachable ⟨h, r'⟩
  have hactive := hl.entryActive_allowlist mint wallet
  rw [entryActive_eq_lastCall r'] at hactive
  cases he : st.loaded.ledger.allowlist (P.canonical (.allowlist mint wallet)) with
  | none =>
    rw [he] at hactive
    exact .inl ⟨hactive, (hk _).eq_nil hl.no_blacklist he⟩
  | some e =>
    rw [he] at hactive
    have hat := hl.allowlist he
    rw [P.canonical_inj, Seeds.allowlist.injEq] at hat
    exact .inr ⟨e, he, hat.1.symm, hat.2.symm, hactive⟩

end ThawGate.Token
