import ThawGate.Keeper.Rescan
import ThawGate.Lib.Base58
import ThawGate.Logs.Attribution
import ThawGate.Screener.Entries
import ThawGate.Token.Counters
import ThawGate.Token.EventBytes

/-!
# From an event to a freeze

The keeper follows the registry by the logs of sss-token: an `AddedToBlacklist` or an `AllowlistRemoved` in a
transaction's logs sets off a check of its wallet (`onIssuerLogs`). `announced_freezes` follows one such event from
`emit!` to the freezes that the check asks for.
-/

namespace ThawGate.Keeper

open Borsh Exec Logs Lts Token

/-! ### Decoding -/

inductive EventKind where
  | addedToBlacklist
  | allowlistRemoved
  deriving DecidableEq, Repr

structure IssuerEvent where
  kind : EventKind
  mint : Pubkey
  wallet : Pubkey
  deriving DecidableEq

def addedToBlacklistDiscriminator : Bytes := [3, 196, 78, 136, 111, 197, 188, 114]

def allowlistRemovedDiscriminator : Bytes := [47, 69, 78, 173, 196, 109, 163, 172]

def decodeIssuerEvent (data : Bytes) : Exec Empty (Option IssuerEvent) :=
  if data.length < 72 then .ok none
  else if addedToBlacklistDiscriminator.isPrefixOf data then do
    return some ⟨.addedToBlacklist, ← keyAt data 8, ← keyAt data 40⟩
  else if allowlistRemovedDiscriminator.isPrefixOf data then do
    return some ⟨.allowlistRemoved, ← keyAt data 8, ← keyAt data 40⟩
  else .ok none

/-- What the keeper makes of an event. -/
def issuerEvent : Event → Option IssuerEvent
  | .addedToBlacklist mint target _ _ _ => some ⟨.addedToBlacklist, mint, target⟩
  | .allowlistRemoved mint wallet _ => some ⟨.allowlistRemoved, mint, wallet⟩
  | _ => none

/-! ### What sss-token emits -/

/-- The event among those the keeper follows that an instruction emits. -/
def announces : Instruction → Option IssuerEvent
  | .addToBlacklist x _ =>
    match x.blacklistEntry.seeds with
    | .blacklist mint wallet => some ⟨.addedToBlacklist, mint, wallet⟩
    | _ => none
  | .removeFromAllowlistV3 x =>
    match x.allowlistEntry.seeds with
    | .allowlist mint wallet => some ⟨.allowlistRemoved, mint, wallet⟩
    | _ => none
  | _ => none

def announced : Token.Label → Option IssuerEvent
  | .tx ix _ true => announces ix
  | _ => none

section emitted

variable {W : Type} {P : Programs W}

theorem exec_announces {s s' : State W} {now : Int64} {ix : Instruction} (hl : s.ledger.Addressed P)
    (hx : exec P now s ix = ok s') :
    ∃ e : Option Event, s'.events = e.toList ++ s.events ∧ e.bind issuerEvent = announces ix := by
  have some_of {e : Event} (he : issuerEvent e = announces ix) (hs : s'.events = e :: s.events) :
      ∃ e : Option Event, s'.events = e.toList ++ s.events ∧ e.bind issuerEvent = announces ix := ⟨some e, hs, he⟩
  cases ix with
  | initializeStablecoin x args =>
    obtain ⟨-, -, -, _, _, -, -, rfl⟩ := initializeHandler_ok hx
    exact some_of rfl rfl
  | mintTokens x amount =>
    obtain ⟨_, _, _, hm⟩ := mintHandler_ok hx
    exact some_of rfl hm.emitted
  | burnTokens x amount =>
    obtain ⟨_, _, _, _, -, -, -, -, -, -, rfl⟩ := burnHandler_ok hx
    exact some_of rfl rfl
  | freezeAccount x | thawAccount x =>
    obtain ⟨_, _, _, _, _, _, -, -, -, -, -, -, -, rfl⟩ := handlerFreezeOrThaw_ok hx
    exact some_of rfl rfl
  | pause x =>
    obtain ⟨c, hevents⟩ := handlerSetPaused_events hx
    exact some_of (e := .tokensPaused c.mint x.operator now) rfl hevents
  | unpause x =>
    obtain ⟨c, hevents⟩ := handlerSetPaused_events hx
    exact some_of (e := .tokensUnpaused c.mint x.operator now) rfl hevents
  | updateMinter x minter limit period =>
    obtain ⟨_, _, -, -, -, -, rfl⟩ := handlerUpdateMinter_ok hx
    exact ⟨none, rfl, rfl⟩
  | updateRoles x holder role active =>
    obtain ⟨_, _, -, -, -, -, rfl⟩ := handlerUpdateRoles_ok hx
    exact ⟨none, rfl, rfl⟩
  | transferAuthority x newAuthority =>
    obtain ⟨_, _, -, -, -, -, rfl⟩ := handlerTransferAuthority_ok hx
    exact some_of rfl rfl
  | addToBlacklist x reason =>
    obtain ⟨c, _, e, _, -, -, he, -, -, rfl⟩ := handlerAddToBlacklist_ok hx
    refine some_of ?_ rfl
    rw [announces, (initIfNeeded_eq_ok he).1]
    rfl
  | removeFromBlacklist x =>
    obtain ⟨_, _, _, -, -, -, -, -, rfl⟩ := handlerRemoveFromBlacklist_ok hx
    exact some_of rfl rfl
  | seize x =>
    obtain ⟨_, _, _, _, _, _, hs⟩ := seizeHandler_ok hx
    exact some_of rfl hs.emitted
  | enableTokenAcl x policy =>
    obtain ⟨_, _, _, -, -, -, -, -, rfl⟩ := enableTokenAclHandler_ok hx
    exact some_of rfl rfl
  | setReserveAttestor x attestor maxStaleness =>
    obtain ⟨_, _, _, _, -, -, -, -, -, rfl⟩ := setReserveAttestorHandler_ok hx
    exact some_of rfl rfl
  | attestReserves x reserves asOf reportUri =>
    obtain ⟨_, -, -, -, -, -, rfl⟩ := attestReservesHandler_ok hx
    exact some_of rfl rfl
  | addToAllowlistV3 x =>
    obtain ⟨_, _, -, -, -, rfl⟩ := addToAllowlistHandler_ok hx
    refine some_of ?_ rfl
    rfl
  | removeFromAllowlistV3 x =>
    obtain ⟨c, e, -, he, -, -, rfl⟩ := removeFromAllowlistHandler_ok hx
    refine some_of ?_ rfl
    rw [announces, hl.allowlist he]
    rfl
  | configureConfidentialAccount x | applyPendingBalance x =>
    obtain ⟨_, -, -, rfl⟩ := confidentialHandler_ok hx
    exact some_of rfl rfl

/-- The events of a part of a run, newest first, as far as the keeper follows them. -/
theorem path_announces {h h' : List Token.Label} {st st' : Stored entryAccounts W}
    (r : (storage entryAccounts P).Run h st) (path : (storage entryAccounts P).Path st h' st') :
    ∃ events, st'.state.events = events ++ st.state.events ∧ events.filterMap issuerEvent = h'.filterMap announced := by
  induction path with
  | refl => exact ⟨[], rfl, rfl⟩
  | @step h' _ _ l path hs ih =>
    obtain ⟨events, hevents, hannounced⟩ := ih
    cases hs with
    | @succeeded ix now s data hx _ =>
      have hl := Ledger.Addressed.of_reachable (Stored.run_loaded (r.append path)).1.reachable
      obtain ⟨e, hemitted, he⟩ := exec_announces hl hx
      refine ⟨e.toList ++ events, ?_, ?_⟩
      · rw [List.append_assoc, ← hevents]
        exact hemitted
      · have hhead : e.toList.filterMap issuerEvent = [Token.Label.tx ix now true].filterMap announced := by
          rw [List.filterMap_cons, List.filterMap_nil, announced, ← he]
          cases e with
          | none => rfl
          | some v =>
            show [v].filterMap issuerEvent = _
            rw [List.filterMap_cons, List.filterMap_nil]
            rfl
        rw [List.filterMap_append, hhead, hannounced, ← List.filterMap_append, List.singleton_append]
    | failed _ => exact ⟨events, hevents, hannounced⟩
    | outside _ => exact ⟨events, hevents, hannounced⟩

end emitted

section decode

variable {disc rest : Bytes} {mint wallet : Pubkey}

theorem keyAt_first (hdisc : disc.length = 8) : keyAt (disc ++ (mint.1 ++ wallet.1 ++ rest)) 8 = .ok mint := by
  have hmint : mint.1.length = 32 := mint.2
  refine keyAt_eq ?_ (by simp only [List.length_append]; omega)
  rw [slice, List.drop_append_of_le_length hdisc.ge, List.drop_of_length_le hdisc.le, List.nil_append,
    List.append_assoc, List.take_append_of_le_length hmint.ge, List.take_of_length_le hmint.le]

theorem keyAt_second (hdisc : disc.length = 8) : keyAt (disc ++ (mint.1 ++ wallet.1 ++ rest)) 40 = .ok wallet := by
  have hmint : mint.1.length = 32 := mint.2
  have hwallet : wallet.1.length = 32 := wallet.2
  have hfront : (disc ++ mint.1).length = 40 := by rw [List.length_append, hdisc, hmint]
  refine keyAt_eq ?_ (by simp only [List.length_append]; omega)
  rw [List.append_assoc mint.1, ← List.append_assoc disc, slice, List.drop_append_of_le_length hfront.ge,
    List.drop_of_length_le hfront.le, List.nil_append, List.take_append_of_le_length hwallet.ge,
    List.take_of_length_le hwallet.le]

theorem lt_length (hdisc : disc.length = 8) : ¬(disc ++ (mint.1 ++ wallet.1 ++ rest)).length < 72 := by
  have hmint : mint.1.length = 32 := mint.2
  have hwallet : wallet.1.length = 32 := wallet.2
  simp only [List.length_append]
  omega

theorem decodeIssuerEvent_none {data : Bytes} (hadded : ¬addedToBlacklistDiscriminator.isPrefixOf data)
    (hremoved : ¬allowlistRemovedDiscriminator.isPrefixOf data) : decodeIssuerEvent data = .ok none := by
  unfold decodeIssuerEvent
  rw [if_neg hadded, if_neg hremoved, ite_self]

/-- **Decoding.** Of the events that sss-token emits, the keeper decodes the two it follows. -/
theorem decodeIssuerEvent_bytes (e : Event) : decodeIssuerEvent e.bytes = .ok (issuerEvent e) := by
  cases e with
  | addedToBlacklist mint target reason operator timestamp =>
    have hbytes : (Event.addedToBlacklist mint target reason operator timestamp).bytes =
        addedToBlacklistDiscriminator ++
          (mint.1 ++ target.1 ++ (Codec.str.enc reason ++ operator.1 ++ Codec.i64.enc timestamp)) := by
      simp only [Event.bytes, Event.fields, List.append_assoc]
      rfl
    rw [hbytes, decodeIssuerEvent, if_neg (lt_length rfl),
      if_pos (List.isPrefixOf_iff_prefix.2 (List.prefix_append _ _)), keyAt_first rfl, keyAt_second rfl]
    rfl
  | allowlistRemoved mint wallet timestamp =>
    have hbytes : (Event.allowlistRemoved mint wallet timestamp).bytes = allowlistRemovedDiscriminator ++
        (mint.1 ++ wallet.1 ++ Codec.i64.enc timestamp) := rfl
    have hadded : ¬addedToBlacklistDiscriminator.isPrefixOf
        (allowlistRemovedDiscriminator ++ (mint.1 ++ wallet.1 ++ Codec.i64.enc timestamp)) := Bool.false_ne_true
    rw [hbytes, decodeIssuerEvent, if_neg (lt_length rfl), if_neg hadded,
      if_pos (List.isPrefixOf_iff_prefix.2 (List.prefix_append _ _)), keyAt_first rfl, keyAt_second rfl]
    rfl
  | _ => exact decodeIssuerEvent_none Bool.false_ne_true Bool.false_ne_true

end decode

theorem mapM'_bytes (events : List Event) :
    (events.map Event.bytes).mapM' decodeIssuerEvent = .ok (events.map issuerEvent) := by
  induction events with
  | nil => rfl
  | cons e rest ih =>
    rw [List.map_cons, List.mapM'_cons, decodeIssuerEvent_bytes, bind_ok, ih]
    rfl

/-! ### The logs -/

/-- An address in base58, as the runtime logs it. -/
def programId (key : Pubkey) : ProgramId where
  text := Base58.encode key.1
  ne_nil := Base58.encode_ne_nil fun h => by
    have hlen := key.2
    rw [h] at hlen
    cases hlen
  base58 := List.all_eq_true.2 fun _ hc => List.contains_iff_mem.2 (Base58.mem_encode hc)

structure CheckRequest where
  mint : Pubkey
  wallet : Pubkey
  trigger : Trigger
  deriving DecidableEq

def EventKind.trigger : EventKind → Trigger
  | .addedToBlacklist => .blacklist
  | .allowlistRemoved => .allowlist

/-- The check that an event sets off: its mint is tracked, and this program keeps the mint's registry. -/
def HolderIndex.requestFor (s : HolderIndex) (program : Pubkey) (event : IssuerEvent) : Option CheckRequest :=
  match s.entryOf event.mint with
  | none => none
  | some entry =>
    if entry.policy.issuerProgram = program then some ⟨event.mint, event.wallet, event.kind.trigger⟩ else none

theorem requestFor_eq_some {s : HolderIndex} {program : Pubkey} {event : IssuerEvent} {q : CheckRequest} :
    s.requestFor program event = some q ↔ ∃ entry, s.entryOf event.mint = some entry ∧
      entry.policy.issuerProgram = program ∧ q = ⟨event.mint, event.wallet, event.kind.trigger⟩ := by
  unfold HolderIndex.requestFor
  cases s.entryOf event.mint with
  | none => simp
  | some entry =>
    simp only [Option.ite_none_right_eq_some, Option.some.injEq, exists_eq_left', eq_comm (a := q)]

/-- The checks that a transaction's logs set off. -/
def onIssuerLogs (s : HolderIndex) (program : Pubkey) (logs : List Text) (failed : Bool) :
    Exec Empty (List CheckRequest) :=
  if failed then .ok []
  else do
    let events ← (programDataLogs logs (programId program).text).mapM' decodeIssuerEvent
    return (events.filterMap id).filterMap (s.requestFor program)

/-- The program's data lines are these events in this order, each in one slice, and no other line reads to the keeper
as the end or the start of a frame. -/
structure Reports (t : Transcript) (program : ProgramId) (events : List Event) : Prop where
  emitted : t.entries.filterMap (dataIn program) = events.map fun e => [e.bytes]
  plain : ∀ l ∈ t.inner, l.plainToKeeper = true ∨ ∃ e : Event, l = .data [e.bytes]

/-- An event in base64 never reads as the end of a frame. -/
theorem event_plain (e : Event) : (Line.data [e.bytes]).plainToKeeper = true := by
  unfold Line.plainToKeeper
  dsimp only
  rw [dataText_one]
  cases e <;> rfl

theorem programDataLogs_of_reports {t : Transcript} {program : ProgramId} {events : List Event}
    (ht : Reports t program events) : programDataLogs t.lines program.text = events.map Event.bytes := by
  have hquiet : ∀ l p, (Logs.Entry.line l, p) ∈ t.entries → Quiet exitLine l.text := by
    intro l p hmem
    rw [quiet_keeper]
    obtain h | ⟨e, rfl⟩ := ht.plain l (Transcript.mem_inner.2 ⟨p, hmem⟩)
    · exact h
    · exact event_plain e
  have hread : programDataLogs t.lines program.text =
      (t.entries.filterMap (dataIn program)).map fun slices => Base64.decode (dataText slices) :=
    data_eq t.tracks hquiet ⟨[], []⟩ rfl
  rw [hread, ht.emitted, List.map_map]
  refine List.map_congr_left fun e _ => ?_
  rw [Function.comp_apply, dataText_one, Base64.decode_encode]

/-- The keeper asks for a check for each of the events that it follows, in their order. -/
theorem onIssuerLogs_eq {t : Transcript} {program : Pubkey} {events : List Event}
    (ht : Reports t (programId program) events) (s : HolderIndex) :
    onIssuerLogs s program t.lines false = .ok ((events.filterMap issuerEvent).filterMap (s.requestFor program)) := by
  rw [onIssuerLogs, if_neg Bool.false_ne_true, programDataLogs_of_reports ht, mapM'_bytes, bind_ok, List.filterMap_map]
  rfl

/-! ### The registry, as the keeper reads it -/

/-- The cluster has a wallet's entries at the addresses that the keeper derives. -/
structure Cluster.HasEntries {W : Type} (c : Cluster) (d : Derivation) (P : Programs W) (st : Stored entryAccounts W)
    (mint wallet : Pubkey) : Prop where
  blacklist : st.Shows (P.canonical (.blacklist mint wallet)) (c.info (d.blacklistPda sssTokenId mint wallet))
  allowlist : st.Shows (P.canonical (.allowlist mint wallet)) (c.info (d.allowlistPda sssTokenId mint wallet))

section registry

variable {W : Type} (P : Programs W) (h : List Token.Label) (d : Derivation) (c : Cluster) (p : Gate.GatePolicy)
  (wallet : Pubkey)

/-- The policy asks for the wallet's credential: no allowlist entry stands in for it. -/
def AsksCredential : Prop :=
  p.requireSas = true ∧ ¬(p.allowlistMode = .bypassForPdas ∧
    lastCall (P.canonical (.allowlist p.mint wallet)) h = some true ∧ d.isOffCurve wallet = true)

/-- After these calls on the registry the policy refuses the wallet. -/
def Refused : Prop :=
  (p.checkBlacklist = true ∧ lastCall (P.canonical (.blacklist p.mint wallet)) h = some true) ∨
    (p.allowlistMode = .allowOnly ∧ lastCall (P.canonical (.allowlist p.mint wallet)) h ≠ some true) ∨
    (AsksCredential P h d p wallet ∧
      ∃ credential, Gate.Sas.Says p wallet c.now (c.ownerAccounts d p wallet).attestation credential ∧
        credential ≠ .valid)

/-- The credential that the policy asks for is no credential. -/
def CredentialMalformed : Prop :=
  AsksCredential P h d p wallet ∧ Gate.Sas.Malformed p wallet c.now (c.ownerAccounts d p wallet).attestation

/-- The runtime where the keeper reads, as far as the decision of a freeze needs it. -/
def Cluster.runtime (c : Cluster) (d : Derivation) : Gate.Runtime := ⟨c.now, fun k => !d.isOffCurve k, fun _ => false⟩

variable {P h d c p wallet} {st : Stored entryAccounts W}

theorem says_active_iff {α : Type} {t : Gate.EntryType α} {issuer mint : Pubkey} {info : AccountInfo}
    {call : Option Bool} (hs : t.Says issuer mint wallet info (Screener.entryOf call)) :
    t.Says issuer mint wallet info .active ↔ call = some true := by
  constructor
  · intro hactive
    have hsame := hs.unique hactive
    match call with
    | none => cases hsame
    | some false => cases hsame
    | some true => rfl
  · rintro rfl
    exact hs

section

variable (r : (storage entryAccounts P).Run h st) (hc : c.HasEntries d P st p.mint wallet)
  (hissuer : p.issuerProgram = sssTokenId)
include r hc hissuer

theorem blacklistSays_iff : Gate.BlacklistSays p wallet (c.ownerAccounts d p wallet) .active ↔
    lastCall (P.canonical (.blacklist p.mint wallet)) h = some true := by
  have hs := Screener.blacklist_said r hc.blacklist
  rw [← hissuer] at hs
  exact says_active_iff hs

theorem allowlistSays_iff : Gate.AllowlistSays p wallet (c.ownerAccounts d p wallet) .active ↔
    lastCall (P.canonical (.allowlist p.mint wallet)) h = some true := by
  have hs := Screener.allowlist_said r hc.allowlist
  rw [← hissuer] at hs
  exact says_active_iff hs

theorem attestationRead_iff :
    Gate.AttestationRead (c.runtime d) p wallet (c.ownerAccounts d p wallet) ↔ AsksCredential P h d p wallet := by
  have hcurve : Gate.isOffCurve (c.runtime d) wallet = d.isOffCurve wallet := Bool.not_not _
  unfold Gate.AttestationRead Gate.Bypassed AsksCredential
  rw [allowlistSays_iff r hc hissuer, hcurve]

theorem flagged_iff_refused :
    Gate.Flagged (c.runtime d) p wallet (c.ownerAccounts d p wallet) ↔ Refused P h d c p wallet := by
  unfold Gate.Flagged Refused
  rw [blacklistSays_iff r hc hissuer, allowlistSays_iff r hc hissuer, attestationRead_iff r hc hissuer]
  rfl

/-- Entries of the registry are always readable. -/
theorem unreadable_iff_malformed :
    Gate.Unreadable (c.runtime d) p wallet (c.ownerAccounts d p wallet) ↔ CredentialMalformed P h d c p wallet := by
  have hblack := (Screener.blacklist_said r hc.blacklist).not_malformed
  have hallow := (Screener.allowlist_said r hc.allowlist).not_malformed
  rw [← hissuer] at hblack hallow
  unfold Gate.Unreadable CredentialMalformed
  rw [attestationRead_iff r hc hissuer]
  constructor
  · rintro (⟨-, h⟩ | ⟨-, h⟩ | h)
    · exact absurd h hblack
    · exact absurd h hallow
    · exact h
  · exact fun h => .inr (.inr h)

theorem reasonReadable : c.ReasonReadable d p wallet := by
  have hblack := (Screener.blacklist_said r hc.blacklist).not_malformed
  rw [← hissuer] at hblack
  exact fun hskip => hblack hskip.2.malformed

end

end registry

/-! ### The freezes -/

section freezes

variable {W : Type} {P : Programs W} {h : List Token.Label} {d : Derivation} {c : Cluster} {st : Stored entryAccounts W}

/-- The owner of a policy's mint, with the accounts that the keeper reads. -/
def Cluster.holder (c : Cluster) (d : Derivation) (p : Gate.GatePolicy) (wallet : Pubkey) : Gate.Holder where
  caller := Gate.absentAccount
  tokenAccount := Gate.absentAccount
  mint := ⟨p.mint, token2022Id, []⟩
  owner := ⟨wallet, Pubkey.default, []⟩
  flagAccount := Gate.absentAccount
  extraMetas := Gate.absentAccount
  issuerProgram := Gate.absentAccount
  sasProgram := Gate.absentAccount
  credential := Gate.absentAccount
  schema := Gate.absentAccount
  accounts := c.ownerAccounts d p wallet

theorem Cluster.holder_runs (p : Gate.GatePolicy) (wallet : Pubkey) :
    c.Runs d p (c.runtime d) (c.holder d p wallet) (Gate.policyAccount p) :=
  ⟨rfl, (Bool.not_not _).symm, Gate.policyAccount_isPolicyOf p, rfl⟩

/-- The check of one wallet, in terms of the calls on the registry. -/
theorem check_refused (r : (storage entryAccounts P).Run h st) {e : MintEntry} {p : Gate.GatePolicy} {wallet : Pubkey}
    (hc : c.HasEntries d P st p.mint wallet) (hissuer : p.issuerProgram = sssTokenId) (hpolicy : e.policy = .of p)
    (hmint : e.mint = p.mint) (he : e.Derived d) (trigger : Trigger) (observedAt : Nat) (slot : Option Nat) :
    ∃ js calls, check d c e (some [wallet]) trigger observedAt slot = .ok (js, calls) ∧
      (∀ call ∈ calls, call.mint = p.mint ∧ call.owner = wallet) ∧
      ∀ ta : Pubkey, (∃ call ∈ calls, call.tokenAccount = ta) ↔
        e.accounts.lookup ta = some ⟨wallet, .initialized⟩ ∧ c.thawed ta ∧ ¬CredentialMalformed P h d c p wallet ∧
          Refused P h d c p wallet := by
  obtain ⟨js, calls, hcheck, hcalls, hfreezes⟩ :=
    check_freezes (c := c) hpolicy hmint he (some [wallet]) trigger observedAt slot
  have howner (call : FreezeCall) (hcall : call ∈ calls) : call.owner = wallet := by
    have htarget := List.mem_of_mem_filter (hcalls call hcall).2
    rwa [Option.getD_some, List.mem_singleton] at htarget
  refine ⟨js, calls, hcheck, fun call hcall => ⟨(hcalls call hcall).1, howner call hcall⟩, fun ta => ?_⟩
  have hallowed := (c.holder d p wallet).freeze_allowed_iff (c.runtime d) (Gate.policyAccount_isPolicyOf p)
  have hfreezes := hfreezes (c.holder_runs p wallet) (reasonReadable r hc hissuer) ta
  rw [hallowed] at hfreezes
  rw [← unreadable_iff_malformed r hc hissuer, ← flagged_iff_refused r hc hissuer]
  constructor
  · rintro ⟨call, hcall, hta⟩
    exact (hfreezes.1 ⟨call, hcall, hta, howner call hcall⟩).2
  · intro hboth
    have htarget : wallet ∈ e.targets (some [wallet]) :=
      List.mem_filter.2 ⟨List.mem_singleton_self wallet, (List.mem_filter.1 (mem_targets_none hboth.1)).2⟩
    obtain ⟨call, hcall, hta, -⟩ := hfreezes.2 ⟨htarget, hboth⟩
    exact ⟨call, hcall, hta⟩

/-- **From an event to a freeze.** The logs of a transaction set off one check for each event that puts a wallet on the
blacklist or takes it off the allowlist of a tracked mint, and no other: those of the instructions `h₂`, in their order,
if these emitted its events. Such a check asks for the freeze of a token
account if and only if the index and the cluster have it as a thawed account of the wallet, the calls on the registry so
far or the wallet's credential make the policy refuse the wallet, and the credential it asks for is not malformed. -/
theorem announced_freezes (r : (storage entryAccounts P).Run h st) {labels : List HolderLabel} {idx : Holders}
    (ri : ((holders d).restrict (TimelyStep d)).Run labels idx) {t : Transcript} {events : List Event}
    (ht : Reports t (programId sssTokenId) events) :
    ∃ requests, onIssuerLogs idx.index sssTokenId t.lines false = .ok requests ∧
      requests = (events.filterMap issuerEvent).filterMap (idx.index.requestFor sssTokenId) ∧
      (∀ {h₁ h₂ : List Token.Label} {st₁ st₂ : Stored entryAccounts W}, (storage entryAccounts P).Run h₁ st₁ →
        (storage entryAccounts P).Path st₁ h₂ st₂ → st₂.state.events = events.reverse ++ st₁.state.events →
        requests = (h₂.reverse.filterMap announced).filterMap (idx.index.requestFor sssTokenId)) ∧
      ∀ q ∈ requests, ∀ {e p}, idx.index.entryOf q.mint = some e → e.policy = .of p → p.mint = q.mint →
        c.HasEntries d P st q.mint q.wallet → ∀ (observedAt slot : Nat),
        ∃ js calls, check d c e (some [q.wallet]) q.trigger observedAt (some slot) = .ok (js, calls) ∧
          (∀ call ∈ calls, call.mint = q.mint ∧ call.owner = q.wallet) ∧
          ∀ ta : Pubkey, (∃ call ∈ calls, call.tokenAccount = ta) ↔
            e.accounts.lookup ta = some ⟨q.wallet, .initialized⟩ ∧ c.thawed ta ∧
              ¬CredentialMalformed P h d c p q.wallet ∧ Refused P h d c p q.wallet := by
  refine ⟨_, onIssuerLogs_eq ht idx.index, rfl, ?_, ?_⟩
  · intro h₁ h₂ st₁ st₂ r₁ path hemitted
    obtain ⟨new, hnew, hannounced⟩ := path_announces r₁ path
    obtain rfl := List.append_cancel_right (hnew.symm.trans hemitted)
    rw [List.filterMap_reverse] at hannounced
    rw [List.filterMap_reverse, ← hannounced, List.reverse_reverse]
  intro q hq e p he hpolicy hmint hc observedAt slot
  obtain ⟨event, -, hevent⟩ := List.mem_filterMap.1 hq
  obtain ⟨e', he', hissuer, rfl⟩ := requestFor_eq_some.1 hevent
  obtain rfl := Option.some.inj (he'.symm.trans he)
  obtain ⟨id, hid, hentry⟩ := HolderIndex.entryOf_eq_some.1 he
  have hsame := (wellFormed_of_reachable ri.of_restrict.reachable).mint_eq hid hentry
  rw [hpolicy] at hissuer
  have hderived := derived_of_timely ri event.mint e' he
  dsimp only at hmint hc ⊢
  rw [← hmint] at hc hsame ⊢
  exact check_refused r hc hissuer hpolicy hsame.symm hderived _ observedAt (some slot)

end freezes

/-- Mint 2 under a policy that checks the blacklist, and the thawed account 6 of wallet 5. -/
def blacklistPolicy : Gate.GatePolicy := { Gate.samplePolicy with mint := sampleKey 2, requireSas := false }

def trackedSample : Holders :=
  let index : HolderIndex := ⟨[], ∅, fun _ => ∅⟩
  let index := index.reload (sampleKey 3) (.of blacklistPolicy)
  ⟨index.observe 0 (.listing 1 [(sampleKey 6, ⟨sampleKey 5, .initialized⟩)]), []⟩

theorem trackedSample_run : ((holders sampleDerivation).restrict (TimelyStep sampleDerivation)).Run
    [.observed 0 (.listing 1 [(sampleKey 6, ⟨sampleKey 5, .initialized⟩)]),
      .reload (sampleKey 3) (.of blacklistPolicy)] trackedSample := by
  have r₀ : ((holders sampleDerivation).restrict (TimelyStep sampleDerivation)).Run [] ⟨⟨[], ∅, fun _ => ∅⟩, []⟩ :=
    .start rfl
  have r₁ := r₀.step (e := .reload (sampleKey 3) (.of blacklistPolicy)) ⟨.of_ne nofun, HolderStep.reload ..⟩
  exact r₁.step (e := .observed 0 (.listing 1 [(sampleKey 6, ⟨sampleKey 5, .initialized⟩)]))
    ⟨.of_ne nofun, HolderStep.observed _ _ _ (Nat.lt_succ_self 0)⟩

def blacklistedEvent : Event := .addedToBlacklist (sampleKey 2) (sampleKey 5) .empty (sampleKey 7) 70

/-- `add_to_blacklist` logs its name and emits its event. -/
def blacklistedTranscript : Transcript :=
  [⟨programId sssTokenId,
    .line (.log "Instruction: AddToBlacklist".toList) (.line (.data [blacklistedEvent.bytes]) .done), none⟩]

theorem blacklistedTranscript_reports :
    Reports blacklistedTranscript (programId sssTokenId) [blacklistedEvent] := by
  refine ⟨?_, ?_⟩
  · have hentries : blacklistedTranscript.entries = [(.invoke (programId sssTokenId) 1, []),
        (.line (.log "Instruction: AddToBlacklist".toList), [programId sssTokenId]),
        (.line (.data [blacklistedEvent.bytes]), [programId sssTokenId]),
        (.exit (programId sssTokenId) none, [programId sssTokenId])] := rfl
    have hdata : dataIn (programId sssTokenId)
        (.line (.data [blacklistedEvent.bytes]), [programId sssTokenId]) = some [blacklistedEvent.bytes] := by
      unfold dataIn
      exact if_pos rfl
    rw [hentries, List.filterMap_cons_none rfl, List.filterMap_cons_none rfl, List.filterMap_cons_some hdata]
    rfl
  · intro l hl
    have hinner : blacklistedTranscript.inner =
        [.log "Instruction: AddToBlacklist".toList, .data [blacklistedEvent.bytes]] := rfl
    rw [hinner, List.mem_cons, List.mem_singleton] at hl
    rcases hl with rfl | rfl
    · exact .inl (by decide)
    · exact .inr ⟨_, rfl⟩

/-- The cluster with that entry's data. -/
def blacklistedCluster (entry : Bytes) : Cluster where
  accounts := ((∅ : Map Pubkey RawAccount).insert
    (sampleDerivation.blacklistPda sssTokenId (sampleKey 2) (sampleKey 5)) ⟨sssTokenId, entry⟩).insert (sampleKey 6)
      ⟨token2022Id, (sampleKey 2).1 ++ (sampleKey 5).1 ++ List.replicate 44 0 ++ [1] ++ List.replicate 56 0⟩
  now := 1000

theorem blacklistedCluster_account_ne (entry : Bytes) {k : Pubkey}
    (hentry : k ≠ sampleDerivation.blacklistPda sssTokenId (sampleKey 2) (sampleKey 5)) (htoken : k ≠ sampleKey 6) :
    (blacklistedCluster entry).account k = none :=
  (AList.lookup_insert_ne htoken).trans ((AList.lookup_insert_ne hentry).trans rfl)

theorem blacklistedSample_vacant :
    Hook.blacklistedSample.ledger.allowlist (bank.canonical (.allowlist (sampleKey 2) (sampleKey 5))) = none := by
  decide +kernel

theorem blacklistedSample_lastCall {h : List Token.Label} (r : (machine bank).Run h Hook.blacklistedSample) :
    lastCall (bank.canonical (.blacklist (sampleKey 2) (sampleKey 5))) h = some true := by
  have hactive : Hook.blacklistedSample.ledger.entryActive (bank.canonical (.blacklist (sampleKey 2) (sampleKey 5))) =
      some true := by
    decide +kernel
  rwa [entryActive_eq_lastCall r] at hactive

theorem blacklistedCluster_hasEntries {h : List Token.Label} {st : Stored entryAccounts Bank}
    (r : (storage entryAccounts bank).Run h st) (hst : st.loaded = Hook.blacklistedSample) :
    (blacklistedCluster (st.data (bank.canonical (.blacklist (sampleKey 2) (sampleKey 5))))).HasEntries
      sampleDerivation bank st (sampleKey 2) (sampleKey 5) := by
  have hblack (entry : Bytes) : (blacklistedCluster entry).account
      (sampleDerivation.blacklistPda sssTokenId (sampleKey 2) (sampleKey 5)) = some ⟨sssTokenId, entry⟩ :=
    (AList.lookup_insert_ne (by decide +kernel)).trans (AList.lookup_insert _)
  have hallow (entry : Bytes) : (blacklistedCluster entry).account
      (sampleDerivation.allowlistPda sssTokenId (sampleKey 2) (sampleKey 5)) = none :=
    blacklistedCluster_account_ne entry (by decide +kernel) (by decide +kernel)
  constructor
  · rw [Cluster.info, hblack]
    exact ⟨rfl, fun _ => rfl⟩
  · obtain ⟨-, hnone⟩ | ⟨entry, hsome, -⟩ := allowlist_lastCall r (sampleKey 2) (sampleKey 5)
    · rw [Cluster.info, hallow]
      exact ⟨hnone.symm, fun hne => absurd rfl hne⟩
    · have hloaded : st.loaded.ledger.allowlist (bank.canonical (.allowlist (sampleKey 2) (sampleKey 5))) =
          some entry := hsome
      rw [hst, blacklistedSample_vacant] at hloaded
      cases hloaded

theorem trackedSample_entry : ∃ e, trackedSample.index.entryOf (sampleKey 2) = some e ∧
    e.policy = .of blacklistPolicy ∧ e.accounts.lookup (sampleKey 6) = some ⟨sampleKey 5, .initialized⟩ := by
  have htracked : (trackedSample.index.entryOf (sampleKey 2)).any fun e =>
      decide (e.policy = .of blacklistPolicy ∧ e.accounts.lookup (sampleKey 6) = some ⟨sampleKey 5, .initialized⟩) := by
    decide +kernel
  obtain ⟨e, he, hentry⟩ := (Option.any_eq_true _ _).1 htracked
  rw [decide_eq_true_eq] at hentry
  exact ⟨e, he, hentry⟩

theorem announced_freezes_sample : ∃ (c : Cluster) (e : MintEntry) (requests : List CheckRequest) (js : List Judgement)
    (calls : List FreezeCall),
    onIssuerLogs trackedSample.index sssTokenId blacklistedTranscript.lines false = .ok requests ∧
      requests = [⟨sampleKey 2, sampleKey 5, .blacklist⟩] ∧
      check sampleDerivation c e (some [sampleKey 5]) .blacklist 0 (some 0) = .ok (js, calls) ∧
      ∃ call ∈ calls, call.tokenAccount = sampleKey 6 := by
  obtain ⟨h, r⟩ := Hook.blacklistedSample_reachable
  obtain ⟨st, rst, hst⟩ := Stored.of_run entryAccounts r
  let c := blacklistedCluster (st.data (bank.canonical (.blacklist (sampleKey 2) (sampleKey 5))))
  obtain ⟨requests, hlogs, hrequests, -, hchecks⟩ :=
    announced_freezes (c := c) rst trackedSample_run blacklistedTranscript_reports
  have hrequest : requests = [⟨sampleKey 2, sampleKey 5, .blacklist⟩] := hrequests.trans (by decide +kernel)
  obtain ⟨e, he, hpolicy, haccount⟩ := trackedSample_entry
  obtain ⟨js, calls, hcheck, -, hfreezes⟩ := hchecks ⟨sampleKey 2, sampleKey 5, .blacklist⟩
    (hrequest ▸ List.mem_singleton_self _) he hpolicy rfl (blacklistedCluster_hasEntries rst hst) 0 0
  refine ⟨c, e, requests, js, calls, hlogs, hrequest, hcheck, (hfreezes (sampleKey 6)).2 ⟨haccount, ?_, ?_, ?_⟩⟩
  · have htoken : c.account (sampleKey 6) = some ⟨token2022Id,
        (sampleKey 2).1 ++ (sampleKey 5).1 ++ List.replicate 44 0 ++ [1] ++ List.replicate 56 0⟩ :=
      AList.lookup_insert _
    unfold Cluster.thawed Cluster.token readToken
    rw [htoken]
    decide +kernel
  · intro hmalformed
    cases hmalformed.1.1
  · exact .inl ⟨rfl, blacklistedSample_lastCall r⟩

end ThawGate.Keeper
