import ThawGate.Token.Authority
import ThawGate.Token.Circulation
import ThawGate.Token.Entries
import ThawGate.Token.ReserveBytes

/-!
# The ledger out of the events

Whoever has every event that sss-token emitted has its registry, its pause states, its reserve attestations and its
configs: `replay` builds a ledger from the events alone, and `ledger_replayed` says that it is the real one after every
run. Roles and quotas are in no event, nor are a config's URI and two of its flags.
-/

namespace ThawGate.Token

open Borsh Exec Function

variable {W : Type} {P : Programs W} {now : Int64} {s s' : State W}

/-- A config without what no event tells of it. -/
def StablecoinConfig.announced (c : StablecoinConfig) : StablecoinConfig :=
  { c with uri := .empty, enableConfidentialTransfers := false, enableAllowlist := false }

/-- What is at the address, changed. -/
def alter {α : Type} (f : Pda → Option α) (a : Pda) (g : α → α) : Pda → Option α := update f a ((f a).map g)

theorem alter_eq {α : Type} {f : Pda → Option α} {a : Pda} {x : α} (h : f a = some x) (g : α → α) :
    alter f a g = update f a (some (g x)) := by
  rw [alter, h, Option.map_some]

/-! ### The events, applied -/

section apply

variable (P) (l : Ledger)

def Ledger.alterConfig (mint : Pubkey) (g : StablecoinConfig → StablecoinConfig) : Ledger :=
  { l with configs := alter l.configs (P.canonical (.config mint)) g }

/-- What a listener makes of one event, given what it made of those before. -/
def Event.apply : Event → Ledger
  | .stablecoinInitialized mint authority name symbol decimals permanentDelegate transferHook frozen _ mode =>
    (l.setConfig (P.canonical (.config mint))
      { authority, mint, name, symbol, uri := .empty, decimals
        enablePermanentDelegate := permanentDelegate, enableTransferHook := transferHook
        defaultAccountFrozen := frozen, enableConfidentialTransfers := false, enableAllowlist := false
        paused := false, totalMinted := 0, totalBurned := 0
        bump := P.canonicalBump (.config mint), complianceMode := mode }).setPause (P.canonical (.pause mint))
      ⟨mint, false, 0, .default, P.canonicalBump (.pause mint)⟩
  | .tokensMinted mint _ amount _ _ => l.alterConfig P mint fun c => { c with totalMinted := c.totalMinted + amount }
  | .tokensBurned mint amount _ _ | .tokensSeized mint _ _ amount _ _ =>
    l.alterConfig P mint fun c => { c with totalBurned := c.totalBurned + amount }
  | .tokensPaused mint operator timestamp =>
    (l.alterConfig P mint fun c => { c with paused := true }).setPause (P.canonical (.pause mint))
      ⟨mint, true, timestamp, operator, P.canonicalBump (.pause mint)⟩
  | .tokensUnpaused mint operator timestamp =>
    (l.alterConfig P mint fun c => { c with paused := false }).setPause (P.canonical (.pause mint))
      ⟨mint, false, timestamp, operator, P.canonicalBump (.pause mint)⟩
  | .authorityTransferred mint _ newAuthority _ => l.alterConfig P mint fun c => { c with authority := newAuthority }
  | .addedToBlacklist mint target reason operator timestamp =>
    l.setBlacklist (P.canonical (.blacklist mint target))
      ⟨mint, target, reason, timestamp, operator, true, P.canonicalBump (.blacklist mint target)⟩
  | .removedFromBlacklist mint target _ _ =>
    { l with blacklist := alter l.blacklist (P.canonical (.blacklist mint target)) ({ · with active := false }) }
  | .allowlistAdded mint wallet timestamp =>
    l.setAllowlist (P.canonical (.allowlist mint wallet))
      ⟨mint, wallet, timestamp, true, P.canonicalBump (.allowlist mint wallet)⟩
  | .allowlistRemoved mint wallet _ =>
    { l with allowlist := alter l.allowlist (P.canonical (.allowlist mint wallet)) ({ · with active := false }) }
  | .reserveAttestorSet mint attestor maxStaleness reset _ =>
    let a := P.canonical (.reserve mint)
    let att := (l.reserves a).getD .zeroed
    let att := { att with mint, attestor, maxStaleness, bump := a.bump }
    l.setReserve a (if reset then { att with reserves := 0, asOf := 0, reportUri := .empty, postedAt := 0 } else att)
  | .reservesAttested mint _ reserves asOf reportUri timestamp =>
    { l with
      reserves := alter l.reserves (P.canonical (.reserve mint))
        ({ · with reserves, asOf, reportUri, postedAt := timestamp }) }
  | .accountFrozen .. | .accountThawed .. | .tokenAclEnabled .. | .confidentialAccountConfigured ..
  | .pendingBalanceApplied .. => l

end apply

/-- The ledger that the events, newest first, come to. -/
def replay (P : Programs W) (events : List Event) : Ledger := events.foldr (fun e l => e.apply P l) .empty

theorem replay_cons (e : Event) (events : List Event) : replay P (e :: events) = e.apply P (replay P events) := rfl

/-- `told` is the ledger, but for what no event tells. -/
structure Ledger.ToldAs (l told : Ledger) : Prop where
  configs : ∀ a, told.configs a = (l.configs a).map StablecoinConfig.announced
  pauses : told.pauses = l.pauses
  blacklist : told.blacklist = l.blacklist
  allowlist : told.allowlist = l.allowlist
  reserves : told.reserves = l.reserves

/-! ### What each instruction emits -/

section steps

variable {l l' told : Ledger} {a : Pda}

namespace Ledger.ToldAs

theorem empty : Ledger.empty.ToldAs .empty := ⟨fun _ => rfl, rfl, rfl, rfl, rfl⟩

/-- The kinds that are no part of it may change. -/
theorem of_eq (h : l.ToldAs told) (hc : l'.configs = l.configs) (hp : l'.pauses = l.pauses)
    (hb : l'.blacklist = l.blacklist) (ha : l'.allowlist = l.allowlist) (hr : l'.reserves = l.reserves) :
    l'.ToldAs told := by
  refine ⟨?_, ?_, ?_, ?_, ?_⟩
  · rw [hc]
    exact h.configs
  · rw [hp, h.pauses]
  · rw [hb, h.blacklist]
  · rw [ha, h.allowlist]
  · rw [hr, h.reserves]

theorem alterConfig (h : l.ToldAs told) {c : StablecoinConfig} (c' : StablecoinConfig) (hc : l.configs a = some c)
    (ha : a = P.canonical (.config c.mint)) {g : StablecoinConfig → StablecoinConfig}
    (hg : g c.announced = c'.announced) : (l.setConfig a c').ToldAs (told.alterConfig P c.mint g) := by
  refine ⟨fun b => ?_, h.pauses, h.blacklist, h.allowlist, h.reserves⟩
  have htold : told.configs (P.canonical (.config c.mint)) = some c.announced := by
    rw [h.configs, ← ha, hc, Option.map_some]
  show alter told.configs _ g b = (update l.configs a (some c') b).map _
  rw [alter_eq htold, ← ha, hg]
  by_cases hb : b = a
  · rw [hb, update_self, update_self, Option.map_some]
  · rw [update_of_ne hb, update_of_ne hb]
    exact h.configs b

theorem setConfig (h : l.ToldAs told) (c : StablecoinConfig) :
    (l.setConfig a c).ToldAs (told.setConfig a c.announced) := by
  refine ⟨fun b => ?_, h.pauses, h.blacklist, h.allowlist, h.reserves⟩
  show update told.configs a _ b = (update l.configs a _ b).map _
  by_cases hb : b = a
  · rw [hb, update_self, update_self, Option.map_some]
  · rw [update_of_ne hb, update_of_ne hb]
    exact h.configs b

theorem setPause (h : l.ToldAs told) (p : PauseState) : (l.setPause a p).ToldAs (told.setPause a p) := by
  refine ⟨h.configs, ?_, h.blacklist, h.allowlist, h.reserves⟩
  show update told.pauses a _ = update l.pauses a _
  rw [h.pauses]

theorem setBlacklist (h : l.ToldAs told) (e : BlacklistEntry) :
    (l.setBlacklist a e).ToldAs (told.setBlacklist a e) := by
  refine ⟨h.configs, h.pauses, ?_, h.allowlist, h.reserves⟩
  show update told.blacklist a _ = update l.blacklist a _
  rw [h.blacklist]

theorem setAllowlist (h : l.ToldAs told) (e : AllowlistEntry) :
    (l.setAllowlist a e).ToldAs (told.setAllowlist a e) := by
  refine ⟨h.configs, h.pauses, h.blacklist, ?_, h.reserves⟩
  show update told.allowlist a _ = update l.allowlist a _
  rw [h.allowlist]

theorem setReserve (h : l.ToldAs told) (t : ReserveAttestation) :
    (l.setReserve a t).ToldAs (told.setReserve a t) := by
  refine ⟨h.configs, h.pauses, h.blacklist, h.allowlist, ?_⟩
  show update told.reserves a _ = update l.reserves a _
  rw [h.reserves]

theorem alterBlacklist (h : l.ToldAs told) {e e' : BlacklistEntry} (he : l.blacklist a = some e) {b : Pda}
    (ha : a = b) {g : BlacklistEntry → BlacklistEntry} (hg : g e = e') :
    (l.setBlacklist a e').ToldAs { told with blacklist := alter told.blacklist b g } := by
  subst ha
  rw [← h.blacklist] at he
  rw [alter_eq he, hg]
  exact h.setBlacklist e'

theorem alterAllowlist (h : l.ToldAs told) {e e' : AllowlistEntry} (he : l.allowlist a = some e) {b : Pda}
    (ha : a = b) {g : AllowlistEntry → AllowlistEntry} (hg : g e = e') :
    (l.setAllowlist a e').ToldAs { told with allowlist := alter told.allowlist b g } := by
  subst ha
  rw [← h.allowlist] at he
  rw [alter_eq he, hg]
  exact h.setAllowlist e'

theorem alterReserve (h : l.ToldAs told) {t t' : ReserveAttestation} (ht : l.reserves a = some t) {b : Pda}
    (ha : a = b) {g : ReserveAttestation → ReserveAttestation} (hg : g t = t') :
    (l.setReserve a t').ToldAs { told with reserves := alter told.reserves b g } := by
  subst ha
  rw [← h.reserves] at ht
  rw [alter_eq ht, hg]
  exact h.setReserve t'

end Ledger.ToldAs

theorem setMintPaused_ok {x : PauseOrUnpause} {c : StablecoinConfig} {paused : Bool} {sw : State W}
    (h : setMintPaused P s x c paused = ok sw) : ∃ w, sw = { s with world := w } := by
  unfold setMintPaused at h
  split_ifs at h
  · obtain ⟨w, -, rfl⟩ := cpi_eq_ok.1 h
    exact ⟨w, rfl⟩
  · obtain rfl := Exec.ok.inj h
    exact ⟨s.world, rfl⟩

theorem eq_add_of_checkedAdd {a b c : UInt64} (h : checkedAdd a b = some c) : c = a + b := by
  unfold checkedAdd at h
  split_ifs at h
  exact (Option.some.inj h).symm

/-- What `set_reserve_attestor` announces as a reset is one. -/
theorem setReserveAttestorHandler_told {x : SetReserveAttestor} {attestor : Pubkey} {maxStaleness : Int64}
    (h : setReserveAttestorHandler P now s x attestor maxStaleness = ok s') :
    ∃ att, initIfNeeded P s.ledger s.ledger.reserves x.reserveAttestation (.reserve x.mint) .zeroed = ok att ∧
      s' = s.commit (s.ledger.setReserve x.reserveAttestation
        (att.setAttestor x.mint attestor maxStaleness x.reserveAttestation.bump))
        (some (.reserveAttestorSet x.mint attestor maxStaleness
          (decide (att.mint = .default ∨ att.attestor ≠ attestor)) now)) := by
  simp only [setReserveAttestorHandler, bind_eq_ok, require_eq_ok, exists_const, pure_eq, Exec.ok.injEq] at h
  obtain ⟨c, -, -, r, -, att, hatt, -, -, hs⟩ := h
  exact ⟨att, hatt, hs.symm⟩

/-- The ledger is what the events tell, and its accounts are at their canonical addresses. -/
structure State.Replayed (P : Programs W) (s : State W) : Prop where
  told : s.ledger.ToldAs (replay P s.events)
  authorities : s.ledger.Authorities P
  addressed : s.ledger.Addressed P
  reserves : s.ledger.ReservesAt P

namespace State.Replayed

theorem setPaused (h : s.Replayed P) {paused : Bool} {refused : SssError} {event : Pubkey → Pubkey → Int64 → Event}
    {x : PauseOrUnpause} (hx : handlerSetPaused paused refused event P now s x = ok s')
    (hevent : ∀ mint told, (event mint x.operator now).apply P told =
      (told.alterConfig P mint ({ · with paused })).setPause (P.canonical (.pause mint))
        ⟨mint, paused, now, x.operator, P.canonicalBump (.pause mint)⟩) :
    s'.ledger.ToldAs (replay P s'.events) := by
  obtain ⟨c, p, r, sw, hc, -, hp, -, -, -, hsw, rfl⟩ := handlerSetPaused_ok hx
  obtain ⟨w, rfl⟩ := setMintPaused_ok hsw
  obtain ⟨hconfig, hat⟩ := h.authorities.configAccount hc
  obtain ⟨hpause, haddr⟩ := pauseAccount_eq_ok.1 hp
  have hcanonical := h.addressed.pauses hpause
  have hmint : c.mint = p.mint := by
    rw [haddr] at hcanonical
    exact Seeds.pause.inj (congrArg Pda.seeds hcanonical)
  show Ledger.ToldAs _ ((event c.mint x.operator now).apply P (replay P s.events))
  rw [hevent, hmint, ← hcanonical]
  have hbump : p.bump = P.canonicalBump (.pause p.mint) := by
    rw [haddr] at hcanonical
    exact congrArg Pda.bump hcanonical
  have hconfigs := h.told.alterConfig { c with paused } hconfig hat (g := ({ · with paused })) rfl
  rw [hmint] at hconfigs
  rw [← hbump]
  exact hconfigs.setPause _

/-- **Step.** -/
theorem told_exec (h : s.Replayed P) {ix : Instruction} (hx : exec P now s ix = ok s') :
    s'.ledger.ToldAs (replay P s'.events) := by
  cases ix with
  | initializeStablecoin x args =>
    obtain ⟨⟨hconfig, -⟩, ⟨hpause, -⟩, -, _, _, -, -, rfl⟩ := initializeHandler_ok hx
    have hboth : ((s.ledger.setConfig x.config (initializeConfig P x args)).setPause x.pauseState
        (initializePauseState P x)).ToldAs ((x.event now args).apply P (replay P s.events)) := by
      rw [hconfig, hpause]
      exact (h.told.setConfig _).setPause _
    exact hboth.of_eq rfl rfl rfl rfl rfl
  | mintTokens x amount =>
    obtain ⟨c, q, m, hm⟩ := mintHandler_ok hx
    obtain ⟨used, total, -, htotal, hledger⟩ := hm.wrote
    obtain ⟨hc, hat⟩ := h.authorities.configAccount hm.config
    rw [hledger, hm.emitted, replay_cons]
    have hconfigs := h.told.alterConfig { c with totalMinted := total } hc hat
      (g := fun c => { c with totalMinted := c.totalMinted + amount }) (by rw [eq_add_of_checkedAdd htotal]; rfl)
    exact hconfigs.of_eq rfl rfl rfl rfl rfl
  | burnTokens x amount =>
    obtain ⟨c, p, w, total, hc, -, -, -, -, htotal, rfl⟩ := burnHandler_ok hx
    obtain ⟨hc, hat⟩ := h.authorities.configAccount hc
    exact h.told.alterConfig _ hc hat (g := fun c => { c with totalBurned := c.totalBurned + amount })
      (by rw [eq_add_of_checkedAdd htotal]; rfl)
  | freezeAccount x | thawAccount x =>
    obtain ⟨_, _, _, _, _, _, -, -, -, -, -, -, -, rfl⟩ := handlerFreezeOrThaw_ok hx
    exact h.told
  | pause x => exact h.setPaused hx fun _ _ => rfl
  | unpause x => exact h.setPaused hx fun _ _ => rfl
  | updateMinter x minter limit period =>
    obtain ⟨_, _, -, -, -, -, rfl⟩ := handlerUpdateMinter_ok hx
    exact h.told.of_eq rfl rfl rfl rfl rfl
  | updateRoles x holder role active =>
    obtain ⟨_, _, -, -, -, -, rfl⟩ := handlerUpdateRoles_ok hx
    exact h.told.of_eq rfl rfl rfl rfl rfl
  | transferAuthority x newAuthority =>
    obtain ⟨c, r, hc, -, -, -, rfl⟩ := handlerTransferAuthority_ok hx
    obtain ⟨hc, hat⟩ := h.authorities.configAccount hc
    have hconfigs := h.told.alterConfig { c with authority := newAuthority } hc hat
      (g := fun c => { c with authority := newAuthority }) rfl
    exact hconfigs.of_eq rfl rfl rfl rfl rfl
  | addToBlacklist x reason =>
    obtain ⟨c, r, e, w, -, -, he, -, -, rfl⟩ := handlerAddToBlacklist_ok hx
    rw [(initIfNeeded_eq_ok he).1]
    exact h.told.setBlacklist _
  | removeFromBlacklist x =>
    obtain ⟨c, r, e, -, -, he, -, haddr, rfl⟩ := handlerRemoveFromBlacklist_ok hx
    have hcanonical : x.blacklistEntry = P.canonical (.blacklist c.mint x.target) := by
      have hat := h.addressed.blacklist he
      have hseeds := congrArg Pda.seeds hat
      rw [haddr] at hseeds
      rw [hat, ← Seeds.blacklist.inj hseeds |>.1, ← Seeds.blacklist.inj hseeds |>.2]
    exact h.told.alterBlacklist he hcanonical rfl
  | seize x =>
    obtain ⟨c, m, t, p, w₁, w₂, hz⟩ := seizeHandler_ok hx
    obtain ⟨total, htotal, hledger⟩ := hz.wrote
    obtain ⟨hc, hat⟩ := h.authorities.configAccount hz.config
    rw [hledger, hz.emitted, replay_cons]
    exact h.told.alterConfig _ hc hat (g := fun c => { c with totalBurned := c.totalBurned + t.amount })
      (by rw [eq_add_of_checkedAdd htotal]; rfl)
  | enableTokenAcl x policy =>
    obtain ⟨_, _, _, -, -, -, -, -, rfl⟩ := enableTokenAclHandler_ok hx
    exact h.told
  | setReserveAttestor x attestor maxStaleness =>
    obtain ⟨att, hatt, rfl⟩ := setReserveAttestorHandler_told hx
    obtain ⟨ha, hheld⟩ := initIfNeeded_eq_ok hatt
    have hfound : ((replay P s.events).reserves x.reserveAttestation).getD .zeroed = att := by
      rw [h.told.reserves]
      obtain hheld | ⟨hnone, -, rfl⟩ := hheld
      · rw [hheld, Option.getD_some]
      · rw [hnone, Option.getD_none]
    have happly : (Event.reserveAttestorSet x.mint attestor maxStaleness
        (decide (att.mint = .default ∨ att.attestor ≠ attestor)) now).apply P (replay P s.events) =
        (replay P s.events).setReserve x.reserveAttestation
          (att.setAttestor x.mint attestor maxStaleness x.reserveAttestation.bump) := by
      rw [← hfound, ha]
      simp only [Event.apply, ReserveAttestation.setAttestor, decide_eq_true_eq]
    have hboth := h.told.setReserve (a := x.reserveAttestation)
      (att.setAttestor x.mint attestor maxStaleness x.reserveAttestation.bump)
    rw [← happly] at hboth
    exact hboth
  | attestReserves x reserves asOf reportUri =>
    obtain ⟨att, hatt, -, -, -, -, rfl⟩ := attestReservesHandler_ok hx
    exact h.told.alterReserve hatt (h.reserves _ att hatt).1 rfl
  | addToAllowlistV3 x =>
    obtain ⟨c, e, -, he, -, rfl⟩ := addToAllowlistHandler_ok hx
    rw [(initIfNeeded_eq_ok he).1]
    exact h.told.setAllowlist _
  | removeFromAllowlistV3 x =>
    obtain ⟨c, e, -, he, -, -, rfl⟩ := removeFromAllowlistHandler_ok hx
    exact h.told.alterAllowlist he (h.addressed.allowlist he) rfl
  | configureConfidentialAccount x | applyPendingBalance x =>
    obtain ⟨_, -, -, rfl⟩ := confidentialHandler_ok hx
    exact h.told

end State.Replayed

end steps

/-! ### Over a run -/

/-- **Replay.** -/
theorem ledger_replayed (r : (machine P).Reachable s) : s.ledger.ToldAs (replay P s.events) := by
  obtain ⟨h, r⟩ := r
  refine r.invariant (I := fun _ s => s.ledger.ToldAs (replay P s.events)) ?_ ?_
  · intro s hs
    rw [hs.1, hs.2]
    exact .empty
  · intro h s e s' r hl hs
    cases hs with
    | succeeded hx =>
      have hrep : s.Replayed P := ⟨hl, .of_reachable r.reachable, .of_reachable r.reachable, .of_run r⟩
      exact hrep.told_exec hx
    | failed => exact hl
    | outside => exact hl

/-- A wallet is blacklisted and its tokens are seized: the events have both the entry and the counter. -/
theorem ledger_replayed_seized :
    let s := execAll vault ⟨.empty, .empty, []⟩ (blacklistedSample ++ [(.seize seizeSample, 90)])
    s.ledger.ToldAs (replay vault s.events) ∧
      ((replay vault s.events).blacklist (vault.canonical (.blacklist (sampleKey 2) (sampleKey 5)))).any (·.active) ∧
      ((replay vault s.events).configs (vault.canonical (.config (sampleKey 2)))).any
        (fun c => decide (0 < c.totalBurned)) :=
  ⟨ledger_replayed (execAll_reachable ⟨[], .start ⟨rfl, rfl⟩⟩), by decide +kernel, by decide +kernel⟩

end ThawGate.Token
