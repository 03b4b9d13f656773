import ThawGate.Lib.Run
import ThawGate.Token.Bank
import ThawGate.Token.Initialize
import ThawGate.Token.Roles
import ThawGate.Token.Supply
import ThawGate.Token.Compliance

/-!
# Runs of sss-token

The program as a transition system: an instruction with any accounts, arguments and signer, at any
clock value, succeeds and takes effect, or fails and changes nothing; between instructions the other
programs do as they like. `exec_configs`, `exec_roles` and `exec_reserves` say which instructions
write what: each invariant of runs is proved from one of them, not from the instructions.
-/

namespace ThawGate.Token

open Borsh Exec Function

inductive Instruction where
  | initializeStablecoin (x : Initialize) (args : InitializeArgs)
  | mintTokens (x : MintTokens) (amount : UInt64)
  | burnTokens (x : BurnTokens) (amount : UInt64)
  | freezeAccount (x : FreezeOrThaw)
  | thawAccount (x : FreezeOrThaw)
  | pause (x : PauseOrUnpause)
  | unpause (x : PauseOrUnpause)
  | updateMinter (x : UpdateMinter) (minter : Pubkey) (limit : UInt64) (period : QuotaPeriod)
  | updateRoles (x : UpdateRoles) (holder : Pubkey) (role : RoleType) (active : Bool)
  | transferAuthority (x : TransferAuthority) (newAuthority : Pubkey)
  | addToBlacklist (x : AddToBlacklist) (reason : Str)
  | removeFromBlacklist (x : RemoveFromBlacklist)
  | seize (x : Seize)
  | enableTokenAcl (x : EnableTokenAcl) (policy : GatePolicyConfig)
  | setReserveAttestor (x : SetReserveAttestor) (attestor : Pubkey) (maxStaleness : Int64)
  | attestReserves (x : AttestReserves) (reserves : UInt64) (asOf : Int64) (reportUri : Str)
  | addToAllowlistV3 (x : AddToAllowlist)
  | removeFromAllowlistV3 (x : RemoveFromAllowlist)
  | configureConfidentialAccount (x : ConfidentialAccount)
  | applyPendingBalance (x : ConfidentialAccount)
  deriving DecidableEq

variable {W : Type} {P : Programs W} {now : Int64} {s s' : State W}

def exec (P : Programs W) (now : Int64) (s : State W) : Instruction → Exec Failure (State W)
  | .initializeStablecoin x args => initializeHandler P now s x args
  | .mintTokens x amount => mintHandler P now s x amount
  | .burnTokens x amount => burnHandler P now s x amount
  | .freezeAccount x => handlerFreeze P now s x
  | .thawAccount x => handlerThaw P now s x
  | .pause x => handlerPause P now s x
  | .unpause x => handlerUnpause P now s x
  | .updateMinter x minter limit period => handlerUpdateMinter P now s x minter limit period
  | .updateRoles x holder role active => handlerUpdateRoles P now s x holder role active
  | .transferAuthority x newAuthority => handlerTransferAuthority P now s x newAuthority
  | .addToBlacklist x reason => handlerAddToBlacklist P now s x reason
  | .removeFromBlacklist x => handlerRemoveFromBlacklist now s x
  | .seize x => seizeHandler P now s x
  | .enableTokenAcl x policy => enableTokenAclHandler P now s x policy
  | .setReserveAttestor x attestor maxStaleness => setReserveAttestorHandler P now s x attestor maxStaleness
  | .attestReserves x reserves asOf reportUri => attestReservesHandler now s x reserves asOf reportUri
  | .addToAllowlistV3 x => addToAllowlistHandler P now s x
  | .removeFromAllowlistV3 x => removeFromAllowlistHandler now s x
  | .configureConfidentialAccount x => configureConfidentialAccountHandler now s x
  | .applyPendingBalance x => applyPendingBalanceHandler now s x

/-! ### The transition system -/

/-- What a step of a run was: an instruction, with its clock and whether it succeeded, or something
that other programs did on their own. -/
inductive Label where
  | tx (ix : Instruction) (now : Int64) (succeeded : Bool)
  | outside

inductive Step (P : Programs W) : State W → Label → State W → Prop
  | succeeded {s s' : State W} {ix : Instruction} {now : Int64} (h : exec P now s ix = ok s') :
    Step P s (.tx ix now true) s'
  | failed {s : State W} {ix : Instruction} {now : Int64} (h : ∀ s', exec P now s ix ≠ ok s') :
    Step P s (.tx ix now false) s
  | outside {s : State W} (w : W) : Step P s .outside { s with world := w }

/-- Runs start before any mint exists. -/
def machine (P : Programs W) : Lts (State W) Label where
  start s := s.ledger = .empty ∧ s.events = []
  step := Step P

/-- The state after some instructions, the failed ones skipped. -/
def execAll (P : Programs W) (s : State W) : List (Instruction × Int64) → State W
  | [] => s
  | (ix, now) :: rest =>
    match exec P now s ix with
    | ok s' => execAll P s' rest
    | _ => execAll P s rest

theorem execAll_append (s : State W) (txs txs' : List (Instruction × Int64)) :
    execAll P s (txs ++ txs') = execAll P (execAll P s txs) txs' := by
  induction txs generalizing s with
  | nil => rfl
  | cons tx rest ih =>
    obtain ⟨ix, now⟩ := tx
    cases hx : exec P now s ix <;> simp only [List.cons_append, execAll, hx, ih]

theorem execAll_reachable {txs : List (Instruction × Int64)} (h : (machine P).Reachable s) :
    (machine P).Reachable (execAll P s txs) := by
  induction txs generalizing s with
  | nil => exact h
  | cons tx rest ih =>
    obtain ⟨ix, now⟩ := tx
    cases hx : exec P now s ix with
    | ok s' =>
      simp only [execAll, hx]
      exact ih (h.step (.succeeded hx))
    | err e | panic =>
      simp only [execAll, hx]
      refine ih (h.step (e := .tx ix now false) (.failed fun s' hs => ?_))
      rw [hx] at hs
      contradiction

/-- The same among runs whose steps meet a condition, if it is met by these instructions. -/
theorem execAll_restrict {G : State W → Label → State W → Prop} {txs : List (Instruction × Int64)}
    (hG : ∀ tx ∈ txs, ∀ s b s', G s (.tx tx.1 tx.2 b) s') (h : ((machine P).restrict G).Reachable s) :
    ((machine P).restrict G).Reachable (execAll P s txs) := by
  induction txs generalizing s with
  | nil => exact h
  | cons tx rest ih =>
    obtain ⟨ix, now⟩ := tx
    have hhead := hG _ List.mem_cons_self
    have hrest : ∀ tx ∈ rest, ∀ s b s', G s (.tx tx.1 tx.2 b) s' := fun tx htx => hG tx (List.mem_cons_of_mem _ htx)
    cases hx : exec P now s ix with
    | ok s' =>
      simp only [execAll, hx]
      exact ih hrest (h.step ⟨hhead _ _ _, .succeeded hx⟩)
    | err e | panic =>
      simp only [execAll, hx]
      refine ih hrest (h.step (e := .tx ix now false) ⟨hhead _ _ _, .failed fun s' hs => ?_⟩)
      rw [hx] at hs
      contradiction

/-! ### A sample mint -/

def sampleStart : State Bank := ⟨.empty, .empty, []⟩

theorem sampleStart_reachable : (machine bank).Reachable sampleStart := ⟨[], .start ⟨rfl, rfl⟩⟩

/-- Key 1 initializes mint 2 in Hook mode, with the permanent delegate and the transfer hook. -/
def initializeSample : Instruction :=
  .initializeStablecoin
    { authority := sampleKey 1
      mint := sampleKey 2
      config := bank.canonical (.config (sampleKey 2))
      pauseState := bank.canonical (.pause (sampleKey 2))
      masterRole := bank.canonical (.role (sampleKey 2) (sampleKey 1) .masterAuthority)
      tokenProgram := token2022Id }
    ⟨.empty, .empty, .empty, 6, true, true, false, some hookId, false, false, complianceModeHook⟩

/-- Key 1 makes key 3 a minter of it. -/
def updateMinterSample (limit : UInt64) (period : QuotaPeriod) : Instruction :=
  .updateMinter
    { authority := sampleKey 1
      config := bank.canonical (.config (sampleKey 2))
      authorityRole := bank.canonical (.role (sampleKey 2) (sampleKey 1) .masterAuthority)
      minterRole := bank.canonical (.role (sampleKey 2) (sampleKey 3) .minter)
      minterQuota := bank.canonical (.quota (sampleKey 2) (sampleKey 3)) }
    (sampleKey 3) limit period

/-- Key 3's calls, to account 6 of wallet 5. -/
def mintSample : MintTokens where
  minter := sampleKey 3
  config := bank.canonical (.config (sampleKey 2))
  pauseState := bank.canonical (.pause (sampleKey 2))
  minterRole := bank.canonical (.role (sampleKey 2) (sampleKey 3) .minter)
  minterQuota := bank.canonical (.quota (sampleKey 2) (sampleKey 3))
  mint := sampleKey 2
  recipientTokenAccount := sampleKey 6
  recipient := sampleKey 5
  tokenProgram := token2022Id
  reserveAttestation := bank.canonical (.reserve (sampleKey 2))

/-! ### What an instruction writes -/

inductive AccountKind where
  | config
  | role
  | quota
  | pause
  | blacklist
  | allowlist
  | reserve
  deriving DecidableEq, Repr

/-- The kinds of account an instruction may write. -/
def Instruction.writes : Instruction → List AccountKind
  | .initializeStablecoin .. => [.config, .pause, .role]
  | .mintTokens .. => [.config, .quota]
  | .burnTokens .. | .seize .. => [.config]
  | .pause .. | .unpause .. => [.config, .pause]
  | .updateMinter .. => [.role, .quota]
  | .updateRoles .. => [.role]
  | .transferAuthority .. => [.config, .role]
  | .addToBlacklist .. | .removeFromBlacklist .. => [.blacklist]
  | .setReserveAttestor .. | .attestReserves .. => [.reserve]
  | .addToAllowlistV3 .. | .removeFromAllowlistV3 .. => [.allowlist]
  | .freezeAccount .. | .thawAccount .. | .enableTokenAcl .. | .configureConfidentialAccount ..
  | .applyPendingBalance .. => []

/-- The accounts of every other kind are the same. -/
structure Ledger.Frame (kinds : List AccountKind) (l l' : Ledger) : Prop where
  configs : .config ∉ kinds → l'.configs = l.configs
  roles : .role ∉ kinds → l'.roles = l.roles
  quotas : .quota ∉ kinds → l'.quotas = l.quotas
  pauses : .pause ∉ kinds → l'.pauses = l.pauses
  blacklist : .blacklist ∉ kinds → l'.blacklist = l.blacklist
  allowlist : .allowlist ∉ kinds → l'.allowlist = l.allowlist
  reserves : .reserve ∉ kinds → l'.reserves = l.reserves

theorem Ledger.Frame.of_eq {kinds : List AccountKind} {l l' : Ledger} (h : l' = l) : Frame kinds l l' := by
  subst h
  exact ⟨fun _ => rfl, fun _ => rfl, fun _ => rfl, fun _ => rfl, fun _ => rfl, fun _ => rfl, fun _ => rfl⟩

theorem handlerSetPaused_frame {paused : Bool} {refused : SssError}
    {event : Pubkey → Pubkey → Int64 → Event} {x : PauseOrUnpause}
    (h : handlerSetPaused paused refused event P now s x = ok s') :
    Ledger.Frame [.config, .pause] s.ledger s'.ledger := by
  obtain ⟨_, _, _, _, -, -, -, -, -, -, -, rfl⟩ := handlerSetPaused_ok h
  refine ⟨?_, ?_, ?_, ?_, ?_, ?_, ?_⟩ <;> intro hk <;> first | rfl | simp at hk

theorem handlerFreezeOrThaw_ledger {op : FreezeOp} {event : Pubkey → Pubkey → Pubkey → Int64 → Event}
    {x : FreezeOrThaw} (h : handlerFreezeOrThaw op event P now s x = ok s') : s'.ledger = s.ledger := by
  obtain ⟨_, _, _, _, _, _, -, -, -, -, -, -, -, rfl⟩ := handlerFreezeOrThaw_ok h
  rfl

theorem confidentialHandler_ledger {event : Pubkey → Pubkey → Pubkey → Int64 → Event}
    {x : ConfidentialAccount} (h : confidentialHandler event now s x = ok s') : s'.ledger = s.ledger := by
  obtain ⟨_, -, -, rfl⟩ := confidentialHandler_ok h
  rfl

/-- **Frame.** An instruction that succeeds writes no account outside its kinds. -/
theorem exec_frame {ix : Instruction} (h : exec P now s ix = ok s') :
    Ledger.Frame ix.writes s.ledger s'.ledger := by
  cases ix with
  | freezeAccount x | thawAccount x => exact .of_eq (handlerFreezeOrThaw_ledger h)
  | configureConfidentialAccount x | applyPendingBalance x => exact .of_eq (confidentialHandler_ledger h)
  | pause x | unpause x => exact handlerSetPaused_frame h
  | enableTokenAcl x policy =>
    obtain ⟨_, _, _, -, -, -, -, -, rfl⟩ := enableTokenAclHandler_ok h
    exact .of_eq rfl
  | initializeStablecoin x args =>
    obtain ⟨-, -, -, _, _, -, -, rfl⟩ := initializeHandler_ok h
    refine ⟨?_, ?_, ?_, ?_, ?_, ?_, ?_⟩ <;> intro hk <;> first | rfl | simp [Instruction.writes] at hk
  | mintTokens x amount =>
    obtain ⟨_, _, _, hm⟩ := mintHandler_ok h
    obtain ⟨_, _, -, -, hl⟩ := hm.wrote
    rw [hl]
    refine ⟨?_, ?_, ?_, ?_, ?_, ?_, ?_⟩ <;> intro hk <;> first | rfl | simp [Instruction.writes] at hk
  | burnTokens x amount =>
    obtain ⟨_, _, _, _, -, -, -, -, -, -, rfl⟩ := burnHandler_ok h
    refine ⟨?_, ?_, ?_, ?_, ?_, ?_, ?_⟩ <;> intro hk <;> first | rfl | simp [Instruction.writes] at hk
  | seize x =>
    obtain ⟨_, _, _, _, _, _, hs⟩ := seizeHandler_ok h
    obtain ⟨_, -, hl⟩ := hs.wrote
    rw [hl]
    refine ⟨?_, ?_, ?_, ?_, ?_, ?_, ?_⟩ <;> intro hk <;> first | rfl | simp [Instruction.writes] at hk
  | updateMinter x minter limit period =>
    obtain ⟨_, _, -, -, -, -, rfl⟩ := handlerUpdateMinter_ok h
    refine ⟨?_, ?_, ?_, ?_, ?_, ?_, ?_⟩ <;> intro hk <;> first | rfl | simp [Instruction.writes] at hk
  | updateRoles x holder role active =>
    obtain ⟨_, _, -, -, -, -, rfl⟩ := handlerUpdateRoles_ok h
    refine ⟨?_, ?_, ?_, ?_, ?_, ?_, ?_⟩ <;> intro hk <;> first | rfl | simp [Instruction.writes] at hk
  | transferAuthority x newAuthority =>
    obtain ⟨_, _, -, -, -, -, rfl⟩ := handlerTransferAuthority_ok h
    refine ⟨?_, ?_, ?_, ?_, ?_, ?_, ?_⟩ <;> intro hk <;> first | rfl | simp [Instruction.writes] at hk
  | addToBlacklist x reason =>
    obtain ⟨_, _, _, _, -, -, -, -, -, rfl⟩ := handlerAddToBlacklist_ok h
    refine ⟨?_, ?_, ?_, ?_, ?_, ?_, ?_⟩ <;> intro hk <;> first | rfl | simp [Instruction.writes] at hk
  | removeFromBlacklist x =>
    obtain ⟨_, _, _, -, -, -, -, -, rfl⟩ := handlerRemoveFromBlacklist_ok h
    refine ⟨?_, ?_, ?_, ?_, ?_, ?_, ?_⟩ <;> intro hk <;> first | rfl | simp [Instruction.writes] at hk
  | setReserveAttestor x attestor maxStaleness =>
    obtain ⟨_, _, _, _, -, -, -, -, -, rfl⟩ := setReserveAttestorHandler_ok h
    refine ⟨?_, ?_, ?_, ?_, ?_, ?_, ?_⟩ <;> intro hk <;> first | rfl | simp [Instruction.writes] at hk
  | attestReserves x reserves asOf reportUri =>
    obtain ⟨_, -, -, -, -, -, rfl⟩ := attestReservesHandler_ok h
    refine ⟨?_, ?_, ?_, ?_, ?_, ?_, ?_⟩ <;> intro hk <;> first | rfl | simp [Instruction.writes] at hk
  | addToAllowlistV3 x =>
    obtain ⟨_, _, -, -, -, rfl⟩ := addToAllowlistHandler_ok h
    refine ⟨?_, ?_, ?_, ?_, ?_, ?_, ?_⟩ <;> intro hk <;> first | rfl | simp [Instruction.writes] at hk
  | removeFromAllowlistV3 x =>
    obtain ⟨_, _, -, -, -, -, rfl⟩ := removeFromAllowlistHandler_ok h
    refine ⟨?_, ?_, ?_, ?_, ?_, ?_, ?_⟩ <;> intro hk <;> first | rfl | simp [Instruction.writes] at hk

/-! ### Configs -/

/-- A config without what the instructions after `initialize` and `transfer_authority` change. -/
def StablecoinConfig.fixed (c : StablecoinConfig) : StablecoinConfig :=
  { c with paused := false, totalMinted := 0, totalBurned := 0 }

/-- The role records are the same, and the configs but for their flag and counters. -/
structure Ledger.SameAuthority (l l' : Ledger) : Prop where
  roles : l'.roles = l.roles
  configs : ∀ a, (l'.configs a).map StablecoinConfig.fixed = (l.configs a).map StablecoinConfig.fixed

theorem Ledger.SameAuthority.of_eq {l l' : Ledger} (hr : l'.roles = l.roles) (hc : l'.configs = l.configs) :
    l.SameAuthority l' :=
  ⟨hr, fun a => by rw [hc]⟩

/-- Only the flag and the counters of one config are written. -/
theorem Ledger.fixed_setConfig {l : Ledger} {a : Pda} {c c' : StablecoinConfig} (hc : l.configs a = some c)
    (hfixed : c'.fixed = c.fixed) (b : Pda) :
    (update l.configs a (some c') b).map StablecoinConfig.fixed = (l.configs b).map StablecoinConfig.fixed := by
  by_cases hb : b = a
  · subst hb
    rw [update_self, hc, Option.map_some, Option.map_some, hfixed]
  · rw [update_of_ne hb]

/-- A config after such a step was there before, the same but for its flag and counters. -/
theorem Ledger.SameAuthority.config_before {l l' : Ledger} (h : l.SameAuthority l') {a : Pda}
    {c' : StablecoinConfig} (hc' : l'.configs a = some c') :
    ∃ c, l.configs a = some c ∧ c.fixed = c'.fixed := by
  have hmap := h.configs a
  rw [hc', Option.map_some] at hmap
  exact Option.map_eq_some_iff.1 hmap.symm

/-- Only the instructions that write role records change a config beyond its flag and counters. -/
theorem exec_sameAuthority {ix : Instruction} (hix : .role ∉ ix.writes) (h : exec P now s ix = ok s') :
    s.ledger.SameAuthority s'.ledger := by
  have hroles := (exec_frame h).roles hix
  by_cases hconfig : .config ∈ ix.writes
  · refine ⟨hroles, ?_⟩
    cases ix <;> simp only [Instruction.writes, List.mem_cons, List.not_mem_nil, reduceCtorEq, or_false, or_true,
      not_true_eq_false] at hix hconfig
    case mintTokens x amount =>
      obtain ⟨_, _, _, hm⟩ := mintHandler_ok h
      obtain ⟨_, _, -, -, hl⟩ := hm.wrote
      rw [hl]
      exact Ledger.fixed_setConfig (configAccount_eq_ok.1 hm.config).1 rfl
    case burnTokens x amount =>
      obtain ⟨_, _, _, _, hc, -, -, -, -, -, rfl⟩ := burnHandler_ok h
      exact Ledger.fixed_setConfig (configAccount_eq_ok.1 hc).1 rfl
    case seize x =>
      obtain ⟨_, _, _, _, _, _, hs⟩ := seizeHandler_ok h
      obtain ⟨_, -, hl⟩ := hs.wrote
      rw [hl]
      exact Ledger.fixed_setConfig (configAccount_eq_ok.1 hs.config).1 rfl
    case pause x =>
      obtain ⟨_, _, _, _, hc, -, -, -, -, -, -, rfl⟩ := handlerSetPaused_ok h
      exact Ledger.fixed_setConfig (configAccount_eq_ok.1 hc).1 rfl
    case unpause x =>
      obtain ⟨_, _, _, _, hc, -, -, -, -, -, -, rfl⟩ := handlerSetPaused_ok h
      exact Ledger.fixed_setConfig (configAccount_eq_ok.1 hc).1 rfl
  · exact .of_eq hroles ((exec_frame h).configs hconfig)

/-- A config keeps its address and its mint for good, and only `initialize` makes one. -/
theorem exec_config {ix : Instruction} {a : Pda} {c' : StablecoinConfig} (h : exec P now s ix = ok s')
    (hc' : s'.ledger.configs a = some c') :
    (∃ c, s.ledger.configs a = some c ∧ c.mint = c'.mint) ∨
      ∃ x args calls w, createMint P x args = ok calls ∧ calls.foldlM P.invoke s.world = some w ∧
        c' = initializeConfig P x args := by
  by_cases hix : .role ∈ ix.writes
  · cases ix <;> simp only [Instruction.writes, List.mem_cons, List.not_mem_nil, reduceCtorEq, or_false] at hix
    case initializeStablecoin x args =>
      obtain ⟨-, -, -, calls, w, hcalls, hw, rfl⟩ := initializeHandler_ok h
      obtain ⟨-, rfl⟩ | ⟨-, hc'⟩ := Ledger.update_eq_some.1 hc'
      · exact .inr ⟨x, args, calls, w, hcalls, hw, rfl⟩
      · exact .inl ⟨c', hc', rfl⟩
    case updateMinter x minter limit period =>
      obtain ⟨_, _, -, -, -, -, rfl⟩ := handlerUpdateMinter_ok h
      exact .inl ⟨c', hc', rfl⟩
    case updateRoles x holder role active =>
      obtain ⟨_, _, -, -, -, -, rfl⟩ := handlerUpdateRoles_ok h
      exact .inl ⟨c', hc', rfl⟩
    case transferAuthority x newAuthority =>
      obtain ⟨c, _, hc, -, -, -, rfl⟩ := handlerTransferAuthority_ok h
      obtain ⟨rfl, rfl⟩ | ⟨-, hc'⟩ := Ledger.update_eq_some.1 hc'
      · exact .inl ⟨c, (configAccount_eq_ok.1 hc).1, rfl⟩
      · exact .inl ⟨c', hc', rfl⟩
  · obtain ⟨c, hc, hfixed⟩ := (exec_sameAuthority hix h).config_before hc'
    have hmint : c.fixed.mint = c'.fixed.mint := by rw [hfixed]
    exact .inl ⟨c, hc, hmint⟩

end ThawGate.Token
