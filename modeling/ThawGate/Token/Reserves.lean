import Mathlib.Order.Lattice
import Mathlib.Tactic.SplitIfs
import ThawGate.Token.Context

/-!
# Reserve attestations

The master authority picks a mint's attestor and a staleness window; the attestor posts the reserves.
`checkReserves` is what `mint_tokens` asks of the attestation.
-/

namespace ThawGate.Token

open Borsh Exec

variable {W : Type} {P : Programs W} {now : Int64} {s s' : State W}

/-! ### The checks -/

/-- `i64::saturating_sub` -/
def saturatingSub (a b : Int64) : Int64 :=
  if a.toInt - b.toInt < Int64.minValue.toInt then Int64.minValue
  else if Int64.maxValue.toInt < a.toInt - b.toInt then Int64.maxValue
  else a - b

/-- `u64::checked_add` -/
def checkedAdd (a b : UInt64) : Option UInt64 :=
  if a.toNat + b.toNat < UInt64.size then some (a + b) else none

theorem toInt_saturatingSub (a b : Int64) :
    (saturatingSub a b).toInt = max Int64.minValue.toInt (min (a.toInt - b.toInt) Int64.maxValue.toInt) := by
  have hmin := Int64.toInt_minValue
  have hmax := Int64.toInt_maxValue
  unfold saturatingSub
  split_ifs with hlow hhigh
  · omega
  · omega
  · rw [Int64.toInt_sub, Int.bmod_eq_of_le (by omega) (by omega)]
    omega

theorem checkedAdd_eq_some {a b c : UInt64} : checkedAdd a b = some c ↔ c.toNat = a.toNat + b.toNat := by
  unfold checkedAdd
  have hc := c.toNat_lt
  split_ifs with h
  · rw [Option.some.injEq, ← UInt64.toNat_inj, UInt64.toNat_add, Nat.mod_eq_of_lt h, eq_comm]
  · have hsize : UInt64.size = 2 ^ 64 := rfl
    simp only [false_iff]
    omega

inductive ReserveCheck where
  | ok
  | stale
  | insufficient
  deriving DecidableEq, Repr

def checkReserves (supply amount reserves : UInt64) (asOf maxStaleness now : Int64) : ReserveCheck :=
  if saturatingSub now asOf > maxStaleness then .stale
  else
    match checkedAdd supply amount with
    | some total => if total ≤ reserves then .ok else .insufficient
    | none => .insufficient

theorem checkReserves_eq_ok {supply amount reserves : UInt64} {asOf maxStaleness now : Int64} :
    checkReserves supply amount reserves asOf maxStaleness now = .ok ↔
      saturatingSub now asOf ≤ maxStaleness ∧ supply.toNat + amount.toNat ≤ reserves.toNat := by
  unfold checkReserves
  split_ifs with h
  · simpa using fun h' => absurd h' (Int64.not_le.2 h)
  · rw [gt_iff_lt, Int64.not_lt] at h
    cases hadd : checkedAdd supply amount with
    | some total =>
      have htotal := checkedAdd_eq_some.1 hadd
      simp only [h, true_and, ite_eq_left_iff, reduceCtorEq, imp_false, Decidable.not_not, ← htotal,
        UInt64.le_iff_toNat_le]
    | none =>
      have hreserves := reserves.toNat_lt
      have hover : ¬supply.toNat + amount.toNat ≤ reserves.toNat := by
        intro hle
        rw [checkedAdd, if_pos (lt_of_le_of_lt hle hreserves)] at hadd
        contradiction
      simp [hover]

def validPost (asOf storedAsOf now : Int64) (reportUriLen : Nat) : Bool :=
  asOf ≤ now && asOf ≥ storedAsOf && reportUriLen ≤ maxUriLen

/-- The bump `mint_tokens` checks the attestation's address with: the stored one when the account is
an attestation, otherwise the canonical one. -/
def reserveBump (P : Programs W) (l : Ledger) (a : Pda) (mint : Pubkey) : UInt8 :=
  match l.reserves a with
  | some att => att.bump
  | none => P.canonicalBump (.reserve mint)

/-! ### `set_reserve_attestor` -/

structure SetReserveAttestor where
  authority : Pubkey
  config : Pda
  authorityRole : Pda
  mint : Pubkey
  reserveAttestation : Pda
  deriving DecidableEq

/-- The attestation after its attestor and window are set: a new account or attestor starts without
posted reserves. -/
def ReserveAttestation.setAttestor (att : ReserveAttestation) (mint attestor : Pubkey) (maxStaleness : Int64)
    (bump : UInt8) : ReserveAttestation :=
  let reset := att.mint = .default ∨ att.attestor ≠ attestor
  let att := { att with mint, attestor, maxStaleness, bump }
  if reset then { att with reserves := 0, asOf := 0, reportUri := .empty, postedAt := 0 } else att

def setReserveAttestorHandler (P : Programs W) (now : Int64) (s : State W) (x : SetReserveAttestor)
    (attestor : Pubkey) (maxStaleness : Int64) : Exec Failure (State W) := do
  let l := s.ledger
  let config ← configAccount l x.config
  require (config.mint = x.mint) (.sss .invalidMint)
  let _ ← roleAccount l x.authorityRole config.mint x.authority .masterAuthority .notAuthorized
  let att ← initIfNeeded P l l.reserves x.reserveAttestation (.reserve x.mint) .zeroed
  require (0 < maxStaleness) (.sss .invalidReserveAttestation)
  require (attestor ≠ .default) (.sss .invalidReserveAttestation)
  let reset := decide (att.mint = .default ∨ att.attestor ≠ attestor)
  let l := l.setReserve x.reserveAttestation
    (att.setAttestor x.mint attestor maxStaleness x.reserveAttestation.bump)
  pure (s.commit l (some (.reserveAttestorSet x.mint attestor maxStaleness reset now)))

theorem setReserveAttestorHandler_ok {x : SetReserveAttestor} {attestor : Pubkey} {maxStaleness : Int64}
    (h : setReserveAttestorHandler P now s x attestor maxStaleness = ok s') :
    ∃ c r att reset, configAccount s.ledger x.config = ok c ∧ c.mint = x.mint ∧
      roleAccount s.ledger x.authorityRole c.mint x.authority .masterAuthority .notAuthorized = ok r ∧
      initIfNeeded P s.ledger s.ledger.reserves x.reserveAttestation (.reserve x.mint) .zeroed = ok att ∧
      attestor ≠ .default ∧
      s' = s.commit (s.ledger.setReserve x.reserveAttestation
        (att.setAttestor x.mint attestor maxStaleness x.reserveAttestation.bump))
        (some (.reserveAttestorSet x.mint attestor maxStaleness reset now)) := by
  simp only [setReserveAttestorHandler, bind_eq_ok, require_eq_ok, exists_const, pure_eq, Exec.ok.injEq] at h
  obtain ⟨c, hc, hmint, r, hr, att, hatt, -, hattestor, hs⟩ := h
  exact ⟨c, r, att, _, hc, hmint, hr, hatt, hattestor, hs.symm⟩

/-! ### `attest_reserves` -/

structure AttestReserves where
  attestor : Pubkey
  reserveAttestation : Pda
  deriving DecidableEq

def attestReservesHandler (now : Int64) (s : State W) (x : AttestReserves) (reserves : UInt64) (asOf : Int64)
    (reportUri : Str) : Exec Failure (State W) := do
  let l := s.ledger
  let att ← account (l.reserves x.reserveAttestation)
  checkSeeds x.reserveAttestation (.reserve att.mint) att.bump
  require (att.attestor = x.attestor) (.sss .notReserveAttestor)
  require (validPost asOf att.asOf now reportUri.bytes.length) (.sss .invalidReserveAttestation)
  let l := l.setReserve x.reserveAttestation { att with reserves, asOf, reportUri, postedAt := now }
  pure (s.commit l (some (.reservesAttested att.mint att.attestor reserves asOf reportUri now)))

theorem attestReservesHandler_ok {x : AttestReserves} {reserves : UInt64} {asOf : Int64} {reportUri : Str}
    (h : attestReservesHandler now s x reserves asOf reportUri = ok s') :
    ∃ att, s.ledger.reserves x.reserveAttestation = some att ∧
      x.reserveAttestation = ⟨.reserve att.mint, att.bump⟩ ∧ att.attestor = x.attestor ∧
      asOf ≤ now ∧ att.asOf ≤ asOf ∧
      s' = s.commit (s.ledger.setReserve x.reserveAttestation
        { att with reserves, asOf, reportUri, postedAt := now })
        (some (.reservesAttested att.mint att.attestor reserves asOf reportUri now)) := by
  simp only [attestReservesHandler, checkSeeds, bind_eq_ok, account_eq_ok, require_eq_ok, exists_const, pure_eq,
    Exec.ok.injEq] at h
  obtain ⟨att, hatt, haddr, hattestor, hpost, hs⟩ := h
  simp only [validPost, Bool.and_eq_true, decide_eq_true_eq] at hpost
  exact ⟨att, hatt, haddr, hattestor, hpost.1.1, hpost.1.2, hs.symm⟩

/-! ### What `mint_tokens` asks -/

def ReserveDenial.error : ReserveDenial → SssError
  | missing => .reserveAttestationMissing
  | stale .. => .reserveStale
  | insufficient .. => .reserveInsufficient

/-- The line `mint_tokens` logs. -/
def ReserveDenial.log : ReserveDenial → String
  | missing => "SSS:DENY:RESERVE_MISSING"
  | stale asOf now age maxStaleness =>
    "SSS:DENY:RESERVE_STALE as_of=" ++ toString asOf ++ " now=" ++ toString now ++ " age=" ++ toString age ++
      " max_staleness=" ++ toString maxStaleness
  | insufficient supply amount reserves asOf =>
    "SSS:DENY:RESERVE_INSUFFICIENT supply=" ++ toString supply ++ " amount=" ++ toString amount ++
      " reserves=" ++ toString reserves ++ " as_of=" ++ toString asOf

/-- The reserve check of a mint of `amount` on top of `supply`. Without an attestation only a mint
that Token ACL does not govern passes. -/
def checkReserveAttestation (l : Ledger) (a : Pda) (config : StablecoinConfig) (supply amount : UInt64)
    (now : Int64) : Exec Failure Unit :=
  match l.reserves a with
  | none => do
    require (l.vacant a) (.anchor .accountDiscriminatorMismatch)
    require (!config.usesTokenAcl) (.reserve .missing)
  | some att =>
    match checkReserves supply amount att.reserves att.asOf att.maxStaleness now with
    | .ok => ok ()
    | .stale => err (.reserve (.stale att.asOf now (saturatingSub now att.asOf) att.maxStaleness))
    | .insufficient => err (.reserve (.insufficient supply amount att.reserves att.asOf))

theorem checkReserveAttestation_eq_ok {l : Ledger} {a : Pda} {config : StablecoinConfig}
    {supply amount : UInt64} {u : Unit} :
    checkReserveAttestation l a config supply amount now = ok u ↔
      (l.reserves a = none ∧ l.vacant a ∧ config.usesTokenAcl = false) ∨
      ∃ att, l.reserves a = some att ∧
        checkReserves supply amount att.reserves att.asOf att.maxStaleness now = .ok := by
  unfold checkReserveAttestation
  cases l.reserves a with
  | none => simp [bind_eq_ok]
  | some att =>
    cases h : checkReserves supply amount att.reserves att.asOf att.maxStaleness now <;> simp [h]

end ThawGate.Token
