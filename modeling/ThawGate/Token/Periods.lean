import Mathlib.Algebra.Order.BigOperators.Group.List
import ThawGate.Token.Quota

/-!
# The period of a quota

A quota's period is documented to reset what the minter used. `mintsSince` dates the mints since the last
`update_minter`, and `Resets` says what the documentation promises of them: no period holds more than the
limit, and when a period has ended the whole limit is there again. The first half holds, as everything
minted since the last `update_minter` stays within the limit. The second does not: `mint_tokens` reads
neither the period nor the time before it compares, so it holds only while nothing has been minted.
-/

namespace ThawGate.Token

open Exec

variable {W : Type} {P : Programs W} {now : Int64} {s s' : State W} {h : List Label} {mint minter : Pubkey}

/-- The seconds after which the documentation has a quota reset. -/
def QuotaPeriod.length : QuotaPeriod → Option ℤ
  | .daily => some (24 * 60 * 60)
  | .weekly => some (7 * 24 * 60 * 60)
  | .monthly => some (30 * 24 * 60 * 60)
  | .lifetime => none

theorem QuotaPeriod.length_eq_some {p : QuotaPeriod} (h : p ≠ .lifetime) : ∃ n, p.length = some n := by
  cases p with
  | daily | weekly | monthly => exact ⟨_, rfl⟩
  | lifetime => exact absurd rfl h

/-- A mint and when it was made. -/
abbrev DatedMint := ℤ × ℕ

/-- The dated mints once one more instruction has succeeded. -/
def mintsAfter (mint minter : Pubkey) (now : Int64) (mints : List DatedMint) : Instruction → List DatedMint
  | .mintTokens x amount =>
    if x.mint = mint ∧ x.minter = minter then (now.toInt, amount.toNat) :: mints else mints
  | .updateMinter x minter' _ _ => if x.config.seeds = .config mint ∧ minter' = minter then [] else mints
  | _ => mints

/-- The minter's mints since the last `update_minter` for it, the latest first. -/
def mintsSince (mint minter : Pubkey) : List Label → List DatedMint
  | [] => []
  | .tx ix now true :: h => mintsAfter mint minter now (mintsSince mint minter h) ix
  | _ :: h => mintsSince mint minter h

/-- What was minted from `start` until before `stop`. -/
def mintedDuring (mints : List DatedMint) (start stop : ℤ) : ℕ :=
  ((mints.filter fun m => start ≤ m.1 ∧ m.1 < stop).map (·.2)).sum

theorem mintedDuring_le (mints : List DatedMint) (start stop : ℤ) :
    mintedDuring mints start stop ≤ (mints.map (·.2)).sum :=
  (List.filter_sublist.map _).sum_le_sum fun _ _ => Nat.zero_le _

theorem sum_mintsAfter (ix : Instruction) (mints : List DatedMint) :
    ((mintsAfter mint minter now mints ix).map (·.2)).sum =
      mintedAfter mint minter (mints.map (·.2)).sum ix := by
  cases ix
  case mintTokens x amount =>
    by_cases hx : x.mint = mint ∧ x.minter = minter
    · simp only [mintsAfter, mintedAfter, if_pos hx, List.map_cons, List.sum_cons]
    · simp only [mintsAfter, mintedAfter, if_neg hx]
  case updateMinter x minter' limit period =>
    by_cases hx : x.config.seeds = .config mint ∧ minter' = minter
    · simp only [mintsAfter, mintedAfter, if_pos hx, List.map_nil, List.sum_nil]
    · simp only [mintsAfter, mintedAfter, if_neg hx]
  all_goals rfl

theorem sum_mintsSince (mint minter : Pubkey) (h : List Label) :
    ((mintsSince mint minter h).map (·.2)).sum = mintedSince mint minter h := by
  induction h with
  | nil => rfl
  | cons e h ih =>
    rcases e with ⟨ix, now, _ | _⟩ | _
    · exact ih
    · show ((mintsAfter mint minter now (mintsSince mint minter h) ix).map (·.2)).sum = mintedAfter mint minter _ ix
      rw [sum_mintsAfter, ih]
    · exact ih

/-- There is a time after every mint. -/
theorem exists_after (mints : List DatedMint) : ∃ t : ℤ, ∀ m ∈ mints, m.1 < t := by
  induction mints with
  | nil => exact ⟨0, fun m hm => nomatch hm⟩
  | cons m mints ih =>
    obtain ⟨t, ht⟩ := ih
    refine ⟨max t (m.1 + 1), fun m' hm' => ?_⟩
    rcases List.mem_cons.1 hm' with rfl | hm'
    · omega
    · have := ht m' hm'
      omega

/-! ### The check -/

theorem MinterQuota.check_isOk_iff {q : MinterQuota} {amount : UInt64} (hlimit : 0 < q.limit) :
    q.check amount = ok () ↔ q.used.toNat + amount.toNat ≤ q.limit.toNat := by
  have hsize : q.limit.toNat < UInt64.size := q.limit.toNat_lt
  rw [MinterQuota.check, when, if_pos hlimit]
  constructor
  · intro h
    obtain ⟨used, hused, hle⟩ := bind_eq_ok.1 h
    rw [orErr_eq_ok] at hused
    rw [← checkedAdd_eq_some.1 hused]
    exact UInt64.le_iff_toNat_le.1 (require_eq_ok.1 hle)
  · intro hle
    have hadd : checkedAdd q.used amount = some (q.used + amount) := if_pos (by omega)
    rw [hadd, orErr_some, bind_ok, require_eq_ok, UInt64.le_iff_toNat_le, checkedAdd_eq_some.1 hadd]
    exact hle

/-- Every amount up to the limit passes exactly when nothing is used. -/
theorem MinterQuota.check_all_iff {q : MinterQuota} (hlimit : 0 < q.limit) :
    (∀ amount, 0 < amount → amount ≤ q.limit → q.check amount = ok ()) ↔ q.used.toNat = 0 := by
  constructor
  · intro hall
    have hfull := (q.check_isOk_iff hlimit).1 (hall q.limit hlimit (UInt64.le_iff_toNat_le.2 le_rfl))
    omega
  · intro hzero amount _ hle
    rw [q.check_isOk_iff hlimit, hzero, Nat.zero_add]
    exact UInt64.le_iff_toNat_le.1 hle

/-! ### The promise -/

/-- What the documentation promises of a quota, for the minter's `mints`: in any period no more than the limit is
minted, and whenever the period that began at `began` has passed and every mint was made before its end, every
amount up to the limit can be minted. -/
structure Resets (q : MinterQuota) (mints : List DatedMint) : Prop where
  within : ∀ n, q.period.length = some n → ∀ began, mintedDuring mints began (began + n) ≤ q.limit.toNat
  again : ∀ n, q.period.length = some n → ∀ began now, (∀ m ∈ mints, m.1 < began + n) → began + n ≤ now →
    ∀ amount, 0 < amount → amount ≤ q.limit → q.check amount = ok ()

/-- **A quota never resets.** In every run, a quota with a limit and a period keeps the promise exactly while its
minter has minted nothing since the last `update_minter`. Once something is minted, the full limit is refused at
every time. -/
theorem periodic_quota_resets_iff (r : (machine P).Run h s) {q : MinterQuota}
    (hq : s.ledger.quotas (P.canonical (.quota mint minter)) = some q) (hlimit : 0 < q.limit)
    (hperiod : q.period ≠ .lifetime) :
    (Resets q (mintsSince mint minter h) ↔ mintedSince mint minter h = 0) ∧
      (mintedSince mint minter h ≠ 0 →
        ∀ now x s', x.mint = mint → x.minter = minter → mintHandler P now s x q.limit ≠ ok s') := by
  have hl := Ledger.Quotas.of_run r
  have hused := hl.used_canonical hq
  refine ⟨?_, ?_⟩
  · rw [← hused, ← q.check_all_iff hlimit]
    constructor
    · intro hresets
      obtain ⟨n, hn⟩ := QuotaPeriod.length_eq_some hperiod
      obtain ⟨t, ht⟩ := exists_after (mintsSince mint minter h)
      refine hresets.again n hn (t - n) t ?_ (by omega)
      intro m hm
      have := ht m hm
      omega
    · intro hall
      refine ⟨?_, fun _ _ _ _ _ _ => hall⟩
      intro n _ began
      refine (mintedDuring_le _ _ _).trans ?_
      rw [sum_mintsSince, ← hused]
      exact UInt64.le_iff_toNat_le.1 (hl.within hq hlimit)
  · intro hminted now x s' hmint hminter hx
    obtain ⟨c, q', m, hm⟩ := mintHandler_ok hx
    -- the call's quota account is this minter's
    obtain ⟨hq', hmint', hminter'⟩ := hl.of_account hm.quota
    rw [hl.quota_at hq', ← hmint', ← hminter', ← (mintAccount_eq_ok.1 hm.mint).2, hmint, hminter, hq] at hq'
    obtain rfl := Option.some.inj hq'
    have hpassed := (q.check_isOk_iff hlimit).1 hm.withinLimit
    omega

/-- Key 3 may mint 1000 on mint 2 a day, and mints them. -/
def dailySample : List (Instruction × Int64) :=
  [(initializeSample, 10), (updateMinterSample 1000 .daily, 20), (.mintTokens mintSample 1000, 30)]

theorem dailySample_quota : ∃ q, (execAll bank sampleStart dailySample).ledger.quotas
    (bank.canonical (.quota (sampleKey 2) (sampleKey 3))) = some q ∧ q.limit = 1000 ∧ q.period = .daily ∧
      q.used = 1000 := by
  have hrun : ((execAll bank sampleStart dailySample).ledger.quotas
      (bank.canonical (.quota (sampleKey 2) (sampleKey 3)))).any fun q =>
        decide (q.limit = 1000 ∧ q.period = .daily ∧ q.used = 1000) := by
    decide +kernel
  obtain ⟨q, hq, hboth⟩ := (Option.any_eq_true _ _).1 hrun
  exact ⟨q, hq, of_decide_eq_true hboth⟩

theorem periodic_quota_resets_iff_sample :
    ∃ h q, (machine bank).Run h (execAll bank sampleStart dailySample) ∧
      ¬Resets q (mintsSince (sampleKey 2) (sampleKey 3) h) := by
  obtain ⟨q, hq, hlimit, hperiod, hused⟩ := dailySample_quota
  have hreach : (machine bank).Reachable (execAll bank sampleStart dailySample) :=
    execAll_reachable sampleStart_reachable
  obtain ⟨h, r⟩ := hreach
  refine ⟨h, q, r, fun hresets => ?_⟩
  have hnone := (periodic_quota_resets_iff r hq (by rw [hlimit]; decide) (by rw [hperiod]; decide)).1.1 hresets
  have hsum := (Ledger.Quotas.of_run r).used_canonical hq
  rw [hnone, hused] at hsum
  exact absurd hsum (by decide)

/-- Ten years on, the daily quota of 1000 still refuses a single token. -/
theorem daily_quota_refuses :
    (∃ q, (execAll bank sampleStart dailySample).ledger.quotas
        (bank.canonical (.quota (sampleKey 2) (sampleKey 3))) = some q ∧ q.limit = 1000 ∧ q.period = .daily) ∧
      (mintHandler bank (30 + 10 * 365 * 24 * 60 * 60) (execAll bank sampleStart dailySample) mintSample 1).error? =
        some (.sss .minterQuotaExceeded) := by
  obtain ⟨q, hq, hlimit, hperiod, -⟩ := dailySample_quota
  exact ⟨⟨q, hq, hlimit, hperiod⟩, by decide +kernel⟩

end ThawGate.Token
