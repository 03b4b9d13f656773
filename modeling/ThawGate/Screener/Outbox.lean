import ThawGate.Chain
import ThawGate.Lib.Map
import Mathlib.Data.List.Infix
import Mathlib.Logic.Function.Basic

/-!
# The screener's sends

`pending` has the sends that are still to succeed and `inflight` those that have not come back. A verdict puts sends
into `pending` (`flagAll`), and `blacklist` tries one, now and again at each poll.

What is only logged, counted or recorded is left out.
-/

namespace ThawGate.Screener

open Function

structure Pair where
  mint : Pubkey
  wallet : Pubkey
  deriving DecidableEq

/-- A pending send. Its `attempts` change, also for those that still hold it, and are kept in the `Outbox`. -/
structure Pending where
  id : Nat
  pair : Pair
  reason : String
  score : Rat
  flaggedAt : Nat
  deriving DecidableEq

/-- A call of `addToBlacklist` that has not come back, with the poll it belongs to. -/
structure Send where
  request : Pending
  tokenAccount : Pubkey
  poll : Nat
  deriving DecidableEq

structure Outbox where
  pending : Map Pair Pending
  attempts : Nat → Nat
  /-- The id of the next pending send. -/
  next : Nat
  sends : List Send

abbrev maxSendAttempts : Nat := 5

/-! ### Outcomes -/

/-- What a call of `addToBlacklist` comes back with: the transaction is confirmed, it is refused (in simulation or
landed) with a text, its attempts are used up, or the call throws. -/
inductive Answer where
  | confirmed
  | refused (text : String)
  | exhausted
  | threw
  deriving DecidableEq

inductive SendOutcome where
  | sent
  | alreadyBlacklisted
  | noRole
  | accountGone
  | failed
  deriving DecidableEq, Repr

def contains (text part : String) : Bool := part.toList <:+: text.toList

/-- Maps a refused add_to_blacklist to an outcome. -/
def classifyFailure (text : String) : SendOutcome :=
  -- sss-token before S15, and since
  if contains text "already in use" ∨ contains text "AccountAlreadyBlacklisted" then .alreadyBlacklisted
  else if contains text "caused by account: operator_role" ∨ contains text "BlacklisterNotFound" then .noRole
  else if contains text "caused by account: target_token_account" ∨ contains text "TargetAccountOwnerMismatch" then
    .accountGone
  else .failed

def Answer.outcome : Answer → Option SendOutcome
  | confirmed => some .sent
  | refused text => some (classifyFailure text)
  | exhausted => some .failed
  | threw => none

/-! ### The operations -/

namespace Outbox

variable (o : Outbox)

def delete (pair : Pair) : Outbox := { o with pending := o.pending.erase pair }

/-- `this.pending.set(key, { mint, wallet, reason, score, flaggedAt, attempts: 0 })` -/
def flag (reason : String) (score : Rat) (flaggedAt : Nat) (pair : Pair) : Outbox :=
  { o with
    pending := o.pending.insert pair ⟨o.next, pair, reason, score, flaggedAt⟩
    attempts := update o.attempts o.next 0
    next := o.next + 1 }

/-- The keys of `inflight`. -/
def inflight : List Pair := o.sends.map (·.request.pair)

/-- `blacklist` up to its call of `addToBlacklist`. `tokenAccount` is the account that it finds to pass. -/
def blacklist (dryRun : Bool) (poll : Nat) (tokenAccount : Pair → Option Pubkey) (p : Pending) : Outbox :=
  if p.pair ∈ o.inflight then o
  else
    match tokenAccount p.pair with
    | none => o.delete p.pair
    | some account =>
      if dryRun then o.delete p.pair
      else
        { o with
          attempts := update o.attempts p.id (o.attempts p.id + 1)
          sends := o.sends ++ [⟨p, account, poll⟩] }

/-- `this.blacklist(this.pending.get(key)!)` -/
def blacklistAt (dryRun : Bool) (poll : Nat) (tokenAccount : Pair → Option Pubkey) (pair : Pair) : Outbox :=
  match o.pending.lookup pair with
  | none => o
  | some p => o.blacklist dryRun poll tokenAccount p

/-- The end of `screenOne` where the provider flagged the wallet: `fresh` is set, then tried. -/
def flagAll (dryRun : Bool) (poll : Nat) (tokenAccount : Pair → Option Pubkey) (reason : String) (score : Rat)
    (flaggedAt : Nat) (open_ : List Pair) : Outbox :=
  let fresh := open_.filter fun pair => (o.pending.lookup pair).isNone
  let flagged := fresh.foldl (·.flag reason score flaggedAt) o
  fresh.foldl (·.blacklistAt dryRun poll tokenAccount) flagged

end Outbox

/-! ### What is pending -/

namespace Outbox

variable {o : Outbox} {dryRun : Bool} {poll flaggedAt : Nat} {tokenAccount : Pair → Option Pubkey} {reason : String}
  {score : Rat} {p r : Pending} {pair q : Pair}

def IsPending (o : Outbox) (pair : Pair) : Prop := (o.pending.lookup pair).isSome

/-- Every pending send is at the key of its pair. -/
def Keyed (o : Outbox) : Prop := ∀ {pair : Pair} {p : Pending}, o.pending.lookup pair = some p → p.pair = pair

theorem isPending_delete : (o.delete pair).IsPending q ↔ q ≠ pair ∧ o.IsPending q := by
  simp only [IsPending, delete, Option.isSome_iff_exists, Map.lookup_erase_eq_some]
  exact exists_and_left

theorem isPending_flag : (o.flag reason score flaggedAt pair).IsPending q ↔ q = pair ∨ o.IsPending q := by
  unfold IsPending flag
  obtain rfl | h := eq_or_ne q pair
  · simp
  · simp [AList.lookup_insert_ne h, h]

theorem Keyed.flag (hk : o.Keyed) : (o.flag reason score flaggedAt pair).Keyed := by
  intro q p h
  obtain ⟨rfl, rfl⟩ | ⟨-, h⟩ := Map.lookup_insert_eq_some.1 h
  · rfl
  · exact hk h

/-- `blacklist` drops a send or calls with it. -/
theorem blacklist_cases (o : Outbox) (dryRun : Bool) (poll : Nat) (tokenAccount : Pair → Option Pubkey) (p : Pending) :
    o.blacklist dryRun poll tokenAccount p = o ∨
      (o.blacklist dryRun poll tokenAccount p = o.delete p.pair ∧ (tokenAccount p.pair = none ∨ dryRun = true)) ∨
      ∃ account, tokenAccount p.pair = some account ∧ dryRun = false ∧
        (o.blacklist dryRun poll tokenAccount p).pending = o.pending ∧
        (o.blacklist dryRun poll tokenAccount p).sends = o.sends ++ [⟨p, account, poll⟩] := by
  unfold blacklist
  cases ha : tokenAccount p.pair with
  | none =>
    dsimp only
    split_ifs
    · exact .inl rfl
    · exact .inr (.inl ⟨rfl, .inl rfl⟩)
  | some account =>
    dsimp only
    split_ifs with hin hdry
    · exact .inl rfl
    · exact .inr (.inl ⟨rfl, .inr hdry⟩)
    · exact .inr (.inr ⟨account, rfl, Bool.not_eq_true _ ▸ hdry, rfl, rfl⟩)

theorem lookup_blacklist (h : (o.blacklist dryRun poll tokenAccount p).pending.lookup q = some r) :
    o.pending.lookup q = some r := by
  obtain heq | ⟨heq, -⟩ | ⟨_, -, -, heq, -⟩ := o.blacklist_cases dryRun poll tokenAccount p
  · rwa [heq] at h
  · rw [heq] at h
    exact (Map.lookup_erase_eq_some.1 h).2
  · rwa [heq] at h

/-- What has a token account to pass stays pending. -/
theorem IsPending.blacklist (h : o.IsPending q) (haccount : (tokenAccount q).isSome) (hdry : dryRun = false) :
    (o.blacklist dryRun poll tokenAccount p).IsPending q := by
  obtain heq | ⟨heq, hdrop⟩ | ⟨_, -, -, heq, -⟩ := o.blacklist_cases dryRun poll tokenAccount p
  · rwa [heq]
  · rw [heq, isPending_delete]
    refine ⟨?_, h⟩
    rintro rfl
    obtain hnone | hdry' := hdrop
    · simp [hnone] at haccount
    · simp [hdry] at hdry'
  · rwa [IsPending, heq]

theorem mem_sends_blacklist {x : Send} (h : x ∈ (o.blacklist dryRun poll tokenAccount p).sends) :
    x ∈ o.sends ∨ x.request = p ∧ (tokenAccount p.pair).isSome ∧ dryRun = false := by
  obtain heq | ⟨heq, -⟩ | ⟨account, ha, hdry, -, heq⟩ := o.blacklist_cases dryRun poll tokenAccount p
  · rw [heq] at h
    exact .inl h
  · rw [heq] at h
    exact .inl h
  · rw [heq, List.mem_append, List.mem_singleton] at h
    obtain h | rfl := h
    · exact .inl h
    · exact .inr ⟨rfl, by simp [ha], hdry⟩

/-! ### `flagAll` -/

theorem foldl_flag (pairs : List Pair) (o : Outbox) :
    ∀ q, (pairs.foldl (·.flag reason score flaggedAt) o).IsPending q ↔ q ∈ pairs ∨ o.IsPending q := by
  induction pairs generalizing o with
  | nil => simp
  | cons pair pairs ih =>
    intro q
    rw [List.foldl_cons, ih, isPending_flag, List.mem_cons]
    tauto

theorem foldl_flag_sends (pairs : List Pair) (o : Outbox) :
    (pairs.foldl (·.flag reason score flaggedAt) o).sends = o.sends := by
  induction pairs generalizing o with
  | nil => rfl
  | cons pair pairs ih => exact ih _

theorem Keyed.foldl_flag (hk : o.Keyed) (pairs : List Pair) :
    (pairs.foldl (·.flag reason score flaggedAt) o).Keyed := by
  induction pairs generalizing o with
  | nil => exact hk
  | cons pair pairs ih => exact ih hk.flag

theorem lookup_blacklistAt (h : (o.blacklistAt dryRun poll tokenAccount pair).pending.lookup q = some r) :
    o.pending.lookup q = some r := by
  unfold blacklistAt at h
  split at h
  · exact h
  · exact lookup_blacklist h

theorem IsPending.blacklistAt (h : o.IsPending q) (haccount : (tokenAccount q).isSome) (hdry : dryRun = false) :
    (o.blacklistAt dryRun poll tokenAccount pair).IsPending q := by
  unfold Outbox.blacklistAt
  split
  · exact h
  · exact h.blacklist haccount hdry

theorem lookup_foldl_blacklistAt (pairs : List Pair) (o : Outbox)
    (h : (pairs.foldl (·.blacklistAt dryRun poll tokenAccount) o).pending.lookup q = some r) :
    o.pending.lookup q = some r := by
  induction pairs generalizing o with
  | nil => exact h
  | cons pair pairs ih => exact lookup_blacklistAt (ih _ h)

theorem IsPending.foldl_blacklistAt (h : o.IsPending q) (haccount : (tokenAccount q).isSome) (hdry : dryRun = false)
    (pairs : List Pair) : (pairs.foldl (·.blacklistAt dryRun poll tokenAccount) o).IsPending q := by
  induction pairs generalizing o with
  | nil => exact h
  | cons pair pairs ih => exact ih (h.blacklistAt haccount hdry)

theorem mem_sends_foldl_blacklistAt {x : Send} (hk : o.Keyed) (pairs : List Pair)
    (h : x ∈ (pairs.foldl (·.blacklistAt dryRun poll tokenAccount) o).sends) :
    x ∈ o.sends ∨ x.request.pair ∈ pairs ∧ (tokenAccount x.request.pair).isSome ∧ dryRun = false := by
  induction pairs generalizing o with
  | nil => exact .inl h
  | cons pair pairs ih =>
    have hk' : (o.blacklistAt dryRun poll tokenAccount pair).Keyed := fun h => hk (lookup_blacklistAt h)
    obtain h | ⟨hpair, hsent⟩ := ih hk' h
    · unfold Outbox.blacklistAt at h
      split at h
      · exact .inl h
      · rename_i p hp
        refine (mem_sends_blacklist h).imp_right ?_
        intro ⟨hx, hsent⟩
        rw [hx, hk hp]
        rw [hk hp] at hsent
        exact ⟨List.mem_cons_self, hsent⟩
    · exact .inr ⟨List.mem_cons_of_mem _ hpair, hsent⟩

theorem isPending_flagAll {open_ : List Pair}
    (h : (o.flagAll dryRun poll tokenAccount reason score flaggedAt open_).IsPending q) : q ∈ open_ ∨ o.IsPending q := by
  obtain ⟨r, hr⟩ := Option.isSome_iff_exists.1 h
  have hflagged := lookup_foldl_blacklistAt _ _ hr
  have hq := (foldl_flag _ o q).1 (Option.isSome_iff_exists.2 ⟨r, hflagged⟩)
  exact hq.imp_left fun h => (List.mem_filter.1 h).1

/-- What is flagged and has a token account to pass is pending afterwards, and so is what was before. -/
theorem IsPending.flagAll {open_ : List Pair} (h : q ∈ open_ ∨ o.IsPending q) (haccount : (tokenAccount q).isSome)
    (hdry : dryRun = false) : (o.flagAll dryRun poll tokenAccount reason score flaggedAt open_).IsPending q := by
  refine IsPending.foldl_blacklistAt ?_ haccount hdry _
  rw [foldl_flag, List.mem_filter]
  by_cases hq : o.IsPending q
  · exact .inr hq
  · refine .inl ⟨h.resolve_right hq, ?_⟩
    simpa [IsPending] using hq

theorem Keyed.flagAll (hk : o.Keyed) (open_ : List Pair) :
    (o.flagAll dryRun poll tokenAccount reason score flaggedAt open_).Keyed :=
  fun h => hk.foldl_flag _ (lookup_foldl_blacklistAt _ _ h)

theorem mem_sends_flagAll {x : Send} {open_ : List Pair} (hk : o.Keyed)
    (h : x ∈ (o.flagAll dryRun poll tokenAccount reason score flaggedAt open_).sends) :
    x ∈ o.sends ∨ x.request.pair ∈ open_ ∧ (tokenAccount x.request.pair).isSome ∧ dryRun = false := by
  have hsent := mem_sends_foldl_blacklistAt (hk.foldl_flag _) _ h
  rw [foldl_flag_sends] at hsent
  exact hsent.imp_right fun h => ⟨(List.mem_filter.1 h.1).1, h.2⟩

end Outbox

end ThawGate.Screener
