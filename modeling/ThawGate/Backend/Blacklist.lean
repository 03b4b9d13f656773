import ThawGate.Backend.Db
import ThawGate.Lib.Dated

/-!
# The blacklist queries

The compliance service answers from the recorded events in two ways: `GET /blacklist/:mint/:target` compares the latest
add with the removes after it, `GET /blacklist/:mint` drops every target that was ever removed and lists each add of
the others. The first answers what the last event for a target says (`blacklisted_iff`); the second agrees with it
unless a target that is on the blacklist has a history before its last add (`queries_agree_iff`).
-/

namespace ThawGate.Backend

open Logs (Text)

/-- A row of `compliance_events`, less its amount and slot. -/
structure ComplianceEvent where
  mint : Text
  eventType : ComplianceEventType
  target : Option Text
  operator : Text
  reason : Option Text
  signature : Text
  createdAt : Nat
  deriving DecidableEq

/-! ### The two queries -/

/-- What both answer of an add. -/
structure BlacklistEntry where
  target : Option Text
  operator : Text
  reason : Option Text
  txSignature : Text
  timestamp : Nat
  deriving DecidableEq

def ComplianceEvent.entry (e : ComplianceEvent) : BlacklistEntry :=
  ⟨e.target, e.operator, e.reason, e.signature, e.createdAt⟩

/-- `GET /blacklist/:mint`. The empty text is falsy. -/
def getBlacklist (db : List ComplianceEvent) (mint : Text) : List BlacklistEntry :=
  let addEvents := Dated.latestFirst ComplianceEvent.createdAt
    (db.filter fun e => e.mint = mint ∧ e.eventType = .blacklistAdd)
  let removeEvents := db.filter fun e => e.mint = mint ∧ e.eventType = .blacklistRemove
  let removedAddresses := removeEvents.filterMap (·.target)
  let activeEntries := addEvents.filter fun e => ∃ t ∈ e.target, t ≠ [] ∧ t ∉ removedAddresses
  activeEntries.map (·.entry)

structure BlacklistAnswer where
  blacklisted : Bool
  entry : Option BlacklistEntry
  deriving DecidableEq

/-- `GET /blacklist/:mint/:target` -/
def getBlacklistEntry (db : List ComplianceEvent) (mint target : Text) : BlacklistAnswer :=
  let addEvents := db.filter fun e => e.mint = mint ∧ e.target = some target ∧ e.eventType = .blacklistAdd
  match (Dated.latestFirst ComplianceEvent.createdAt addEvents).head? with
  | none => ⟨false, none⟩
  | some addEvent =>
    let removeEvent := db.find? fun e => e.mint = mint ∧ e.target = some target ∧ e.eventType = .blacklistRemove ∧
      addEvent.createdAt < e.createdAt
    match removeEvent with
    | none => ⟨true, some addEvent.entry⟩
    | some _ => ⟨false, none⟩

/-! ### The history of a target -/

/-- The adds and removes recorded for a target of a mint. -/
def history (db : List ComplianceEvent) (mint target : Text) : List ComplianceEvent :=
  db.filter fun e => e.mint = mint ∧ e.target = some target ∧
    (e.eventType = .blacklistAdd ∨ e.eventType = .blacklistRemove)

def ComplianceEvent.isAdd (e : ComplianceEvent) : Bool := e.eventType = .blacklistAdd

/-- The last event recorded for the target is an add. -/
def LastIsAdd (db : List ComplianceEvent) (mint target : Text) : Prop :=
  ∃ e, (history db mint target).getLast? = some e ∧ e.isAdd = true

/-- How often the list has the target. -/
def listed (db : List ComplianceEvent) (mint target : Text) : Nat :=
  (getBlacklist db mint).countP (·.target = some target)

/-- The target is listed once exactly if it is answered blacklisted, and exactly if it was added last. -/
def Agrees (db : List ComplianceEvent) (mint target : Text) : Prop :=
  (listed db mint target = 1 ↔ (getBlacklistEntry db mint target).blacklisted = true) ∧
    ((getBlacklistEntry db mint target).blacklisted = true ↔ LastIsAdd db mint target)

variable {db : List ComplianceEvent} {mint target : Text}

theorem mem_history {e : ComplianceEvent} : e ∈ history db mint target ↔ e ∈ db ∧ e.mint = mint ∧
    e.target = some target ∧ (e.eventType = .blacklistAdd ∨ e.eventType = .blacklistRemove) := by
  simp [history]

theorem history_isAdd : (history db mint target).filter (·.isAdd) =
    db.filter fun e => e.mint = mint ∧ e.target = some target ∧ e.eventType = .blacklistAdd := by
  rw [history, List.filter_filter]
  refine List.filter_congr fun e _ => ?_
  rw [Bool.eq_iff_iff]
  simp only [ComplianceEvent.isAdd, Bool.and_eq_true, decide_eq_true_eq]
  constructor
  · rintro ⟨hadd, hmint, htarget, -⟩
    exact ⟨hmint, htarget, hadd⟩
  · rintro ⟨hmint, htarget, hadd⟩
    exact ⟨hadd, hmint, htarget, .inl hadd⟩

theorem mem_history_remove {e : ComplianceEvent} : e ∈ history db mint target ∧ e.isAdd = false ↔
    e ∈ db ∧ e.mint = mint ∧ e.target = some target ∧ e.eventType = .blacklistRemove := by
  rw [mem_history, ComplianceEvent.isAdd, decide_eq_false_iff_not]
  constructor
  · rintro ⟨⟨hdb, hmint, htarget, htype⟩, hadd⟩
    exact ⟨hdb, hmint, htarget, htype.resolve_left hadd⟩
  · rintro ⟨hdb, hmint, htarget, htype⟩
    exact ⟨⟨hdb, hmint, htarget, .inr htype⟩, by rw [htype]; decide⟩

/-- **The query for one target** answers what its last event says. -/
theorem blacklisted_iff (h : Dated.InOrder ComplianceEvent.createdAt (history db mint target)) :
    (getBlacklistEntry db mint target).blacklisted = true ↔ LastIsAdd db mint target := by
  rw [LastIsAdd, ← Dated.getLast?_filter_iff h, getBlacklistEntry, ← history_isAdd,
    Dated.latestFirst_eq_reverse (h.filter _), List.head?_reverse]
  cases ((history db mint target).filter (·.isAdd)).getLast? with
  | none => simp
  | some a =>
    have hfind : (db.find? fun e => e.mint = mint ∧ e.target = some target ∧ e.eventType = .blacklistRemove ∧
        a.createdAt < e.createdAt) = none ↔
        ∀ b ∈ history db mint target, b.isAdd = false → ¬a.createdAt < b.createdAt := by
      simp only [List.find?_eq_none, decide_eq_true_eq]
      constructor
      · intro hnone b hb hremove hlater
        obtain ⟨hdb, hmint, htarget, htype⟩ := mem_history_remove.1 ⟨hb, hremove⟩
        exact hnone b hdb ⟨hmint, htarget, htype, hlater⟩
      · rintro hlatest b hdb ⟨hmint, htarget, htype, hlater⟩
        obtain ⟨hb, hremove⟩ := mem_history_remove.2 ⟨hdb, hmint, htarget, htype⟩
        exact hlatest b hb hremove hlater
    simp only [Option.some.injEq, exists_eq_left', ← hfind]
    split
    · next hnone => exact iff_of_true rfl hnone
    · next e hsome => exact iff_of_false Bool.false_ne_true fun hnone => Option.some_ne_none e (hsome ▸ hnone)

/-! ### The list -/

theorem mem_removedAddresses :
    target ∈ (db.filter fun e => e.mint = mint ∧ e.eventType = .blacklistRemove).filterMap (·.target) ↔
      ∃ e ∈ history db mint target, e.isAdd = false := by
  simp only [List.mem_filterMap, List.mem_filter, decide_eq_true_eq]
  refine exists_congr fun e => ?_
  rw [mem_history_remove, and_assoc, and_assoc, and_comm (a := e.eventType = _)]

/-- The list has the adds of a target that was never removed. -/
theorem listed_eq : listed db mint target =
    if target ≠ [] ∧ ∀ e ∈ history db mint target, e.isAdd = true then (history db mint target).length else 0 := by
  unfold listed getBlacklist
  rw [List.countP_map, List.countP_filter, Dated.latestFirst_perm.countP_eq, List.countP_filter]
  split_ifs with h
  · obtain ⟨htarget, hadds⟩ := h
    rw [history, ← List.countP_eq_length_filter]
    refine List.countP_congr fun e he => ?_
    simp only [Function.comp_apply, Bool.and_eq_true, decide_eq_true_eq]
    constructor
    · rintro ⟨⟨htarget', -⟩, hmint, hadd⟩
      exact ⟨hmint, htarget', .inl hadd⟩
    · rintro ⟨hmint, htarget', htype⟩
      have hadd := of_decide_eq_true (hadds e (mem_history.2 ⟨he, hmint, htarget', htype⟩))
      refine ⟨⟨htarget', target, htarget', htarget, ?_⟩, hmint, hadd⟩
      rw [mem_removedAddresses]
      rintro ⟨e', he', hremove⟩
      rw [hadds e' he'] at hremove
      contradiction
  · rw [List.countP_eq_zero]
    intro e _ hlisted
    simp only [Function.comp_apply, Bool.and_eq_true, decide_eq_true_eq] at hlisted
    obtain ⟨⟨htarget', t, ht, hne, hnot⟩, -, -⟩ := hlisted
    obtain rfl : t = target := Option.some.inj (ht.symm.trans htarget')
    refine h ⟨hne, fun e' he' => ?_⟩
    by_contra hremove
    exact hnot (mem_removedAddresses.2 ⟨e', he', Bool.eq_false_of_not_eq_true hremove⟩)

theorem listed_eq_one_iff : listed db mint target = 1 ↔
    target ≠ [] ∧ ∃ e, history db mint target = [e] ∧ e.isAdd = true := by
  rw [listed_eq]
  split_ifs with h
  · rw [List.length_eq_one_iff]
    constructor
    · rintro ⟨e, he⟩
      exact ⟨h.1, e, he, h.2 e (he ▸ List.mem_singleton_self e)⟩
    · rintro ⟨-, e, he, -⟩
      exact ⟨e, he⟩
  · refine iff_of_false (by decide) ?_
    rintro ⟨htarget, e, he, hadd⟩
    refine h ⟨htarget, fun e' he' => ?_⟩
    rw [he, List.mem_singleton] at he'
    rw [he', hadd]

/-- **Both queries agree with the history** of a target exactly when, if it was added last, that is all that was
recorded for it. -/
theorem queries_agree_iff (db : List ComplianceEvent) (mint target : Text)
    (h : Dated.InOrder ComplianceEvent.createdAt (history db mint target)) : Agrees db mint target ↔
      (LastIsAdd db mint target → target ≠ [] ∧ (history db mint target).length = 1) := by
  rw [Agrees, and_iff_left (blacklisted_iff h), blacklisted_iff h, listed_eq_one_iff]
  constructor
  · intro hagrees hlast
    obtain ⟨htarget, e, he, -⟩ := hagrees.2 hlast
    exact ⟨htarget, by rw [he, List.length_singleton]⟩
  · intro hsingle
    constructor
    · rintro ⟨-, e, he, hadd⟩
      exact ⟨e, by rw [he, List.getLast?_singleton], hadd⟩
    · intro hlast
      obtain ⟨htarget, hlength⟩ := hsingle hlast
      obtain ⟨e, he⟩ := List.length_eq_one_iff.1 hlength
      obtain ⟨e', he', hadd⟩ := hlast
      rw [he, List.getLast?_singleton] at he'
      exact ⟨htarget, e, he, Option.some.inj he' ▸ hadd⟩

/-! ### Samples -/

instance (db : List ComplianceEvent) (mint target : Text) : Decidable (LastIsAdd db mint target) :=
  decidable_of_iff ((history db mint target).getLast?.any (·.isAdd)) (Option.any_eq_true _ _)

instance (db : List ComplianceEvent) (mint target : Text) : Decidable (Agrees db mint target) :=
  inferInstanceAs (Decidable (_ ∧ _))

def sampleEvent (eventType : ComplianceEventType) (target : Text) (createdAt : Nat) : ComplianceEvent :=
  ⟨['m'], eventType, some target, ['o'], none, ['s'], createdAt⟩

/-- Wallet `a` is added, removed and added again, `b` is added and removed, and `c` is added. -/
def sampleEvents : List ComplianceEvent :=
  [sampleEvent .blacklistAdd ['a'] 1, sampleEvent .blacklistAdd ['b'] 2, sampleEvent .blacklistRemove ['a'] 3,
    sampleEvent .blacklistAdd ['c'] 4, sampleEvent .blacklistAdd ['a'] 5, sampleEvent .blacklistRemove ['b'] 6]

theorem queries_agree_sample : Agrees sampleEvents ['m'] ['b'] ∧ Agrees sampleEvents ['m'] ['c'] :=
  ⟨(queries_agree_iff sampleEvents ['m'] ['b'] (by decide +kernel)).2 (by decide +kernel),
    (queries_agree_iff sampleEvents ['m'] ['c'] (by decide +kernel)).2 (by decide +kernel)⟩

/-- The wallet that was added again is on the blacklist and not on the list. -/
theorem added_again_not_listed : Dated.InOrder ComplianceEvent.createdAt sampleEvents ∧
    LastIsAdd sampleEvents ['m'] ['a'] ∧ (getBlacklistEntry sampleEvents ['m'] ['a']).blacklisted = true ∧
    listed sampleEvents ['m'] ['a'] = 0 ∧ ¬Agrees sampleEvents ['m'] ['a'] := by
  decide +kernel

end ThawGate.Backend
