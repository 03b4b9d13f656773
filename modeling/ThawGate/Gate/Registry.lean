import ThawGate.Gate.State
import ThawGate.Token.Entry

/-!
# Reading the issuer registry

`readBlacklist` and `readAllowlist`, the gate's readers of sss-token's entries. What an account says
about a wallet is stated without the reader: `Says`, through an entry whose encoding the account's
data starts with. The reader returns `s` exactly when the account says `s`, fails on every other
account, and never panics (`read_eq_ok`, `read_of_malformed`, `says_or_malformed`).
-/

namespace ThawGate.Gate

open Borsh Exec Token

/-- What the registry says about one wallet. -/
inductive Entry where
  | none
  | inactive
  | active
  deriving DecidableEq, Repr

/-- The two entry types, by what the gate reads of them. -/
structure EntryType (α : Type) where
  account : AccountType α
  mint : α → Pubkey
  wallet : α → Pubkey
  active : α → Bool

namespace EntryType

variable {α : Type} (t : EntryType α)

/-- An account's data as an entry for this mint and wallet. -/
def parse (data : Bytes) (mint wallet : Pubkey) : Exec GateError Entry := do
  require (t.account.discriminator.isPrefixOf data) .deniedBadRegistryEntry
  let fields ← rangeFrom data t.account.discriminator.length
  let e ← orErr ((t.account.codec.dec fields).map Prod.fst) .deniedBadRegistryEntry
  require (t.mint e = mint ∧ t.wallet e = wallet) .deniedBadRegistryEntry
  pure (if t.active e then .active else .inactive)

def read (info : AccountInfo) (issuer mint wallet : Pubkey) : Exec GateError Entry :=
  if info.data.isEmpty then .ok .none
  else do
    require (info.owner = issuer) .deniedBadRegistryEntry
    t.parse info.data mint wallet

/-! ### What an account says -/

/-- `info` is the registry's entry `e` for this mint and wallet. -/
structure Holds (issuer mint wallet : Pubkey) (info : AccountInfo) (e : α) : Prop where
  owner : info.owner = issuer
  data : ∃ tail, info.data = t.account.bytes e ++ tail
  mint : t.mint e = mint
  wallet : t.wallet e = wallet

def Says (issuer mint wallet : Pubkey) (info : AccountInfo) : Entry → Prop
  | .none => info.data = []
  | .inactive => info.data ≠ [] ∧ ∃ e, t.Holds issuer mint wallet info e ∧ t.active e = false
  | .active => info.data ≠ [] ∧ ∃ e, t.Holds issuer mint wallet info e ∧ t.active e = true

/-- There is an account, and it is not this registry's entry for this mint and wallet. -/
def Malformed (issuer mint wallet : Pubkey) (info : AccountInfo) : Prop :=
  info.data ≠ [] ∧ ∀ e, ¬t.Holds issuer mint wallet info e

variable {t} {issuer mint wallet : Pubkey} {info : AccountInfo}

theorem says_or_malformed (t : EntryType α) (issuer mint wallet : Pubkey) (info : AccountInfo) :
    (∃ s, t.Says issuer mint wallet info s) ∨ t.Malformed issuer mint wallet info := by
  by_cases hempty : info.data = []
  · exact .inl ⟨.none, hempty⟩
  by_cases hholds : ∃ e, t.Holds issuer mint wallet info e
  · obtain ⟨e, he⟩ := hholds
    cases hactive : t.active e with
    | false => exact .inl ⟨.inactive, hempty, e, he, hactive⟩
    | true => exact .inl ⟨.active, hempty, e, he, hactive⟩
  · exact .inr ⟨hempty, not_exists.1 hholds⟩

/-! ### The reader -/

theorem parse_eq (t : EntryType α) (data : Bytes) (mint wallet : Pubkey) :
    t.parse data mint wallet = (do
      let e ← orErr (t.account.tryDeserialize data) .deniedBadRegistryEntry
      require (t.mint e = mint ∧ t.wallet e = wallet) .deniedBadRegistryEntry
      pure (if t.active e then .active else .inactive)) := by
  rw [parse, AccountType.tryDeserialize]
  by_cases hdisc : t.account.discriminator.isPrefixOf data
  · have hlen := (List.isPrefixOf_iff_prefix.1 hdisc).length_le
    rw [require_pos hdisc, if_pos hdisc, bind_ok, rangeFrom_eq hlen, bind_ok]
  · rw [require_neg hdisc, if_neg hdisc]
    rfl

theorem read_of_holds {e : α} (hempty : info.data ≠ []) (h : t.Holds issuer mint wallet info e) :
    t.read info issuer mint wallet = .ok (if t.active e then .active else .inactive) := by
  have hdec := t.account.tryDeserialize_iff.2 h.data
  rw [read, if_neg (by simpa using hempty), require_pos h.owner, bind_ok, parse_eq, hdec, orErr_some,
    bind_ok, require_pos ⟨h.mint, h.wallet⟩, bind_ok, pure_eq]

theorem read_of_said {s : Entry} (h : t.Says issuer mint wallet info s) :
    t.read info issuer mint wallet = .ok s := by
  cases s with
  | none =>
    have hempty : info.data = [] := h
    rw [read, if_pos (by simp [hempty])]
  | inactive =>
    obtain ⟨hempty, e, he, hactive⟩ := h
    rw [read_of_holds hempty he, hactive]
    rfl
  | active =>
    obtain ⟨hempty, e, he, hactive⟩ := h
    rw [read_of_holds hempty he, hactive]
    rfl

theorem read_of_malformed (h : t.Malformed issuer mint wallet info) :
    t.read info issuer mint wallet = .err .deniedBadRegistryEntry := by
  obtain ⟨hempty, hnone⟩ := h
  rw [read, if_neg (by simpa using hempty)]
  by_cases howner : info.owner = issuer
  · rw [require_pos howner, bind_ok, parse_eq]
    cases hdec : t.account.tryDeserialize info.data with
    | none => rfl
    | some e =>
      have hnames : ¬(t.mint e = mint ∧ t.wallet e = wallet) := fun hn =>
        hnone e ⟨howner, t.account.tryDeserialize_iff.1 hdec, hn.1, hn.2⟩
      rw [orErr_some, bind_ok, require_neg hnames, bind_err]
  · rw [require_neg howner, bind_err]

theorem read_eq_ok {s : Entry} :
    t.read info issuer mint wallet = .ok s ↔ t.Says issuer mint wallet info s := by
  refine ⟨fun h => ?_, read_of_said⟩
  rcases says_or_malformed t issuer mint wallet info with ⟨s', hs'⟩ | hbad
  · rw [read_of_said hs', ok.injEq] at h
    exact h ▸ hs'
  · rw [read_of_malformed hbad] at h
    cases h

theorem Says.unique {s s' : Entry} (h : t.Says issuer mint wallet info s)
    (h' : t.Says issuer mint wallet info s') : s = s' := by
  have hread := read_of_said h'
  rwa [read_of_said h, ok.injEq] at hread

theorem Says.not_malformed {s : Entry} (h : t.Says issuer mint wallet info s) :
    ¬t.Malformed issuer mint wallet info := by
  intro hbad
  have hread := read_of_said h
  rw [read_of_malformed hbad] at hread
  cases hread

end EntryType

/-! ### The two registries -/

def blacklistRegistry : EntryType BlacklistEntry where
  account := BlacklistEntry.account
  mint := BlacklistEntry.mint
  wallet := BlacklistEntry.target
  active := BlacklistEntry.active

def allowlistRegistry : EntryType AllowlistEntry where
  account := AllowlistEntry.account
  mint := AllowlistEntry.mint
  wallet := AllowlistEntry.wallet
  active := AllowlistEntry.active

def parseBlacklist (data : Bytes) (mint wallet : Pubkey) : Exec GateError Entry :=
  blacklistRegistry.parse data mint wallet

def parseAllowlist (data : Bytes) (mint wallet : Pubkey) : Exec GateError Entry :=
  allowlistRegistry.parse data mint wallet

def readBlacklist (info : AccountInfo) (issuer mint wallet : Pubkey) : Exec GateError Entry :=
  blacklistRegistry.read info issuer mint wallet

def readAllowlist (info : AccountInfo) (issuer mint wallet : Pubkey) : Exec GateError Entry :=
  allowlistRegistry.read info issuer mint wallet

end ThawGate.Gate
