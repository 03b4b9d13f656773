import ThawGate.Token.EntryBytes

/-!
# Configs from before `compliance_mode`

A config account used to have 350 bytes, and its fields ended with the bump. The strings are written at their own
length into space for the longest ones, so behind the bump there are zeroes unless all three are as long as can
be, and the new last field is read from the first of them: Hook mode.

Instructions after `initialize` change a config's authority, its flag and its counters (`exec_updates`), and so
never its length: what is written back fits the 350 bytes, and is what the next one reads (`legacy_config`).
-/

namespace ThawGate.Token

open Borsh Exec Function

variable {W : Type} {P : Programs W} {now : Int64} {s s' : State W}

/-! ### The two layouts -/

namespace StablecoinConfig

def codec : Codec StablecoinConfig :=
  (Pubkey.codec.prod <| Pubkey.codec.prod <| Codec.str.prod <| Codec.str.prod <| Codec.str.prod <| Codec.u8.prod <|
    Codec.bool.prod <| Codec.bool.prod <| Codec.bool.prod <| Codec.bool.prod <| Codec.bool.prod <| Codec.bool.prod <|
    Codec.u64.prod <| Codec.u64.prod <| Codec.u8.prod Codec.u8).pmap
    (fun (a, m, n, y, u, d, pd, th, df, ct, al, p, tm, tb, b, c) =>
      some ⟨a, m, n, y, u, d, pd, th, df, ct, al, p, tm, tb, b, c⟩)
    (fun c => (c.authority, c.mint, c.name, c.symbol, c.uri, c.decimals, c.enablePermanentDelegate, c.enableTransferHook,
      c.defaultAccountFrozen, c.enableConfidentialTransfers, c.enableAllowlist, c.paused, c.totalMinted, c.totalBurned,
      c.bump, c.complianceMode))
    (by rintro ⟨a, m, n, y, u, d, pd, th, df, ct, al, p, tm, tb, b, c⟩ ⟨⟩; simp)

def account : AccountType StablecoinConfig where
  discriminator := [127, 25, 244, 213, 1, 192, 101, 6]
  codec := codec

end StablecoinConfig

/-- Discriminator, authority, mint, the three strings, decimals, six flags, two counters, bump, mode. -/
def stablecoinConfigSize : Nat :=
  8 + 32 + 32 + (4 + maxNameLen) + (4 + maxSymbolLen) + (4 + maxUriLen) + 1 + 1 + 1 + 1 + 1 + 1 + 1 + 8 + 8 + 1 + 1

/-- The config as it was written before. -/
structure LegacyConfig where
  authority : Pubkey
  mint : Pubkey
  name : Str
  symbol : Str
  uri : Str
  decimals : UInt8
  enablePermanentDelegate : Bool
  enableTransferHook : Bool
  defaultAccountFrozen : Bool
  enableConfidentialTransfers : Bool
  enableAllowlist : Bool
  paused : Bool
  totalMinted : UInt64
  totalBurned : UInt64
  bump : UInt8
  deriving DecidableEq

def legacyConfigSize : Nat := 350

namespace LegacyConfig

def codec : Codec LegacyConfig :=
  (Pubkey.codec.prod <| Pubkey.codec.prod <| Codec.str.prod <| Codec.str.prod <| Codec.str.prod <| Codec.u8.prod <|
    Codec.bool.prod <| Codec.bool.prod <| Codec.bool.prod <| Codec.bool.prod <| Codec.bool.prod <| Codec.bool.prod <|
    Codec.u64.prod <| Codec.u64.prod Codec.u8).pmap
    (fun (a, m, n, y, u, d, pd, th, df, ct, al, p, tm, tb, b) => some ⟨a, m, n, y, u, d, pd, th, df, ct, al, p, tm, tb, b⟩)
    (fun c => (c.authority, c.mint, c.name, c.symbol, c.uri, c.decimals, c.enablePermanentDelegate, c.enableTransferHook,
      c.defaultAccountFrozen, c.enableConfidentialTransfers, c.enableAllowlist, c.paused, c.totalMinted, c.totalBurned,
      c.bump))
    (by rintro ⟨a, m, n, y, u, d, pd, th, df, ct, al, p, tm, tb, b⟩ ⟨⟩; simp)

/-- The discriminator is that of the name, which stayed. -/
def account : AccountType LegacyConfig where
  discriminator := StablecoinConfig.account.discriminator
  codec := codec

/-- The account: the fields, and zeroes up to its size. -/
def data (c : LegacyConfig) : Bytes :=
  account.bytes c ++ List.replicate (legacyConfigSize - (account.bytes c).length) 0

/-- What `initialize` checks of the strings, and not all three at their maximum. -/
structure Spare (c : LegacyConfig) : Prop where
  name : c.name.bytes.length ≤ maxNameLen
  symbol : c.symbol.bytes.length ≤ maxSymbolLen
  uri : c.uri.bytes.length ≤ maxUriLen
  spare : ¬(c.name.bytes.length = maxNameLen ∧ c.symbol.bytes.length = maxSymbolLen ∧ c.uri.bytes.length = maxUriLen)

end LegacyConfig

/-- The old fields of a config. -/
def StablecoinConfig.legacy (c : StablecoinConfig) : LegacyConfig where
  authority := c.authority
  mint := c.mint
  name := c.name
  symbol := c.symbol
  uri := c.uri
  decimals := c.decimals
  enablePermanentDelegate := c.enablePermanentDelegate
  enableTransferHook := c.enableTransferHook
  defaultAccountFrozen := c.defaultAccountFrozen
  enableConfidentialTransfers := c.enableConfidentialTransfers
  enableAllowlist := c.enableAllowlist
  paused := c.paused
  totalMinted := c.totalMinted
  totalBurned := c.totalBurned
  bump := c.bump

/-- The new layout is the old one with the mode behind it. -/
theorem StablecoinConfig.bytes_eq (c : StablecoinConfig) :
    StablecoinConfig.account.bytes c = LegacyConfig.account.bytes c.legacy ++ [c.complianceMode] := by
  simp only [AccountType.bytes, StablecoinConfig.account, LegacyConfig.account, StablecoinConfig.codec, LegacyConfig.codec,
    Codec.pmap, Codec.prod, StablecoinConfig.legacy, List.append_assoc]
  rfl

theorem LegacyConfig.bytes_length (c : LegacyConfig) : (LegacyConfig.account.bytes c).length =
    108 + c.name.bytes.length + c.symbol.bytes.length + c.uri.bytes.length := by
  have hauthority : c.authority.1.length = 32 := c.authority.2
  have hmint : c.mint.1.length = 32 := c.mint.2
  simp only [AccountType.bytes, LegacyConfig.account, StablecoinConfig.account, LegacyConfig.codec, Pubkey.codec, Codec.chunk,
    Codec.str, Codec.vec, Codec.u64, Codec.le, Codec.bool, Codec.u8, Codec.pmap, Codec.prod, List.length_append,
    List.length_cons, List.length_nil, leBytes_length, hauthority, hmint]
  omega

theorem StablecoinConfig.bytes_length (c : StablecoinConfig) : (StablecoinConfig.account.bytes c).length =
    109 + c.name.bytes.length + c.symbol.bytes.length + c.uri.bytes.length := by
  rw [c.bytes_eq, List.length_append, LegacyConfig.bytes_length]
  show 108 + c.name.bytes.length + c.symbol.bytes.length + c.uri.bytes.length + 1 = _
  omega

/-- Today's size has room for every config that `initialize` accepts. -/
theorem StablecoinConfig.bytes_fit {c : StablecoinConfig} (hname : c.name.bytes.length ≤ maxNameLen)
    (hsymbol : c.symbol.bytes.length ≤ maxSymbolLen) (huri : c.uri.bytes.length ≤ maxUriLen) :
    (StablecoinConfig.account.bytes c).length ≤ stablecoinConfigSize := by
  rw [StablecoinConfig.bytes_length, stablecoinConfigSize]
  omega

/-! ### Updates -/

/-- A change of one of the fields that are not fixed at initialization. -/
inductive ConfigUpdate where
  | authority (newAuthority : Pubkey)
  | paused (value : Bool)
  | totalMinted (value : UInt64)
  | totalBurned (value : UInt64)

def ConfigUpdate.apply (c : StablecoinConfig) : ConfigUpdate → StablecoinConfig
  | .authority newAuthority => { c with authority := newAuthority }
  | .paused value => { c with paused := value }
  | .totalMinted value => { c with totalMinted := value }
  | .totalBurned value => { c with totalBurned := value }

/-- The config is loaded from the account, updated, and written back. -/
def rewriteConfig (data : Bytes) (update : ConfigUpdate) : Option Bytes :=
  (StablecoinConfig.account.tryDeserialize data).bind fun c => StablecoinConfig.account.store data (update.apply c)

theorem ConfigUpdate.bytes_length (c : StablecoinConfig) (update : ConfigUpdate) :
    (StablecoinConfig.account.bytes (update.apply c)).length = (StablecoinConfig.account.bytes c).length := by
  cases update <;> rw [StablecoinConfig.bytes_length, StablecoinConfig.bytes_length] <;> rfl

theorem ConfigUpdate.foldl_length (c : StablecoinConfig) (updates : List ConfigUpdate) :
    (StablecoinConfig.account.bytes (updates.foldl ConfigUpdate.apply c)).length =
      (StablecoinConfig.account.bytes c).length := by
  induction updates generalizing c with
  | nil => rfl
  | cons update updates ih => rw [List.foldl_cons, ih, update.bytes_length]

/-- The account holds the config. -/
structure HoldsConfig (data : Bytes) (c : StablecoinConfig) : Prop where
  size : data.length = legacyConfigSize
  fits : (StablecoinConfig.account.bytes c).length ≤ legacyConfigSize
  reads : StablecoinConfig.account.tryDeserialize data = some c

/-- **Step.** An update fits, and is what is read next. -/
theorem HoldsConfig.rewrite {data : Bytes} {c : StablecoinConfig} (h : HoldsConfig data c) (update : ConfigUpdate) :
    ∃ data', rewriteConfig data update = some data' ∧ HoldsConfig data' (update.apply c) := by
  have hfits : (StablecoinConfig.account.bytes (update.apply c)).length ≤ data.length := by
    rw [update.bytes_length, h.size]
    exact h.fits
  obtain ⟨data', hstore, hreads, hsize⟩ := StablecoinConfig.account.store_of_fits hfits
  refine ⟨data', ?_, hsize.trans h.size, ?_, hreads⟩
  · rw [rewriteConfig, h.reads, Option.bind_some, hstore]
  · rw [update.bytes_length]
    exact h.fits

/-- **Run.** So does every sequence of updates. -/
theorem HoldsConfig.rewrites {data : Bytes} {c : StablecoinConfig} (h : HoldsConfig data c) (updates : List ConfigUpdate) :
    ∃ data', updates.foldlM rewriteConfig data = some data' ∧ HoldsConfig data' (updates.foldl ConfigUpdate.apply c) := by
  induction updates generalizing data c with
  | nil => exact ⟨data, rfl, h⟩
  | cons update updates ih =>
    obtain ⟨data₁, hfirst, h₁⟩ := h.rewrite update
    obtain ⟨data₂, hrest, h₂⟩ := ih h₁
    refine ⟨data₂, ?_, h₂⟩
    rw [List.foldlM_cons, hfirst]
    exact hrest

namespace LegacyConfig

/-- The config that is read from the account. -/
def upgraded (c : LegacyConfig) : StablecoinConfig where
  authority := c.authority
  mint := c.mint
  name := c.name
  symbol := c.symbol
  uri := c.uri
  decimals := c.decimals
  enablePermanentDelegate := c.enablePermanentDelegate
  enableTransferHook := c.enableTransferHook
  defaultAccountFrozen := c.defaultAccountFrozen
  enableConfidentialTransfers := c.enableConfidentialTransfers
  enableAllowlist := c.enableAllowlist
  paused := c.paused
  totalMinted := c.totalMinted
  totalBurned := c.totalBurned
  bump := c.bump
  complianceMode := complianceModeHook

/-- There is a zero behind the bump, and it is read as the mode. -/
theorem holds (c : LegacyConfig) (hc : c.Spare) : HoldsConfig c.data c.upgraded := by
  obtain ⟨hname, hsymbol, huri, hspare⟩ := hc
  have hlen := c.bytes_length
  have hnames : maxNameLen = 32 := rfl
  have hsymbols : maxSymbolLen = 10 := rfl
  have huris : maxUriLen = 200 := rfl
  have hroom : (account.bytes c).length < legacyConfigSize := by
    show _ < 350
    omega
  obtain ⟨n, hn⟩ : ∃ n, legacyConfigSize - (account.bytes c).length = n + 1 := Nat.exists_eq_add_one.2 (by omega)
  have hbytes : c.data = StablecoinConfig.account.bytes c.upgraded ++ List.replicate n 0 := by
    rw [data, hn, List.replicate_succ, StablecoinConfig.bytes_eq, List.append_assoc]
    rfl
  refine ⟨?_, ?_, ?_⟩
  · rw [data, List.length_append, List.length_replicate]
    omega
  · rw [StablecoinConfig.bytes_eq, List.length_append]
    exact hroom
  · rw [hbytes, AccountType.tryDeserialize_bytes]

end LegacyConfig

/-- **A config from before `compliance_mode` is read with its old fields and in Hook mode**, and after any updates
of its authority, its flag and its counters it is written within its 350 bytes and read as updated. -/
theorem legacy_config (c : LegacyConfig) (hc : c.Spare) (updates : List ConfigUpdate) :
    c.data.length = 350 ∧
      (∃ d, StablecoinConfig.account.tryDeserialize c.data = some d ∧ d.legacy = c ∧
        d.complianceMode = complianceModeHook ∧
        ∃ data', updates.foldlM rewriteConfig c.data = some data' ∧ data'.length = 350 ∧
          (StablecoinConfig.account.bytes (updates.foldl ConfigUpdate.apply d)).length ≤ 350 ∧
          StablecoinConfig.account.tryDeserialize data' = some (updates.foldl ConfigUpdate.apply d)) := by
  have hholds := c.holds hc
  obtain ⟨data', hrewrites, hholds'⟩ := hholds.rewrites updates
  exact ⟨hholds.size, c.upgraded, hholds.reads, rfl, rfl, data', hrewrites, hholds'.size, hholds'.fits, hholds'.reads⟩

/-- With all three strings at their maximum nothing is behind the bump, and the account is not read. -/
theorem LegacyConfig.not_read (c : LegacyConfig) (h : (LegacyConfig.account.bytes c).length = legacyConfigSize) :
    StablecoinConfig.account.tryDeserialize c.data = none := by
  have hdata : c.data = LegacyConfig.account.bytes c ++ [] := by rw [LegacyConfig.data, h, Nat.sub_self]; rfl
  cases hread : StablecoinConfig.account.tryDeserialize c.data with
  | none => rfl
  | some d =>
    obtain ⟨tail, htail⟩ := StablecoinConfig.account.tryDeserialize_iff.1 hread
    rw [d.bytes_eq, List.append_assoc] at htail
    -- the old fields of what was read are those that were written, and there is no room for the mode
    have hold := LegacyConfig.account.tryDeserialize_bytes c []
    rw [← hdata, htail, AccountType.tryDeserialize_bytes] at hold
    have hlength := congrArg List.length htail
    rw [Option.some.inj hold, hdata] at hlength
    simp at hlength

/-! ### What the instructions update -/

theorem eq_updates_of_fixed {c c' : StablecoinConfig} (h : c'.fixed = c.fixed) :
    c' = [ConfigUpdate.paused c'.paused, .totalMinted c'.totalMinted, .totalBurned c'.totalBurned].foldl
      ConfigUpdate.apply c := by
  cases c
  cases c'
  simp only [StablecoinConfig.fixed, StablecoinConfig.mk.injEq, true_and] at h
  obtain ⟨rfl, rfl, rfl, rfl, rfl, rfl, rfl, rfl, rfl, rfl, rfl, rfl, rfl⟩ := h
  rfl

/-- An instruction that finds a config updates its authority, its flag or its counters, and nothing else of it. -/
theorem exec_updates {ix : Instruction} {a : Pda} {c : StablecoinConfig} (h : exec P now s ix = ok s')
    (hc : s.ledger.configs a = some c) :
    ∃ updates : List ConfigUpdate, s'.ledger.configs a = some (updates.foldl ConfigUpdate.apply c) := by
  by_cases hix : .role ∈ ix.writes
  · cases ix <;> simp only [Instruction.writes, List.mem_cons, List.not_mem_nil, reduceCtorEq, or_false] at hix
    case initializeStablecoin x args =>
      obtain ⟨⟨-, hvacant⟩, -, -, calls, w, -, -, rfl⟩ := initializeHandler_ok h
      have hne : a ≠ x.config := by
        rintro rfl
        rw [Ledger.configs_of_vacant hvacant] at hc
        cases hc
      exact ⟨[], (update_of_ne hne _ _).trans hc⟩
    case updateMinter x minter limit period =>
      obtain ⟨_, _, -, -, -, -, rfl⟩ := handlerUpdateMinter_ok h
      exact ⟨[], hc⟩
    case updateRoles x holder role active =>
      obtain ⟨_, _, -, -, -, -, rfl⟩ := handlerUpdateRoles_ok h
      exact ⟨[], hc⟩
    case transferAuthority x newAuthority =>
      obtain ⟨c', _, hc', -, -, -, rfl⟩ := handlerTransferAuthority_ok h
      by_cases ha : a = x.config
      · subst ha
        obtain rfl := Option.some.inj (hc.symm.trans (configAccount_eq_ok.1 hc').1)
        exact ⟨[.authority newAuthority], update_self ..⟩
      · exact ⟨[], (update_of_ne ha _ _).trans hc⟩
  · have hmap := (exec_sameAuthority hix h).configs a
    rw [hc, Option.map_some] at hmap
    obtain ⟨c', hc', hfixed⟩ := Option.map_eq_some_iff.1 hmap
    exact ⟨_, hc'.trans (congrArg some (eq_updates_of_fixed hfixed))⟩

/-- **Step.** So the account of a config, old or new, can always be written back after an instruction. -/
theorem exec_holdsConfig {ix : Instruction} {a : Pda} {c : StablecoinConfig} {data : Bytes} (h : exec P now s ix = ok s')
    (hc : s.ledger.configs a = some c) (hholds : HoldsConfig data c) :
    ∃ c' data', s'.ledger.configs a = some c' ∧ StablecoinConfig.account.store data c' = some data' ∧ HoldsConfig data' c' := by
  obtain ⟨updates, hc'⟩ := exec_updates h hc
  have hlength := ConfigUpdate.foldl_length c updates
  have hfits : (StablecoinConfig.account.bytes (updates.foldl ConfigUpdate.apply c)).length ≤ data.length := by
    rw [hlength, hholds.size]
    exact hholds.fits
  obtain ⟨data', hstore, hreads, hsize⟩ := StablecoinConfig.account.store_of_fits hfits
  exact ⟨_, data', hc', hstore, hsize.trans hholds.size, hlength ▸ hholds.fits, hreads⟩

/-! ### Samples -/

/-- A config in Hook mode, since there was no other, with the name `Dollar`, the symbol `USD` and the URI `u`. -/
def legacySample : LegacyConfig where
  authority := sampleKey 1
  mint := sampleKey 2
  name := ⟨[68, 111, 108, 108, 97, 114], by decide, by decide⟩
  symbol := ⟨[85, 83, 68], by decide, by decide⟩
  uri := ⟨[117], by decide, by decide⟩
  decimals := 6
  enablePermanentDelegate := true
  enableTransferHook := true
  defaultAccountFrozen := false
  enableConfidentialTransfers := false
  enableAllowlist := false
  paused := false
  totalMinted := 1000
  totalBurned := 10
  bump := 254

theorem legacy_config_sample :
    ∃ data', [ConfigUpdate.paused true, .totalMinted 2000].foldlM rewriteConfig legacySample.data = some data' ∧
      data'.length = 350 ∧
      StablecoinConfig.account.tryDeserialize data' =
        some { legacySample.upgraded with paused := true, totalMinted := 2000 } := by
  obtain ⟨-, d, hd, hlegacy, hmode, data', hrewrites, hsize, -, hreads⟩ :=
    legacy_config legacySample ⟨by decide, by decide, by decide, by decide⟩ [.paused true, .totalMinted 2000]
  refine ⟨data', hrewrites, hsize, hreads.trans ?_⟩
  obtain ⟨⟩ := d
  obtain rfl := hmode
  obtain ⟨⟩ := hlegacy
  rfl

end ThawGate.Token
