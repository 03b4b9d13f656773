import ThawGate.Keeper.MintAccounts

/-!
# What freeze attempts read

A mint's cache was made after the mint's last policy change, and what is in it was sent after that. So where no
node that answers is behind what is needed of its answer, every attempt that starts after a policy change was
processed reads the mint's accounts at the change's slot or later (`reads_after_change`). Nodes that are
behind do answer: one such answer is then used until the next change (`stale_cache`).
-/

namespace ThawGate.Keeper

open Function

namespace FreezerCaches

/-! ### The invariant -/

/-- The read's answer, if there is one, is at `floor` or later. -/
def Covers (s : FreezerCaches) (floor fetch : Nat) : Prop := ∃ f, s.fetches fetch = some f ∧ floor ≤ f.needed

/-- What a call waits for will do for its attempt. A cache that is still to be filled is empty. -/
def Waits (s : FreezerCaches) (a : Attempt) : Stage → Prop
  | .filling cache => s.caches cache = some ⟨a.mint, fun _ => none⟩
  | .hit _ fetch | .direct fetch => s.Covers a.floor fetch

structure Current (s : FreezerCaches) : Prop where
  /-- A mint's cache was made and filled since the mint's last policy change. -/
  live : ∀ {m n}, s.mintAccounts m = some n → ∃ c, s.caches n = some c ∧ c.mint = m ∧
    ∀ {k f}, c.entries k = some f → s.Covers (s.floor m) f
  floor_le : ∀ {i a}, s.attempts i = some a → a.floor ≤ s.floor a.mint
  reads : ∀ {i a}, s.attempts i = some a → ∀ r ∈ a.reads, a.floor ≤ r.2
  calls : ∀ {i x}, s.calls i = some x → ∃ a, s.attempts x.attempt = some a ∧ s.Waits a x.stage
  /-- One call fills a cache. -/
  alone : ∀ {i j x y n}, s.calls i = some x → s.calls j = some y → x.stage = .filling n → y.stage = .filling n → i = j
  served : ∀ {n f slot}, s.fetches n = some f → f.result = .served slot → f.needed ≤ slot

theorem current_initial : initial.Current := by
  refine ⟨?_, ?_, ?_, ?_, ?_, ?_⟩ <;> intros <;> contradiction

section steps

variable {s s' : FreezerCaches}

theorem Covers.mono {floor floor' n : Nat} (h : s.Covers floor n) (hle : floor' ≤ floor) : s.Covers floor' n := by
  obtain ⟨f, hf, hneeded⟩ := h
  exact ⟨f, hf, hle.trans hneeded⟩

theorem Covers.needed {floor n : Nat} {f : Fetch} (h : s.Covers floor n) (hf : s.fetches n = some f) :
    floor ≤ f.needed := by
  obtain ⟨g, hg, hle⟩ := h
  rw [hf] at hg
  obtain rfl := Option.some.inj hg
  exact hle

namespace Current

/-! ### The keeper's steps -/

theorem setPolicies (h : s.Current) (policies : Pubkey → Option GatePolicy) :
    ({ s with policies } : FreezerCaches).Current :=
  ⟨h.live, h.floor_le, h.reads, h.calls, h.alone, h.served⟩

theorem invalidate (h : s.Current) (m : Pubkey) : (s.invalidate m).Current := by
  refine ⟨?_, h.floor_le, h.reads, h.calls, h.alone, h.served⟩
  intro m' n hn
  exact h.live (update_none_iff.1 hn).2

/-- A mint's floor may rise once its cache has been dropped. -/
theorem raise (h : s.Current) {m : Pubkey} {slot : Nat} (hm : s.mintAccounts m = none) :
    (s.raise m slot).Current := by
  refine ⟨?_, ?_, h.reads, h.calls, h.alone, h.served⟩
  · intro m' n hn
    have hne : m' ≠ m := by
      rintro rfl
      cases hm.symm.trans hn
    show ∃ c, _ ∧ _ ∧ ∀ {k f}, _ → Covers s (update s.floor m _ m') f
    rw [update_of_ne hne]
    exact h.live hn
  · intro i a ha
    have hle := h.floor_le ha
    show a.floor ≤ update s.floor m _ a.mint
    by_cases hm : a.mint = m
    · rw [hm] at hle ⊢
      rw [update_self]
      omega
    · rwa [update_of_ne hm]

theorem changed (h : s.Current) (policy : GatePolicy) (slot : Nat) :
    (((s.setMint policy).invalidate policy.mint).raise policy.mint slot).Current := by
  have hdropped : ((s.setMint policy).invalidate policy.mint).Current := (h.setPolicies _).invalidate _
  exact hdropped.raise (update_self ..)

theorem loadMint (h : s.Current) (policy : GatePolicy) (slot : Nat) : (s.loadMint policy slot).Current := by
  unfold FreezerCaches.loadMint
  split
  · exact h
  · exact h.changed policy slot

theorem onPolicy (h : s.Current) (policy : GatePolicy) (slot : Nat) : (s.onPolicy policy slot).Current :=
  (h.changed policy slot).loadMint policy slot

theorem dropMint (h : s.Current) (m : Pubkey) : (s.dropMint m).Current := (h.setPolicies _).invalidate m

/-! ### Reads -/

theorem setFetches (h : s.Current) {fetches : Nat → Option Fetch}
    (hcovers : ∀ {floor n}, s.Covers floor n → ({ s with fetches } : FreezerCaches).Covers floor n)
    (hserved : ∀ {n f slot}, fetches n = some f → f.result = .served slot → f.needed ≤ slot) :
    ({ s with fetches } : FreezerCaches).Current := by
  refine ⟨?_, h.floor_le, h.reads, ?_, h.alone, hserved⟩
  · intro m n hn
    obtain ⟨c, hc, hmint, hentries⟩ := h.live hn
    exact ⟨c, hc, hmint, fun hk => hcovers (hentries hk)⟩
  · intro i x hx
    obtain ⟨a, ha, hwaits⟩ := h.calls hx
    refine ⟨a, ha, ?_⟩
    cases hstage : x.stage with
    | filling cache =>
      rw [hstage] at hwaits
      exact hwaits
    | hit cache fetch | direct fetch =>
      rw [hstage] at hwaits
      exact hcovers hwaits

/-- A read that is sent covers what is needed of it, and changes nothing else. -/
theorem send (h : s.Current) {n needed : Nat} (hs : s.send n needed = some s') :
    s'.Current ∧ s'.Covers needed n ∧ (∀ {floor k}, s.Covers floor k → s'.Covers floor k) ∧
      s' = { s with fetches := s'.fetches } := by
  unfold FreezerCaches.send at hs
  split_ifs at hs with hfresh
  obtain rfl := Option.some.inj hs
  have hcovers : ∀ {floor k}, s.Covers floor k →
      ({ s with fetches := update s.fetches n (some ⟨needed, .pending⟩) } : FreezerCaches).Covers floor k := by
    intro floor k ⟨f, hf, hle⟩
    have hne : k ≠ n := by
      rintro rfl
      rw [hfresh] at hf
      contradiction
    exact ⟨f, (update_of_ne hne ..).trans hf, hle⟩
  refine ⟨h.setFetches hcovers ?_, ⟨_, update_self .., Nat.le_refl _⟩, hcovers, rfl⟩
  intro k f slot hf hresult
  obtain ⟨rfl, rfl⟩ | ⟨-, hf⟩ := update_some_iff.1 hf
  · contradiction
  · exact h.served hf hresult

theorem settle (h : s.Current) {n : Nat} {result : FetchResult} (hs : s.settle n result = some s')
    (hresult : ∀ slot, result = .served slot → ∀ f, s.fetches n = some f → f.needed ≤ slot) : s'.Current := by
  simp only [FreezerCaches.settle, Option.bind_eq_bind, Option.bind_eq_some_iff] at hs
  obtain ⟨f, hf, hs⟩ := hs
  split_ifs at hs
  obtain rfl := Option.some.inj hs
  refine h.setFetches ?_ ?_
  · intro floor k ⟨g, hg, hle⟩
    by_cases hk : k = n
    · subst hk
      rw [hf] at hg
      obtain rfl := Option.some.inj hg
      exact ⟨_, update_self .., hle⟩
    · exact ⟨g, (update_of_ne hk ..).trans hg, hle⟩
  · intro k g slot hg hserved
    obtain ⟨rfl, rfl⟩ | ⟨-, hg⟩ := update_some_iff.1 hg
    · exact hresult slot hserved f hf
    · exact h.served hg hserved

/-! ### Attempts and calls -/

theorem startAttempt (h : s.Current) {i : Nat} {m : Pubkey} (hs : s.startAttempt i m = some s') : s'.Current := by
  unfold FreezerCaches.startAttempt at hs
  split_ifs at hs with hfresh
  obtain rfl := Option.some.inj hs
  refine ⟨h.live, ?_, ?_, ?_, h.alone, h.served⟩
  · intro j a ha
    obtain ⟨-, rfl⟩ | ⟨-, ha⟩ := update_some_iff.1 ha
    · exact Nat.le_refl _
    · exact h.floor_le ha
  · intro j a ha
    obtain ⟨-, rfl⟩ | ⟨-, ha⟩ := update_some_iff.1 ha
    · nofun
    · exact h.reads ha
  · intro j x hx
    obtain ⟨a, ha, hwaits⟩ := h.calls hx
    have hne : x.attempt ≠ i := by
      rintro rfl
      rw [hfresh] at ha
      contradiction
    exact ⟨a, (update_of_ne hne ..).trans ha, hwaits⟩

/-- A call that fills no cache is free to wait for a read that will do. -/
theorem setCall (h : s.Current) {i : Nat} {x : AccountCall} {a : Attempt} (ha : s.attempts x.attempt = some a)
    (hwaits : s.Waits a x.stage) (hstage : ∀ n, x.stage ≠ .filling n) : (s.setCall i (some x)).Current := by
  refine ⟨h.live, h.floor_le, h.reads, ?_, ?_, h.served⟩
  · intro j y hy
    obtain ⟨-, rfl⟩ | ⟨-, hy⟩ := update_some_iff.1 hy
    · exact ⟨a, ha, hwaits⟩
    · exact h.calls hy
  · intro j k y z n hy hz hyn hzn
    obtain ⟨-, rfl⟩ | ⟨-, hy⟩ := update_some_iff.1 hy
    · exact absurd hyn (hstage n)
    obtain ⟨-, rfl⟩ | ⟨-, hz⟩ := update_some_iff.1 hz
    · exact absurd hzn (hstage n)
    · exact h.alone hy hz hyn hzn

theorem endCall (h : s.Current) (i : Nat) : (s.setCall i none).Current := by
  refine ⟨h.live, h.floor_le, h.reads, ?_, ?_, h.served⟩
  · intro j y hy
    exact h.calls (update_none_iff.1 hy).2
  · intro j k y z n hy hz
    exact h.alone (update_none_iff.1 hy).2 (update_none_iff.1 hz).2

theorem read (h : s.Current) {i slot : Nat} {a : Attempt} {k : Pubkey} (ha : s.attempts i = some a)
    (hslot : a.floor ≤ slot) :
    Current { s with attempts := update s.attempts i (some { a with reads := (k, slot) :: a.reads }) } := by
  refine ⟨h.live, ?_, ?_, ?_, h.alone, h.served⟩
  · intro j b hb
    obtain ⟨rfl, rfl⟩ | ⟨-, hb⟩ := update_some_iff.1 hb
    · have hle := h.floor_le ha
      exact hle
    · exact h.floor_le hb
  · intro j b hb
    obtain ⟨rfl, rfl⟩ | ⟨-, hb⟩ := update_some_iff.1 hb
    · intro r hr
      obtain rfl | hr := List.mem_cons.1 hr
      · exact hslot
      · exact h.reads ha r hr
    · exact h.reads hb
  · intro j x hx
    obtain ⟨b, hb, hwaits⟩ := h.calls hx
    by_cases hi : x.attempt = i
    · rw [hi, ha] at hb
      obtain rfl := Option.some.inj hb
      refine ⟨_, (congrArg _ hi).trans (update_self ..), ?_⟩
      cases hstage : x.stage <;> rw [hstage] at hwaits <;> exact hwaits
    · exact ⟨b, (update_of_ne hi ..).trans hb, hwaits⟩

/-! ### Caches -/

/-- A cache that no call is to fill may be set to what is current for its mint. -/
theorem setCache (h : s.Current) {n : Nat} {c : MintCache} (hfill : ∀ {i x}, s.calls i = some x → x.stage ≠ .filling n)
    (hlive : ∀ {m}, s.mintAccounts m = some n → c.mint = m ∧ ∀ {k f}, c.entries k = some f → s.Covers (s.floor m) f) :
    (s.setCache n c).Current := by
  refine ⟨?_, h.floor_le, h.reads, ?_, h.alone, h.served⟩
  · intro m n' hn
    by_cases hsame : n' = n
    · subst hsame
      exact ⟨c, update_self .., hlive hn⟩
    · obtain ⟨d, hd, hrest⟩ := h.live hn
      exact ⟨d, (update_of_ne hsame ..).trans hd, hrest⟩
  · intro i x hx
    obtain ⟨a, ha, hwaits⟩ := h.calls hx
    refine ⟨a, ha, ?_⟩
    have hne := hfill hx
    cases hstage : x.stage with
    | filling n' =>
      rw [hstage] at hwaits hne
      refine (update_of_ne ?_ ..).trans hwaits
      rintro rfl
      exact hne rfl
    | hit cache fetch | direct fetch =>
      rw [hstage] at hwaits
      exact hwaits

/-- A mint that has no cache gets a new one, and the call that is to fill it. -/
theorem newCache (h : s.Current) {i n : Nat} {x : AccountCall} {a : Attempt} (ha : s.attempts x.attempt = some a)
    (hn : s.caches n = none) (hx : x.stage = .filling n) :
    ((({ s with mintAccounts := update s.mintAccounts a.mint (some n) } : FreezerCaches).setCache n
      ⟨a.mint, fun _ => none⟩).setCall i (some x)).Current := by
  have hunused : ∀ {j y}, s.calls j = some y → y.stage ≠ .filling n := by
    intro j y hy hstage
    obtain ⟨b, -, hwaits⟩ := h.calls hy
    rw [hstage] at hwaits
    rw [show s.caches n = _ from hwaits] at hn
    contradiction
  refine ⟨?_, h.floor_le, h.reads, ?_, ?_, h.served⟩
  · intro m n' hm
    obtain ⟨rfl, rfl⟩ | ⟨-, hm⟩ := update_some_iff.1 hm
    · exact ⟨_, update_self .., rfl, nofun⟩
    · obtain ⟨c, hc, hrest⟩ := h.live hm
      have hne : n' ≠ n := by
        rintro rfl
        rw [hn] at hc
        contradiction
      exact ⟨c, (update_of_ne hne ..).trans hc, hrest⟩
  · intro j y hy
    obtain ⟨-, rfl⟩ | ⟨-, hy⟩ := update_some_iff.1 hy
    · refine ⟨a, ha, ?_⟩
      rw [hx]
      exact update_self ..
    · obtain ⟨b, hb, hwaits⟩ := h.calls hy
      refine ⟨b, hb, ?_⟩
      have hne := hunused hy
      cases hstage : y.stage with
      | filling n' =>
        rw [hstage] at hwaits hne
        refine (update_of_ne ?_ ..).trans hwaits
        rintro rfl
        exact hne rfl
      | hit cache fetch | direct fetch =>
        rw [hstage] at hwaits
        exact hwaits
  · intro j k y z n' hy hz hyn hzn
    obtain ⟨rfl, rfl⟩ | ⟨-, hy'⟩ := update_some_iff.1 hy
    · obtain rfl := Stage.filling.inj (hx.symm.trans hyn)
      obtain ⟨rfl, -⟩ | ⟨-, hz'⟩ := update_some_iff.1 hz
      · rfl
      · exact absurd hzn (hunused hz')
    · obtain ⟨rfl, rfl⟩ | ⟨-, hz'⟩ := update_some_iff.1 hz
      · obtain rfl := Stage.filling.inj (hx.symm.trans hzn)
        exact absurd hyn (hunused hy')
      · exact h.alone hy' hz' hyn hzn

/-- A read of the call's own. -/
theorem direct (h : s.Current) {i n : Nat} {x : AccountCall} {a : Attempt} (ha : s.attempts x.attempt = some a)
    (hx : x.stage = .direct n) (hs : (s.send n a.floor).bind (fun s => some (s.setCall i (some x))) = some s') :
    s'.Current := by
  obtain ⟨s₁, hsend, hs⟩ := Option.bind_eq_some_iff.1 hs
  obtain rfl := Option.some.inj hs
  obtain ⟨h₁, hcovers, -, heq⟩ := h.send hsend
  have ha₁ : s₁.attempts x.attempt = some a := by
    rw [heq]
    exact ha
  refine h₁.setCall ha₁ ?_ ?_
  · rw [hx]
    exact hcovers
  · rw [hx]
    nofun

theorem account (h : s.Current) {i j n f : Nat} {k : Pubkey} (hs : s.account i j k n f = some s') : s'.Current := by
  simp only [FreezerCaches.account, Option.bind_eq_bind, Option.bind_eq_some_iff] at hs
  obtain ⟨a, ha, hs⟩ := hs
  obtain ⟨-, hs⟩ := Option.ite_none_left_eq_some.1 hs
  cases hcache : s.mintAccounts a.mint with
  | none =>
    rw [hcache] at hs
    obtain ⟨hn, hs⟩ := Option.ite_none_left_eq_some.1 hs
    obtain rfl := Option.some.inj hs
    exact h.newCache (x := ⟨j, k, .filling n⟩) ha (not_not.1 hn) rfl
  | some n' =>
    rw [hcache] at hs
    obtain ⟨c, hc, hs⟩ := Option.bind_eq_some_iff.1 hs
    obtain ⟨d, hd, -, hentries⟩ := h.live hcache
    rw [hc] at hd
    obtain rfl := Option.some.inj hd
    cases hentry : c.entries k with
    | none =>
      rw [hentry] at hs
      exact h.direct (x := ⟨j, k, .direct f⟩) ha rfl hs
    | some g =>
      rw [hentry] at hs
      obtain rfl := Option.some.inj hs
      have hwaits : s.Covers a.floor g := (hentries hentry).mono (h.floor_le ha)
      exact h.setCall (x := ⟨j, k, .hit n' g⟩) ha hwaits nofun

/-- The one call that is to fill a cache fills it, and goes on to wait for a read. -/
theorem fillCache (h : s.Current) {i n needed : Nat} {x y : AccountCall} {a : Attempt} {entries : Pubkey → Option Nat}
    (hx : s.calls i = some x) (hfilling : x.stage = .filling n) (ha : s.attempts y.attempt = some a)
    (hwaits : s.Waits a y.stage) (hstage : ∀ n, y.stage ≠ .filling n)
    (hentries : ∀ {k f}, entries k = some f → s.Covers needed f)
    (hlive : ∀ {m}, s.mintAccounts m = some n → m = a.mint ∧ s.floor m ≤ needed) :
    ((s.setCache n ⟨a.mint, entries⟩).setCall i (some y)).Current := by
  have hcall := h.setCall (i := i) ha hwaits hstage
  refine hcall.setCache (c := ⟨a.mint, entries⟩) ?_ ?_
  · intro j z hz hzn
    obtain ⟨-, rfl⟩ | ⟨hj, hz⟩ := update_some_iff.1 hz
    · exact hstage n hzn
    · exact hj (h.alone hz hx hzn hfilling)
  · intro m hm
    obtain ⟨rfl, hle⟩ := hlive hm
    refine ⟨rfl, fun hk => ?_⟩
    exact (hentries hk).mono hle

/-- A cache that is still to be filled has nothing to drop. -/
theorem dropEntry (h : s.Current) {n : Nat} {c : MintCache} (hc : s.caches n = some c) (k : Pubkey) :
    (s.setCache n { c with entries := update c.entries k none }).Current := by
  refine ⟨?_, h.floor_le, h.reads, ?_, h.alone, h.served⟩
  · intro m n' hn
    obtain ⟨d, hd, hmint, hentries⟩ := h.live hn
    by_cases hsame : n' = n
    · subst hsame
      rw [hc] at hd
      obtain rfl := Option.some.inj hd
      exact ⟨_, update_self .., hmint, fun hk => hentries (update_none_iff.1 hk).2⟩
    · exact ⟨d, (update_of_ne hsame ..).trans hd, hmint, hentries⟩
  · intro i x hx
    obtain ⟨a, ha, hwaits⟩ := h.calls hx
    refine ⟨a, ha, ?_⟩
    cases hstage : x.stage with
    | filling n' =>
      rw [hstage] at hwaits
      have hempty : s.caches n' = some ⟨a.mint, fun _ => none⟩ := hwaits
      by_cases hsame : n' = n
      · subst hsame
        rw [hc] at hempty
        obtain rfl := Option.some.inj hempty
        refine (update_self ..).trans ?_
        rw [update_eq_self_iff.2 rfl]
      · exact (update_of_ne hsame ..).trans hempty
    | hit cache fetch | direct fetch =>
      rw [hstage] at hwaits
      exact hwaits

theorem send_setCache {n m needed : Nat} {c : MintCache} :
    (s.setCache n c).send m needed = (s.send m needed).map fun s => s.setCache n c := by
  unfold FreezerCaches.send
  by_cases hm : s.fetches m = none
  · rw [if_pos hm]
    exact if_pos hm
  · rw [if_neg hm]
    exact if_neg hm

/-- The call that made a cache fills it and looks its address up. -/
theorem fill {mintConfigPda freezeExtraMetasPda : Pubkey → Pubkey} (h : s.Current) {i f₁ f₂ f₃ : Nat}
    (hs : s.fill mintConfigPda freezeExtraMetasPda i f₁ f₂ f₃ = some s') : s'.Current := by
  simp only [FreezerCaches.fill, Option.bind_eq_bind, Option.bind_eq_some_iff] at hs
  obtain ⟨x, hx, a, ha, hs⟩ := hs
  obtain ⟨b, hb, hwaits⟩ := h.calls hx
  rw [ha] at hb
  obtain rfl := Option.some.inj hb
  cases hstage : x.stage with
  | hit cache fetch | direct fetch =>
    rw [hstage] at hs
    contradiction
  | filling n =>
    rw [hstage] at hs hwaits
    have hempty : s.caches n = some ⟨a.mint, fun _ => none⟩ := hwaits
    obtain ⟨c, hc, hsent⟩ := Option.bind_eq_some_iff.1 hs
    clear hs
    rw [hempty] at hc
    obtain rfl := Option.some.inj hc
    generalize hneeded : (if s.mintAccounts a.mint = some n then s.floor a.mint else a.floor) = needed at hsent
    obtain ⟨s₁, hs₁, hsent₁⟩ := Option.bind_eq_some_iff.1 hsent
    obtain ⟨s₂, hs₂, hs⟩ := Option.bind_eq_some_iff.1 hsent₁
    clear hsent hsent₁
    obtain ⟨h₁, hf₁, -, heq₁⟩ := h.send hs₁
    obtain ⟨h₂, hf₂, hkeep, heq₂⟩ := h₁.send hs₂
    dsimp only at hs
    generalize hentries : update (update (fun _ => none) (mintConfigPda a.mint) (some f₁))
      (freezeExtraMetasPda a.mint) (some f₂) = entries at hs
    -- whatever the cache now has was sent for it
    have hnew : ∀ {k f}, entries k = some f → s₂.Covers needed f := by
      intro k f hf
      rw [← hentries] at hf
      obtain ⟨-, rfl⟩ | ⟨-, hf⟩ := update_some_iff.1 hf
      · exact hf₂
      obtain ⟨-, rfl⟩ | ⟨-, hf⟩ := update_some_iff.1 hf
      · exact hkeep hf₁
      · contradiction
    have hle : a.floor ≤ needed := by
      rw [← hneeded]
      split
      · exact h.floor_le ha
      · exact Nat.le_refl _
    have hsame : s₂ = { s with fetches := s₂.fetches } := by
      rw [heq₂, heq₁]
    have ha₂ : s₂.attempts x.attempt = some a := by
      rw [hsame]
      exact ha
    have hx₂ : s₂.calls i = some x := by
      rw [hsame]
      exact hx
    have hlive : ∀ {m}, s₂.mintAccounts m = some n → m = a.mint ∧ s₂.floor m ≤ needed := by
      intro m hm
      have hm : s.mintAccounts m = some n := by
        rw [hsame] at hm
        exact hm
      obtain ⟨c, hc, hmint, -⟩ := h.live hm
      rw [hempty] at hc
      obtain rfl := Option.some.inj hc
      obtain rfl : a.mint = m := hmint
      rw [if_pos hm] at hneeded
      refine ⟨rfl, ?_⟩
      rw [hsame]
      exact hneeded.le
    cases hentry : entries x.address with
    | some f =>
      rw [hentry] at hs
      obtain rfl := Option.some.inj hs
      have hwait : s₂.Covers a.floor f := (hnew hentry).mono hle
      exact h₂.fillCache (y := { x with stage := .hit n f }) hx₂ hstage ha₂ hwait nofun hnew hlive
    | none =>
      rw [hentry] at hs
      dsimp only at hs
      rw [send_setCache] at hs
      obtain ⟨s₃, hs₃, hs⟩ := Option.bind_eq_some_iff.1 hs
      obtain ⟨s₄, hs₄, rfl⟩ := Option.map_eq_some_iff.1 hs₃
      obtain rfl := Option.some.inj hs
      obtain ⟨h₄, hf₄, hkeep₄, heq₄⟩ := h₂.send hs₄
      have hx₄ : s₄.calls i = some x := by
        rw [heq₄]
        exact hx₂
      have ha₄ : s₄.attempts x.attempt = some a := by
        rw [heq₄]
        exact ha₂
      have hlive₄ : ∀ {m}, s₄.mintAccounts m = some n → m = a.mint ∧ s₄.floor m ≤ needed := by
        rw [heq₄]
        exact hlive
      exact h₄.fillCache (y := { x with stage := .direct f₃ }) hx₄ hstage ha₄ hf₄ nofun
        (fun hk => hkeep₄ (hnew hk)) hlive₄

/-- A call that waited for a read returns its answer. -/
theorem answered (h : s.Current) {i j n slot : Nat} {a : Attempt} {k : Pubkey} {f : Fetch}
    (ha : s.attempts j = some a) (hwaits : s.Covers a.floor n) (hf : s.fetches n = some f)
    (hresult : f.result = .served slot) :
    Current (({ s with
      attempts := update s.attempts j (some { a with reads := (k, slot) :: a.reads }) } : FreezerCaches).setCall i none) :=
  (h.read ha ((hwaits.needed hf).trans (h.served hf hresult))).endCall i

theorem goOn (h : s.Current) {i n : Nat} (hs : s.goOn i n = some s') : s'.Current := by
  simp only [FreezerCaches.goOn, Option.bind_eq_bind, Option.bind_eq_some_iff] at hs
  obtain ⟨x, hx, a, ha, hs⟩ := hs
  obtain ⟨b, hb, hwaits⟩ := h.calls hx
  rw [ha] at hb
  obtain rfl := Option.some.inj hb
  cases hstage : x.stage with
  | filling cache =>
    rw [hstage] at hs
    contradiction
  | direct f =>
    rw [hstage] at hs hwaits
    obtain ⟨r, hr, hgoOn⟩ := Option.bind_eq_some_iff.1 hs
    clear hs
    cases hresult : r.result with
    | pending =>
      rw [hresult] at hgoOn
      contradiction
    | served slot =>
      rw [hresult] at hgoOn
      obtain rfl := Option.some.inj hgoOn
      exact h.answered ha hwaits hr hresult
    | failed =>
      rw [hresult] at hgoOn
      obtain rfl := Option.some.inj hgoOn
      exact h.endCall i
  | hit m f =>
    rw [hstage] at hs hwaits
    obtain ⟨r, hr, hgoOn⟩ := Option.bind_eq_some_iff.1 hs
    clear hs
    cases hresult : r.result with
    | pending =>
      rw [hresult] at hgoOn
      contradiction
    | served slot =>
      rw [hresult] at hgoOn
      obtain rfl := Option.some.inj hgoOn
      exact h.answered ha hwaits hr hresult
    | failed =>
      rw [hresult] at hgoOn
      obtain ⟨c, hc, hdirect⟩ := Option.bind_eq_some_iff.1 hgoOn
      have hdrop := h.dropEntry hc x.address
      exact hdrop.direct (x := { x with stage := .direct n }) ha rfl hdirect

/-- **Step.** -/
theorem next {mintConfigPda freezeExtraMetasPda : Pubkey → Pubkey} {e : FreezerEvent} (h : s.Current)
    (he : s.NotBehind e s') (hs : s.next mintConfigPda freezeExtraMetasPda e = some s') : s'.Current := by
  cases e with
  | onPolicy policy slot =>
    obtain rfl := Option.some.inj hs
    exact h.onPolicy policy slot
  | loadMint policy slot =>
    obtain rfl := Option.some.inj hs
    exact h.loadMint policy slot
  | dropMint mint =>
    obtain rfl := Option.some.inj hs
    exact h.dropMint mint
  | startAttempt attempt mint => exact h.startAttempt hs
  | account call attempt address cache fetch => exact h.account hs
  | fill call fetch₁ fetch₂ fetch₃ => exact h.fill hs
  | served fetch slot =>
    refine h.settle hs ?_
    intro slot' hslot f hf
    obtain rfl := FetchResult.served.inj hslot
    exact he fetch slot rfl f hf
  | failed fetch => exact h.settle hs nofun
  | goOn call fetch => exact h.goOn hs

end Current

end steps

theorem current_of_reachable {mintConfigPda freezeExtraMetasPda : Pubkey → Pubkey} {s : FreezerCaches}
    (r : ((machine mintConfigPda freezeExtraMetasPda).restrict NotBehind).Reachable s) : s.Current := by
  refine r.invariant (I := Current) ?_ ?_
  · rintro s rfl
    exact current_initial
  · intro s e s' h hs
    exact h.next hs.1 hs.2

/-! ### The history of an attempt -/

/-- Floors only rise, and an attempt keeps the one it started at. -/
structure Keeps (s s' : FreezerCaches) : Prop where
  floor : ∀ m, s.floor m ≤ s'.floor m
  attempts : ∀ {i a}, s.attempts i = some a → ∃ a', s'.attempts i = some a' ∧ a'.floor = a.floor

section keeps

variable {s s' : FreezerCaches}

theorem Keeps.of_eq (hfloor : s'.floor = s.floor) (hattempts : s'.attempts = s.attempts) : s.Keeps s' := by
  refine ⟨fun m => ?_, fun ha => ?_⟩
  · rw [hfloor]
  · rw [hattempts]
    exact ⟨_, ha, rfl⟩

theorem Keeps.trans {s'' : FreezerCaches} (h : s.Keeps s') (h' : s'.Keeps s'') : s.Keeps s'' := by
  refine ⟨fun m => (h.floor m).trans (h'.floor m), fun ha => ?_⟩
  obtain ⟨a', ha', hfloor⟩ := h.attempts ha
  obtain ⟨a'', ha'', hfloor'⟩ := h'.attempts ha'
  exact ⟨a'', ha'', hfloor'.trans hfloor⟩

theorem send_eq {n needed : Nat} (hs : s.send n needed = some s') : s' = { s with fetches := s'.fetches } := by
  unfold send at hs
  split_ifs at hs
  obtain rfl := Option.some.inj hs
  rfl

theorem settle_keeps {n : Nat} {result : FetchResult} (hs : s.settle n result = some s') : s.Keeps s' := by
  obtain ⟨f, -, hs⟩ := Option.bind_eq_some_iff.1 hs
  split_ifs at hs
  obtain rfl := Option.some.inj hs
  exact .of_eq rfl rfl

theorem raise_keeps (m : Pubkey) (slot : Nat) : s.Keeps (s.raise m slot) := by
  refine ⟨fun m' => ?_, fun ha => ⟨_, ha, rfl⟩⟩
  show _ ≤ update s.floor m _ m'
  by_cases hm : m' = m
  · rw [hm, update_self]
    exact Nat.le_max_left ..
  · rw [update_of_ne hm]

theorem changed_keeps (policy : GatePolicy) (slot : Nat) :
    s.Keeps (((s.setMint policy).invalidate policy.mint).raise policy.mint slot) :=
  (Keeps.of_eq rfl rfl : s.Keeps ((s.setMint policy).invalidate policy.mint)).trans (raise_keeps ..)

theorem loadMint_keeps (policy : GatePolicy) (slot : Nat) : s.Keeps (s.loadMint policy slot) := by
  unfold loadMint
  split
  · exact .of_eq rfl rfl
  · exact changed_keeps policy slot

theorem onPolicy_keeps (policy : GatePolicy) (slot : Nat) : s.Keeps (s.onPolicy policy slot) :=
  (changed_keeps policy slot).trans (loadMint_keeps policy slot)

/-- A change that is processed raises the mint's floor to its slot. -/
theorem Observes.floor {mintConfigPda freezeExtraMetasPda : Pubkey → Pubkey} {m : Pubkey} {slot : Nat}
    {e : FreezerEvent} (he : s.Observes m slot e) (hs : s.next mintConfigPda freezeExtraMetasPda e = some s') :
    slot ≤ s'.floor m := by
  have hraised (s : FreezerCaches) : slot ≤ (s.raise m slot).floor m := by
    show slot ≤ update s.floor m _ m
    rw [update_self]
    exact Nat.le_max_right ..
  cases e with
  | onPolicy policy slot' =>
    obtain ⟨rfl, rfl⟩ := he
    obtain rfl := Option.some.inj hs
    exact (hraised _).trans ((loadMint_keeps policy _).floor _)
  | loadMint policy slot' =>
    obtain ⟨rfl, rfl, hnew⟩ := he
    obtain rfl := Option.some.inj hs
    rw [loadMint, if_neg hnew]
    exact hraised _
  | _ => contradiction

theorem startAttempt_eq {i : Nat} {m : Pubkey} (hs : s.startAttempt i m = some s') :
    s.attempts i = none ∧ s' = { s with attempts := update s.attempts i (some ⟨m, s.floor m, []⟩) } := by
  unfold startAttempt at hs
  split_ifs at hs with hfresh
  exact ⟨hfresh, (Option.some.inj hs).symm⟩

theorem account_keeps {i j n f : Nat} {k : Pubkey} (hs : s.account i j k n f = some s') : s.Keeps s' := by
  obtain ⟨a, -, hs⟩ := Option.bind_eq_some_iff.1 hs
  obtain ⟨-, hs⟩ := Option.ite_none_left_eq_some.1 hs
  split at hs
  · obtain ⟨-, hs⟩ := Option.ite_none_left_eq_some.1 hs
    obtain rfl := Option.some.inj hs
    exact .of_eq rfl rfl
  · obtain ⟨c, -, hs⟩ := Option.bind_eq_some_iff.1 hs
    split at hs
    · obtain rfl := Option.some.inj hs
      exact .of_eq rfl rfl
    · obtain ⟨s₁, hs₁, hs⟩ := Option.bind_eq_some_iff.1 hs
      obtain rfl := Option.some.inj hs
      rw [send_eq hs₁]
      exact .of_eq rfl rfl

theorem fill_keeps {mintConfigPda freezeExtraMetasPda : Pubkey → Pubkey} {i f₁ f₂ f₃ : Nat}
    (hs : s.fill mintConfigPda freezeExtraMetasPda i f₁ f₂ f₃ = some s') : s.Keeps s' := by
  obtain ⟨x, -, hs⟩ := Option.bind_eq_some_iff.1 hs
  obtain ⟨a, -, hs⟩ := Option.bind_eq_some_iff.1 hs
  split at hs
  · obtain ⟨c, -, hs⟩ := Option.bind_eq_some_iff.1 hs
    obtain ⟨s₁, hs₁, hs⟩ := Option.bind_eq_some_iff.1 hs
    obtain ⟨s₂, hs₂, hs⟩ := Option.bind_eq_some_iff.1 hs
    have hfloor : s₂.floor = s.floor := by rw [send_eq hs₂, send_eq hs₁]
    have hattempts : s₂.attempts = s.attempts := by rw [send_eq hs₂, send_eq hs₁]
    dsimp only at hs
    split at hs
    · obtain rfl := Option.some.inj hs
      exact .of_eq hfloor hattempts
    · obtain ⟨s₃, hs₃, hs⟩ := Option.bind_eq_some_iff.1 hs
      obtain rfl := Option.some.inj hs
      rw [send_eq hs₃]
      exact .of_eq hfloor hattempts
  · contradiction

theorem read_keeps {i call slot : Nat} {a : Attempt} {k : Pubkey} (ha : s.attempts i = some a) :
    s.Keeps (setCall { s with attempts := update s.attempts i (some { a with reads := (k, slot) :: a.reads }) } call
      none) := by
  refine ⟨fun m => Nat.le_refl _, fun {j b} hb => ?_⟩
  by_cases hj : j = i
  · subst hj
    rw [ha] at hb
    obtain rfl := Option.some.inj hb
    exact ⟨_, update_self .., rfl⟩
  · exact ⟨b, (update_of_ne hj ..).trans hb, rfl⟩

theorem goOn_keeps {i n : Nat} (hs : s.goOn i n = some s') : s.Keeps s' := by
  obtain ⟨x, -, hs⟩ := Option.bind_eq_some_iff.1 hs
  obtain ⟨a, ha, hs⟩ := Option.bind_eq_some_iff.1 hs
  split at hs
  · contradiction
  · obtain ⟨r, -, hs⟩ := Option.bind_eq_some_iff.1 hs
    split at hs
    · contradiction
    · obtain rfl := Option.some.inj hs
      exact read_keeps ha
    · obtain ⟨c, -, hs⟩ := Option.bind_eq_some_iff.1 hs
      obtain ⟨s₁, hs₁, hs⟩ := Option.bind_eq_some_iff.1 hs
      obtain rfl := Option.some.inj hs
      rw [send_eq hs₁]
      exact .of_eq rfl rfl
  · obtain ⟨r, -, hs⟩ := Option.bind_eq_some_iff.1 hs
    split at hs
    · contradiction
    · obtain rfl := Option.some.inj hs
      exact read_keeps ha
    · obtain rfl := Option.some.inj hs
      exact .of_eq rfl rfl

theorem next_keeps {mintConfigPda freezeExtraMetasPda : Pubkey → Pubkey} {e : FreezerEvent}
    (hs : s.next mintConfigPda freezeExtraMetasPda e = some s') : s.Keeps s' := by
  cases e with
  | onPolicy policy slot =>
    obtain rfl := Option.some.inj hs
    exact onPolicy_keeps policy slot
  | loadMint policy slot =>
    obtain rfl := Option.some.inj hs
    exact loadMint_keeps policy slot
  | dropMint mint =>
    obtain rfl := Option.some.inj hs
    exact .of_eq rfl rfl
  | startAttempt i m =>
    obtain ⟨hfresh, rfl⟩ := startAttempt_eq hs
    refine ⟨fun m => Nat.le_refl _, fun {j a} ha => ⟨a, ?_, rfl⟩⟩
    refine (update_of_ne ?_ ..).trans ha
    rintro rfl
    rw [hfresh] at ha
    contradiction
  | account call attempt address cache fetch => exact account_keeps hs
  | fill call fetch₁ fetch₂ fetch₃ => exact fill_keeps hs
  | served fetch slot => exact settle_keeps hs
  | failed fetch => exact settle_keeps hs
  | goOn call fetch => exact goOn_keeps hs

end keeps

section history

variable {mintConfigPda freezeExtraMetasPda : Pubkey → Pubkey} {s s₁ : FreezerCaches}

theorem path_keeps {h : List FreezerEvent}
    (path : ((machine mintConfigPda freezeExtraMetasPda).restrict NotBehind).Path s₁ h s) : s₁.Keeps s := by
  induction path with
  | refl => exact .of_eq rfl rfl
  | step _ hs ih => exact ih.trans (next_keeps hs.2)

/-- **Reads.** In a run where no node that answers is behind what is needed of its answer, an attempt that starts
after a policy change of its mint was processed, of a notification or of a resync, reads the mint's accounts at the
slot at which the change was observed or later. -/
theorem reads_after_change {h h₁ h₂ : List FreezerEvent} {e : FreezerEvent} {i : Nat} {m : Pubkey} {slot : Nat}
    (r : ((machine mintConfigPda freezeExtraMetasPda).restrict NotBehind).Run h s₁) (he : s₁.Observes m slot e)
    (path : ((machine mintConfigPda freezeExtraMetasPda).restrict NotBehind).Path s₁
      (h₂ ++ .startAttempt i m :: (h₁ ++ [e])) s) {a : Attempt} (ha : s.attempts i = some a) :
    ∀ read ∈ a.reads, slot ≤ read.2 := by
  obtain ⟨s₃, s₄, before, hstart, after⟩ := path.between
  obtain ⟨_, s₂, nothing, hchange, between⟩ := before.between
  cases nothing
  have hfloor : slot ≤ s₃.floor m := (he.floor hchange.2).trans ((path_keeps between).floor m)
  obtain ⟨-, rfl⟩ := startAttempt_eq hstart.2
  obtain ⟨b, hb, hsame⟩ := (path_keeps after).attempts (update_self ..)
  obtain rfl := Option.some.inj (ha.symm.trans hb)
  intro read hread
  have hcurrent := current_of_reachable ⟨_, r.append path⟩
  have hread := hcurrent.reads ha read hread
  rw [hsame] at hread
  exact hfloor.trans hread

end history

/-! ### Samples -/

/-- `NotBehind` of the next event. -/
def upToDate (s : FreezerCaches) : FreezerEvent → Bool
  | .served fetch slot => (s.fetches fetch).all (·.needed ≤ slot)
  | _ => true

theorem notBehind_of_upToDate {s s' : FreezerCaches} {e : FreezerEvent} (h : s.upToDate e) : s.NotBehind e s' := by
  rintro fetch slot rfl f hf
  rw [upToDate, hf] at h
  exact of_decide_eq_true h

def samplePolicy : GatePolicy :=
  ⟨sampleKey 2, sampleKey 1, sssTokenId, true, .off, false, .default, .default, 0⟩

/-- The two accounts of mint 2. -/
def sampleConfigPda (_ : Pubkey) : Pubkey := sampleKey 10

def sampleMetasPda (_ : Pubkey) : Pubkey := sampleKey 11

/-- A policy change at slot 100, and an attempt that reads the MintConfig from a node at slot 120. -/
def freshSample : List FreezerEvent :=
  [.onPolicy samplePolicy 100, .startAttempt 0 (sampleKey 2), .account 0 0 (sampleKey 10) 0 0, .fill 0 1 2 3,
    .served 1 120, .goOn 0 0]

/-- The same change, but the first attempt's reads are answered by a node at slot 90. A second attempt finds
them in the cache. -/
def staleSample : List FreezerEvent :=
  [.onPolicy samplePolicy 100, .startAttempt 0 (sampleKey 2), .account 0 0 (sampleKey 10) 0 0, .fill 0 1 2 3,
    .served 1 90, .served 2 90, .goOn 0 0, .startAttempt 1 (sampleKey 2), .account 1 1 (sampleKey 10) 1 4, .goOn 1 5,
    .account 2 1 (sampleKey 11) 1 6, .goOn 2 7]

theorem reads_after_change_sample : ∃ (s : FreezerCaches) (a : Attempt), s.attempts 0 = some a ∧
    a.reads = [(sampleKey 10, 120)] ∧ ∀ read ∈ a.reads, 100 ≤ read.2 := by
  let f (s : FreezerCaches) (e : FreezerEvent) :=
    if s.upToDate e then s.next sampleConfigPda sampleMetasPda e else none
  have hresult : (freshSample.foldlM f initial).bind (·.attempts 0) =
      some ⟨sampleKey 2, 100, [(sampleKey 10, 120)]⟩ := by decide +kernel
  obtain ⟨s, hs, ha⟩ := Option.bind_eq_some_iff.1 hresult
  have hf : ∀ s e s', f s e = some s' → ((machine sampleConfigPda sampleMetasPda).restrict NotBehind).step s e s' := by
    intro s e s' he
    obtain ⟨hup, hnext⟩ := Option.ite_none_right_eq_some.1 he
    exact ⟨notBehind_of_upToDate hup, hnext⟩
  have hrun : ((machine sampleConfigPda sampleMetasPda).restrict NotBehind).Run
      ([.goOn 0 0, .served 1 120, .fill 0 1 2 3, .account 0 0 (sampleKey 10) 0 0] ++
        .startAttempt 0 (sampleKey 2) :: ([] ++ [.onPolicy samplePolicy 100])) s := Lts.Run.of_foldlM hf hs (.start rfl)
  obtain ⟨s₀, hstart, path⟩ := hrun.path
  have hobserved : s₀.Observes (sampleKey 2) 100 (.onPolicy samplePolicy 100) := ⟨rfl, rfl⟩
  have hreads := reads_after_change hstart hobserved path ha
  exact ⟨s, _, ha, rfl, hreads⟩

/-- Of a change observed at slot 100, the second attempt knows accounts of slot 90. -/
theorem stale_cache : ∃ (h₂ h₁ h : List FreezerEvent) (e : FreezerEvent) (s₁ s : FreezerCaches) (a : Attempt),
    (machine sampleConfigPda sampleMetasPda).Run h s₁ ∧ s₁.Observes (sampleKey 2) 100 e ∧
      (machine sampleConfigPda sampleMetasPda).Path s₁ (h₂ ++ .startAttempt 1 (sampleKey 2) :: (h₁ ++ [e])) s ∧
      s.attempts 1 = some a ∧ ¬∀ read ∈ a.reads, 100 ≤ read.2 := by
  have hresult : (staleSample.foldlM (next sampleConfigPda sampleMetasPda) initial).bind (·.attempts 1) =
      some ⟨sampleKey 2, 100, [(sampleKey 11, 90), (sampleKey 10, 90)]⟩ := by decide +kernel
  obtain ⟨s, hs, ha⟩ := Option.bind_eq_some_iff.1 hresult
  have hrun := Lts.Run.of_foldlM (L := machine sampleConfigPda sampleMetasPda) (fun _ _ _ h => h) hs (.start rfl)
  obtain ⟨s₀, hstart, path⟩ := hrun.path
  refine ⟨[.goOn 2 7, .account 2 1 (sampleKey 11) 1 6, .goOn 1 5, .account 1 1 (sampleKey 10) 1 4],
    [.goOn 0 0, .served 2 90, .served 1 90, .fill 0 1 2 3, .account 0 0 (sampleKey 10) 0 0,
      .startAttempt 0 (sampleKey 2)], [], .onPolicy samplePolicy 100, s₀, s, _, hstart, ⟨rfl, rfl⟩, path, ha, ?_⟩
  intro hreads
  have hlate := hreads _ List.mem_cons_self
  contradiction

end FreezerCaches

end ThawGate.Keeper
