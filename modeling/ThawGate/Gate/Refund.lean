import ThawGate.Gate.Agree

/-!
# Lamports of the lists

What `metas::write` does to lamports. It moves them between the payer and the list only (`write_moves`); the
refund of a list that holds too much is a direct edit, which the runtime has not seen when the second list's
top-up calls the system program. That call is not passed the first list, so the runtime sees the payer's credit
without the debit and refuses (`write_isOk_iff`): a policy change that needs both is blocked.
-/

namespace ThawGate.Gate

open Borsh Exec

/-! ### What the steps move -/

/-- Of all lamports, the list's and the payer's have changed. -/
structure Moves (x payer : Address) (list' payer' : ℕ) (f f' : Frame) : Prop where
  keys : f'.keys = f.keys
  start : f'.start = f.start
  list_eq : (f'.held x).lamports = list'
  payer_eq : (f'.held payer).lamports = payer'
  rest : ∀ a, a ≠ x → a ≠ payer → (f'.held a).lamports = (f.held a).lamports
  seen : ∀ a, a ≠ x → a ≠ payer → (f'.seen a).lamports = (f.seen a).lamports

section steps

variable {x payer : Address} {len rent : ℕ} {f f' f'' : Frame} {l l' p p' : ℕ}

theorem Moves.trans (h : Moves x payer l p f f') (h' : Moves x payer l' p' f' f'') : Moves x payer l' p' f f'' where
  keys := h'.keys.trans h.keys
  start := h'.start.trans h.start
  list_eq := h'.list_eq
  payer_eq := h'.payer_eq
  rest a hx hp := (h'.rest a hx hp).trans (h.rest a hx hp)
  seen a hx hp := (h'.seen a hx hp).trans (h.seen a hx hp)

/-- An edit of the list. -/
theorem moves_put_list {a : Account} (hne : x ≠ payer) :
    Moves x payer a.lamports (f.held payer).lamports f (f.put x a) where
  keys := rfl
  start := rfl
  list_eq := by rw [Svm.Frame.put_held_self]
  payer_eq := by rw [Svm.Frame.put_held_of_ne _ _ _ hne.symm]
  rest b hb _ := by rw [Svm.Frame.put_held_of_ne _ _ _ hb]
  seen _ _ _ := rfl

theorem moves_put_payer {a : Account} (hne : x ≠ payer) :
    Moves x payer (f.held x).lamports a.lamports f (f.put payer a) where
  keys := rfl
  start := rfl
  list_eq := by rw [Svm.Frame.put_held_of_ne _ _ _ hne]
  payer_eq := by rw [Svm.Frame.put_held_self]
  rest b _ hb := by rw [Svm.Frame.put_held_of_ne _ _ _ hb]
  seen _ _ _ := rfl

/-- Resizing succeeds on a list of the gate, and the payer gets what is above the rent. The runtime sees none
of it. -/
theorem refit_moves (hne : x ≠ payer) (howner : (f.held x).owner = gateId)
    (hsize : len ≤ (f.held x).data.length + Svm.Frame.maxDataIncrease) :
    ∃ f', refit x payer len rent (f.held x).lamports f = ok f' ∧ f'.seen = f.seen ∧
      Moves x payer (min (f.held x).lamports rent)
        ((f.held payer).lamports + ((f.held x).lamports - rent)) f f' := by
  have hresize := Svm.Frame.resize_eq_ok.2 ⟨hsize, howner, rfl⟩
  have hmoves := moves_put_list (f := f) (a := ⟨(f.held x).lamports, (f.held x).owner,
    (f.held x).data.take len ++ List.replicate (len - (f.held x).data.length) 0⟩) hne
  rw [refit, hresize, bind_ok]
  generalize hf₁ : f.put x _ = f₁ at hmoves
  have howner₁ : (f₁.held x).owner = gateId := by
    rw [← hf₁, Svm.Frame.put_held_self]
    exact howner
  have hseen₁ : f₁.seen = f.seen := by rw [← hf₁, Svm.Frame.put_seen]
  by_cases hrent : rent < (f.held x).lamports
  · have hlist : f₁.setLamports gateId x rent = ok (f₁.put x ⟨rent, (f₁.held x).owner, (f₁.held x).data⟩) :=
      Svm.Frame.setLamports_eq_ok.2 ⟨.inl howner₁, rfl⟩
    rw [if_pos hrent, hlist, bind_ok, Nat.min_eq_right hrent.le]
    have hmoves₂ := moves_put_list (f := f₁) (a := ⟨rent, (f₁.held x).owner, (f₁.held x).data⟩) hne
    generalize hf₂ : f₁.put x _ = f₂ at hmoves₂ ⊢
    have hle := Nat.le_add_right (f₂.held payer).lamports ((f.held x).lamports - rent)
    refine ⟨_, Svm.Frame.setLamports_eq_ok.2 ⟨.inr hle, rfl⟩, ?_, ?_⟩
    · rw [Svm.Frame.put_seen, ← hf₂, Svm.Frame.put_seen, hseen₁]
    · have hmoves₃ := (hmoves.trans hmoves₂).trans (moves_put_payer (f := f₂)
        (a := ⟨(f₂.held payer).lamports + ((f.held x).lamports - rent), (f₂.held payer).owner,
          (f₂.held payer).data⟩) hne)
      rw [hmoves₂.list_eq, hmoves₂.payer_eq, hmoves.payer_eq] at hmoves₃
      rw [hmoves₂.payer_eq, hmoves.payer_eq]
      exact hmoves₃
  · rw [if_neg hrent, Nat.min_eq_left (Nat.le_of_not_lt hrent), Nat.sub_eq_zero_of_le (Nat.le_of_not_lt hrent)]
    exact ⟨f₁, rfl, hseen₁, hmoves⟩

/-- A call on the list that moves no lamports. -/
theorem moves_invoke {call : Chain → Exec Svm.RuntimeError Chain} (h : f.invoke {x} call = ok f')
    (hcall : ∀ accounts left, call accounts = ok left → ∀ k, (left k).lamports = (accounts k).lamports) :
    Moves x payer (f.held x).lamports (f.held payer).lamports f f' := by
  obtain ⟨-, left, hleft, rfl⟩ := Svm.Frame.invoke_eq_ok.1 h
  have hheld (a : Address) : ((({x} : Finset Address).piecewise left f.held) a).lamports = (f.held a).lamports := by
    by_cases ha : a ∈ ({x} : Finset Address)
    · rw [Finset.piecewise_eq_of_mem _ _ _ ha, hcall _ _ hleft, Svm.Frame.entered_of_mem ha]
    · rw [Finset.piecewise_eq_of_notMem _ _ _ ha]
  refine ⟨rfl, rfl, hheld x, hheld payer, fun a _ _ => hheld a, fun a hx _ => ?_⟩
  exact (hcall _ _ hleft a).trans
    (congrArg Svm.Account.lamports (Svm.Frame.entered_of_notMem (mt Finset.mem_singleton.1 hx)))

theorem create_moves (h : create x len f = ok f') :
    Moves x payer (f.held x).lamports (f.held payer).lamports f f' := by
  obtain ⟨f₁, halloc, hassign⟩ := bind_eq_ok.1 h
  have hmoves : Moves x payer _ _ _ _ := moves_invoke halloc fun accounts left hcall k => by
    obtain ⟨-, rfl⟩ := Svm.allocate_eq_ok.1 hcall
    exact Svm.update_lamports (by rfl) k
  have hmoves₂ : Moves x payer _ _ _ _ := moves_invoke hassign fun accounts left hcall k => by
    obtain ⟨-, rfl⟩ := Svm.assign_eq_ok.1 hcall
    exact Svm.update_lamports (by rfl) k
  rw [hmoves.list_eq, hmoves.payer_eq] at hmoves₂
  exact hmoves.trans hmoves₂

/-- What a top-up of `n` needs: the runtime finds the instruction balanced, and the payer is a system account
that has the lamports. -/
structure CanTopUp (x payer : Address) (n : ℕ) (f : Frame) : Prop where
  balanced : Svm.lamports f.keys (f.entered {payer, x}) = f.start
  content : (f.held payer).content = (systemId, [])
  funds : n ≤ (f.held payer).lamports

theorem transfer_isOk_iff {n : ℕ} {accounts : Chain} :
    (∃ left, Svm.transfer systemId accounts payer x n = ok left) ↔
      (accounts payer).content = (systemId, []) ∧ n ≤ (accounts payer).lamports := by
  simp only [Svm.transfer_eq_ok, exists_and_left, exists_eq, and_true, Svm.Account.content, Prod.mk.injEq]
  constructor
  · rintro ⟨hdata, hfunds, howner⟩
    exact ⟨⟨howner, hdata⟩, hfunds⟩
  · rintro ⟨⟨howner, hdata⟩, hfunds⟩
    exact ⟨hdata, hfunds, howner⟩

/-- Who holds the rent is not topped up. -/
theorem topUp_of_le {current : ℕ} (hle : rent ≤ current) : topUp x payer rent current f = ok f :=
  if_neg (not_lt.2 hle)

theorem topUp_isOk_iff {current : ℕ} (hlt : current < rent) :
    (∃ f', topUp x payer rent current f = ok f') ↔ CanTopUp x payer (rent - current) f := by
  have hpayer : f.entered {payer, x} payer = f.held payer :=
    Svm.Frame.entered_of_mem (Finset.mem_insert_self payer {x})
  rw [topUp, if_pos hlt]
  simp only [Svm.Frame.invoke_eq_ok, exists_and_left, exists_comm (α := Frame)]
  rw [← exists_and_left]
  constructor
  · rintro ⟨left, hbalanced, hleft, -⟩
    obtain ⟨hcontent, hfunds⟩ := transfer_isOk_iff.1 ⟨left, hleft⟩
    rw [hpayer] at hcontent hfunds
    exact ⟨hbalanced, hcontent, hfunds⟩
  · rintro ⟨hbalanced, hcontent, hfunds⟩
    rw [← hpayer] at hcontent hfunds
    obtain ⟨left, hleft⟩ := transfer_isOk_iff.2 ⟨hcontent, hfunds⟩
    exact ⟨left, hbalanced, hleft, _, rfl⟩

/-- After a top-up the runtime has the list's lamports as the program has them. -/
theorem topUp_moves {current : ℕ} (hne : x ≠ payer) (hlt : current < rent)
    (h : topUp x payer rent current f = ok f') :
    Moves x payer ((f.held x).lamports + (rent - current)) ((f.held payer).lamports - (rent - current)) f f' ∧
      (f'.seen x).lamports = (f'.held x).lamports := by
  rw [topUp, if_pos hlt] at h
  obtain ⟨-, left, hleft, rfl⟩ := Svm.Frame.invoke_eq_ok.1 h
  obtain ⟨-, rfl⟩ := Svm.transfer_eq_ok.1 hleft
  have hx : x ∈ ({payer, x} : Finset Address) := by simp
  have hpayer : payer ∈ ({payer, x} : Finset Address) := by simp
  refine ⟨⟨rfl, rfl, ?_, ?_, fun a ha hap => ?_, fun a ha hap => ?_⟩, ?_⟩
  · dsimp only
    rw [Finset.piecewise_eq_of_mem _ _ _ hx, Svm.moved_lamports_target hne.symm, Svm.Frame.entered_of_mem hx]
  · dsimp only
    rw [Finset.piecewise_eq_of_mem _ _ _ hpayer, Svm.moved_lamports_source hne.symm,
      Svm.Frame.entered_of_mem hpayer]
  · dsimp only
    rw [Finset.piecewise_eq_of_notMem _ _ _ (by simp [ha, hap])]
  · dsimp only
    rw [Svm.moved_of_ne hap ha, Svm.Frame.entered_of_notMem (by simp [ha, hap])]
  · dsimp only
    rw [Finset.piecewise_eq_of_mem _ _ _ hx]

theorem fill_moves {variant : Variant} {metas : List ExtraAccountMeta} (hne : x ≠ payer)
    (h : fill x f variant metas = ok f') :
    Moves x payer (f.held x).lamports (f.held payer).lamports f f' ∧ f'.seen = f.seen := by
  obtain ⟨data, -, hset⟩ := bind_eq_ok.1 h
  rw [mapErr_eq_ok] at hset
  obtain ⟨-, rfl⟩ := Svm.Frame.setData_eq_ok.1 hset
  exact ⟨moves_put_list (a := ⟨(f.held x).lamports, (f.held x).owner, data⟩) hne, rfl⟩

/-- What the runtime and the payer still have to allow does not change while nothing moves. -/
theorem Moves.canTopUp {n : ℕ} (h : Moves x payer (f.held x).lamports (f.held payer).lamports f f')
    (hcontent : (f'.held payer).content = (f.held payer).content) :
    CanTopUp x payer n f' ↔ CanTopUp x payer n f := by
  have hentered (a : Address) : (f'.entered {payer, x} a).lamports = (f.entered {payer, x} a).lamports := by
    by_cases ha : a ∈ ({payer, x} : Finset Address)
    · rw [Svm.Frame.entered_of_mem ha, Svm.Frame.entered_of_mem ha]
      rcases Finset.mem_insert.1 ha with rfl | ha
      · exact h.payer_eq
      · rw [Finset.mem_singleton.1 ha]
        exact h.list_eq
    · rw [Svm.Frame.entered_of_notMem ha, Svm.Frame.entered_of_notMem ha]
      rw [Finset.mem_insert, Finset.mem_singleton, not_or] at ha
      exact h.seen a ha.2 ha.1
  have hsum : Svm.lamports f'.keys (f'.entered {payer, x}) = Svm.lamports f.keys (f.entered {payer, x}) := by
    rw [h.keys]
    exact Finset.sum_congr rfl fun a _ => hentered a
  constructor
  · rintro ⟨hbalanced, hc, hfunds⟩
    exact ⟨by rw [← hsum, hbalanced, h.start], hcontent.symm.trans hc, h.payer_eq ▸ hfunds⟩
  · rintro ⟨hbalanced, hc, hfunds⟩
    exact ⟨by rw [hsum, hbalanced, h.start], hcontent.trans hc, h.payer_eq.symm ▸ hfunds⟩

end steps

/-! ### A write -/

section write

variable {env : Env} {variant : Variant} {x payer : Address} {mint : Pubkey} {metas : List ExtraAccountMeta}
  {f f' : Frame}

/-- The rent of a list of this length. -/
def listRent (env : Env) (n : ℕ) : ℕ := env.rent (MetaList.sizeOf n)

/-- Rewriting a list of the gate succeeds unless it has to be topped up and cannot be. -/
theorem write_isOk_iff (hx : env.listAddress variant mint = x) (hne : x ≠ payer)
    (howner : (f.held x).owner = gateId)
    (hsize : MetaList.sizeOf metas.length ≤ (f.held x).data.length + Svm.Frame.maxDataIncrease) :
    (∃ f', write env variant x mint payer metas f = ok f') ↔
      (listRent env metas.length ≤ (f.held x).lamports ∨
        CanTopUp x payer (listRent env metas.length - (f.held x).lamports) f) := by
  obtain ⟨f₁, hrefit, -, hmoves⟩ := @refit_moves _ _ _ (listRent env metas.length) _ hne howner hsize
  have hsized := refit_sized hrefit
  -- what remains to be done succeeds when the top-up does
  have hwrite : (∃ f', write env variant x mint payer metas f = ok f') ↔
      ∃ f₂, topUp x payer (listRent env metas.length) (f.held x).lamports f₁ = ok f₂ := by
    constructor
    · rintro ⟨f', h⟩
      obtain ⟨-, f₁', f₂, hsize', htop, -⟩ := write_eq_ok.1 h
      rw [if_pos howner] at hsize'
      obtain rfl := ok.inj (hrefit.symm.trans hsize')
      exact ⟨f₂, htop⟩
    · rintro ⟨f₂, htop⟩
      have h₂ := hsized.of_content (topUp_content htop)
      refine ⟨_, write_eq_ok.2 ⟨hx, f₁, f₂, ?_, htop, (fill_eq_ok h₂.length).2 ⟨h₂.owner, rfl⟩⟩⟩
      rw [if_pos howner]
      exact hrefit
  rw [hwrite]
  by_cases hrent : listRent env metas.length ≤ (f.held x).lamports
  · exact iff_of_true ⟨f₁, topUp_of_le hrent⟩ (.inl hrent)
  · have hlt := not_le.1 hrent
    rw [Nat.min_eq_left hlt.le, Nat.sub_eq_zero_of_le hlt.le, Nat.add_zero] at hmoves
    rw [topUp_isOk_iff hlt, hmoves.canTopUp (hsized.rest payer hne.symm), or_iff_right hrent]

/-- A rewritten list of the gate holds its rent, and the payer the difference. The runtime knows of a top-up, and
not of a refund. -/
theorem write_moves (hne : x ≠ payer) (howner : (f.held x).owner = gateId)
    (hsize : MetaList.sizeOf metas.length ≤ (f.held x).data.length + Svm.Frame.maxDataIncrease)
    (h : write env variant x mint payer metas f = ok f') :
    Moves x payer (listRent env metas.length)
        ((f.held payer).lamports + ((f.held x).lamports - listRent env metas.length) -
          (listRent env metas.length - (f.held x).lamports)) f f' ∧
      ((f.held x).lamports < listRent env metas.length → (f'.seen x).lamports = listRent env metas.length) ∧
      (listRent env metas.length ≤ (f.held x).lamports → (f'.seen x).lamports = (f.seen x).lamports) := by
  obtain ⟨f₁, hrefit, hseen, hmoves⟩ := @refit_moves _ _ _ (listRent env metas.length) _ hne howner hsize
  obtain ⟨-, f₁', f₂, hsize', htop, hfill⟩ := write_eq_ok.1 h
  rw [if_pos howner] at hsize'
  obtain rfl := ok.inj (hrefit.symm.trans hsize')
  obtain ⟨hfilled, hseen'⟩ := fill_moves hne hfill
  by_cases hlt : (f.held x).lamports < listRent env metas.length
  · obtain ⟨htopped, hseen₂⟩ := topUp_moves hne hlt htop
    have hrent : min (f.held x).lamports (listRent env metas.length) +
        (listRent env metas.length - (f.held x).lamports) = listRent env metas.length := by omega
    rw [hmoves.list_eq, hmoves.payer_eq, hrent] at htopped
    rw [htopped.list_eq, htopped.payer_eq] at hfilled
    refine ⟨(hmoves.trans htopped).trans hfilled, fun _ => ?_, fun hle => absurd hlt hle.not_gt⟩
    rw [hseen', hseen₂, htopped.list_eq]
  · have hle := not_lt.1 hlt
    obtain rfl := ok.inj ((topUp_of_le hle).symm.trans htop)
    rw [hmoves.list_eq, hmoves.payer_eq, Nat.min_eq_right hle] at hfilled
    rw [Nat.sub_eq_zero_of_le hle, Nat.sub_zero]
    refine ⟨hmoves.trans hfilled, fun h => absurd h hlt, fun _ => ?_⟩
    rw [hseen', hseen]

end write

/-! ### Both lists -/

theorem Moves.conserves {x payer : Address} {l n : ℕ} {f f' : Frame} (h : Moves x payer l n f f') (hx : x ∈ f.keys)
    (hpayer : payer ∈ f.keys) (hne : x ≠ payer) (hsum : l + n = (f.held x).lamports + (f.held payer).lamports) :
    Svm.lamports f'.keys f'.held = Svm.lamports f.keys f.held := by
  rw [h.keys]
  refine Svm.lamports_of_moved hx hpayer hne ?_ h.rest
  rw [h.list_eq, h.payer_eq, hsum]

/-- A policy change has both lists and the payer among its accounts, and the payer is a system account that can
pay what the lists lack of the rent. -/
structure Payable (env : Env) (s : Chain) (keys : Finset Address) (mint : Pubkey) (payer : Address) (rent : ℕ) :
    Prop where
  lists : ∀ v, env.listAddress v mint ∈ keys
  owners : ∀ v, (s (env.listAddress v mint)).owner = gateId
  payer_mem : payer ∈ keys
  payer_ne : ∀ v, env.listAddress v mint ≠ payer
  content : (s payer).content = (systemId, [])
  funds : (rent - (s (env.listAddress .thaw mint)).lamports) + (rent - (s (env.listAddress .freeze mint)).lamports) ≤
    (s payer).lamports

section both

variable {env : Env} {s : Chain} {keys : Finset Address} {p : GatePolicy} {payer : Address}
  {metas : List ExtraAccountMeta}

theorem sizeOf_le {n k : ℕ} (h : n ≤ 8) : MetaList.sizeOf n ≤ k + Svm.Frame.maxDataIncrease := by
  unfold MetaList.sizeOf Svm.Frame.maxDataIncrease
  omega

theorem extraMetas_length_le (h : extraMetas p = some metas) : metas.length ≤ 8 := by
  obtain ⟨metas', hmetas, hlen⟩ := length_extraMetas p
  obtain rfl := Option.some.inj (h.symm.trans hmetas)
  have hle := Layout.forPolicy_len_le p
  simp only [policyIndex] at hlen
  omega

/-- The first list is written from a frame that the runtime has as the program does. -/
theorem writeThaw_ok (hmetas : extraMetas p = some metas)
    (h : Payable env s keys p.mint payer (listRent env metas.length)) :
    ∃ f, write env .thaw (env.listAddress .thaw p.mint) p.mint payer metas (.enter keys s) = ok f := by
  refine (write_isOk_iff rfl (h.payer_ne .thaw) (h.owners .thaw) (sizeOf_le (extraMetas_length_le hmetas))).2 ?_
  refine or_iff_not_imp_left.2 fun hlt => ⟨?_, h.content, Nat.le_trans (Nat.le_add_right _ _) h.funds⟩
  rw [Svm.Frame.entered_enter]
  rfl

theorem freeze_ne_thaw {mint : Pubkey} : env.listAddress .freeze mint ≠ env.listAddress .thaw mint :=
  fun heq => Variant.noConfusion (listAddress_inj heq).1

/-- Writing the first list leaves the second one. -/
theorem writeThaw_freeze (hmetas : extraMetas p = some metas)
    (h : Payable env s keys p.mint payer (listRent env metas.length)) {f : Frame}
    (hthaw : write env .thaw (env.listAddress .thaw p.mint) p.mint payer metas (.enter keys s) = ok f) :
    (f.held (env.listAddress .freeze p.mint)).owner = gateId ∧
      (f.held (env.listAddress .freeze p.mint)).lamports = (s (env.listAddress .freeze p.mint)).lamports := by
  obtain ⟨-, hwritten⟩ := write_written hthaw
  obtain ⟨hmoves, -⟩ := write_moves (h.payer_ne .thaw) (h.owners .thaw) (sizeOf_le (extraMetas_length_le hmetas)) hthaw
  refine ⟨?_, hmoves.rest _ freeze_ne_thaw (h.payer_ne .freeze)⟩
  exact (content_owner (hwritten.rest _ freeze_ne_thaw)).trans (h.owners .freeze)

/-- Both lists can be written unless the first one has to give lamports back and the second one is short. -/
theorem writeBoth_isOk_iff (hmetas : extraMetas p = some metas)
    (h : Payable env s keys p.mint payer (listRent env metas.length)) :
    (∃ f, writeBoth env p (env.listAddress .thaw p.mint) (env.listAddress .freeze p.mint) payer (.enter keys s) = ok f) ↔
      ((s (env.listAddress .thaw p.mint)).lamports ≤ listRent env metas.length ∨
        listRent env metas.length ≤ (s (env.listAddress .freeze p.mint)).lamports) := by
  have hsize (data : Bytes) := sizeOf_le (k := data.length) (extraMetas_length_le hmetas)
  obtain ⟨f₁, hthaw⟩ := writeThaw_ok hmetas h
  obtain ⟨-, hwritten⟩ := write_written hthaw
  obtain ⟨hmoves, hseen_lt, hseen_le⟩ := write_moves (h.payer_ne .thaw) (h.owners .thaw) (hsize _) hthaw
  obtain ⟨howner, hfreeze⟩ := writeThaw_freeze hmetas h hthaw
  have hboth : (∃ f, writeBoth env p (env.listAddress .thaw p.mint) (env.listAddress .freeze p.mint) payer
      (.enter keys s) = ok f) ↔
      ∃ f, write env .freeze (env.listAddress .freeze p.mint) p.mint payer metas f₁ = ok f := by
    rw [writeBoth, hmetas, orErr_some, bind_ok, hthaw, bind_ok]
  rw [hboth, write_isOk_iff rfl (h.payer_ne .freeze) howner (hsize _), hfreeze]
  -- as the runtime sees it, a refund of the first list has only been paid out
  have hfunds := h.funds
  have hpayer := hmoves.payer_eq
  have hheld : Svm.lamports f₁.keys f₁.held = f₁.start := by
    rw [hmoves.conserves (h.lists .thaw) h.payer_mem (h.payer_ne .thaw), hmoves.start]
    · rfl
    · dsimp only [Svm.Frame.enter] at hpayer ⊢
      omega
  have hthaw_mem : env.listAddress .thaw p.mint ∈ f₁.keys := hmoves.keys ▸ h.lists .thaw
  have hpassed : env.listAddress .thaw p.mint ∉ ({payer, env.listAddress .freeze p.mint} : Finset Address) := by
    simp [h.payer_ne .thaw, freeze_ne_thaw.symm]
  have hentered := Svm.Frame.lamports_entered hthaw_mem hpassed fun a ha hat => by
      rw [Finset.mem_insert, Finset.mem_singleton, not_or] at ha
      exact (hmoves.seen a hat ha.1).trans (hmoves.rest a hat ha.1).symm
  rw [hheld, hmoves.list_eq] at hentered
  dsimp only [Svm.Frame.enter] at hentered hpayer hseen_lt hseen_le ⊢
  constructor
  · rintro (hrent | ⟨hbalanced, -, -⟩)
    · exact .inr hrent
    · refine .inl (not_lt.1 fun hlt => ?_)
      rw [hbalanced, hseen_le hlt.le] at hentered
      omega
  · rintro (hle | hrent)
    · refine or_iff_not_imp_left.2 fun hlt => ⟨?_, ?_, ?_⟩
      · rcases hle.lt_or_eq with hthaw_lt | hthaw_eq
        · rw [hseen_lt hthaw_lt] at hentered
          omega
        · rw [hseen_le hthaw_eq.ge] at hentered
          omega
      · exact (hwritten.rest _ (h.payer_ne .thaw).symm).trans h.content
      · rw [hpayer]
        omega
    · exact .inl hrent

/-- Writing both lists moves lamports between them and the payer only. -/
theorem writeBoth_conserves (hmetas : extraMetas p = some metas)
    (h : Payable env s keys p.mint payer (listRent env metas.length)) {f : Frame}
    (hf : writeBoth env p (env.listAddress .thaw p.mint) (env.listAddress .freeze p.mint) payer (.enter keys s) = ok f) :
    f.keys = keys ∧ f.start = Svm.lamports keys s ∧ Svm.lamports f.keys f.held = f.start := by
  have hsize (data : Bytes) := sizeOf_le (k := data.length) (extraMetas_length_le hmetas)
  obtain ⟨metas', hmetas', hf⟩ := bind_eq_ok.1 hf
  rw [orErr_eq_ok] at hmetas'
  obtain rfl := Option.some.inj (hmetas.symm.trans hmetas')
  obtain ⟨f₁, hthaw, hfreeze⟩ := bind_eq_ok.1 hf
  have hfunds := h.funds
  obtain ⟨hmoves, -⟩ := write_moves (h.payer_ne .thaw) (h.owners .thaw) (hsize _) hthaw
  obtain ⟨howner, hlist⟩ := writeThaw_freeze hmetas h hthaw
  have hpayer := hmoves.payer_eq
  obtain ⟨hmoves₂, -⟩ := write_moves (h.payer_ne .freeze) howner (hsize _) hfreeze
  have hkeys₂ := hmoves₂.keys.trans hmoves.keys
  have hstart₂ := hmoves₂.start.trans hmoves.start
  refine ⟨hkeys₂, hstart₂, ?_⟩
  dsimp only [Svm.Frame.enter] at hpayer hlist
  rw [hmoves₂.conserves (hmoves.keys ▸ h.lists .freeze) (hmoves.keys ▸ h.payer_mem) (h.payer_ne .freeze),
    hmoves.conserves (h.lists .thaw) h.payer_mem (h.payer_ne .thaw), hstart₂]
  · rfl
  · dsimp only [Svm.Frame.enter]
    omega
  · rw [hlist, hpayer]
    omega

end both

/-! ### A policy change -/

/-- A call by the policy's authority, with the accounts that the mint has. -/
structure UpdatePolicy.Calls (x : UpdatePolicy) (env : Env) (mint : Pubkey) (p : GatePolicy) : Prop where
  authority_signs : x.authority.Signs x.signers
  authority_eq : env.pubkey x.authority = p.authority
  payer_signs : x.payer.Signs x.signers
  policy_eq : x.policy = env.policyAddress mint
  mint_eq : env.pubkey x.mint = mint
  thaw_eq : x.thawExtraMetas = env.listAddress .thaw mint
  freeze_eq : x.freezeExtraMetas = env.listAddress .freeze mint
  systemProgram_eq : x.systemProgram = .key systemId

/-- The number of metas in a policy's list. -/
def metasCount (p : GatePolicy) : ℕ := (Layout.forPolicy p).len - policyIndex

section change

variable {env : Env} {s : Chain} {mint : Pubkey} {p : GatePolicy} {x : UpdatePolicy}

theorem extraMetas_count {metas : List ExtraAccountMeta} (h : extraMetas p = some metas) :
    metas.length = metasCount p := by
  obtain ⟨metas', hmetas, hlen⟩ := length_extraMetas p
  obtain rfl := Option.some.inj (h.symm.trans hmetas)
  unfold metasCount
  omega

theorem UpdatePolicy.Calls.checked (hx : x.Calls env mint p) (h : Agrees env s mint p) : x.Checked env s p where
  authority_signs := hx.authority_signs
  payer_signs := hx.payer_signs
  owner := hx.policy_eq ▸ h.owner
  data := hx.policy_eq ▸ h.load
  systemProgram := hx.systemProgram_eq
  policy := by
    rw [hx.policy_eq, hx.mint_eq, h.proper.bump, h.mint_eq]
    rfl
  authority := hx.authority_eq.symm
  mint := h.mint_eq.trans hx.mint_eq.symm

theorem UpdatePolicy.Calls.payable (hx : x.Calls env mint p) (h : Agrees env s mint p) {rent : ℕ}
    (hpayer : (s x.payer).content = (systemId, []))
    (hfunds : (rent - (s (env.listAddress .thaw mint)).lamports) +
      (rent - (s (env.listAddress .freeze mint)).lamports) ≤ (s x.payer).lamports) :
    Payable env s x.keys mint x.payer rent where
  lists v := by
    unfold UpdatePolicy.keys
    cases v with
    | thaw => simp [hx.thaw_eq]
    | freeze => simp [hx.freeze_eq]
  owners v := by
    obtain ⟨metas, -, hlist⟩ := h.lists v
    exact congrArg Prod.fst hlist
  payer_mem := by simp [UpdatePolicy.keys]
  payer_ne v heq := by
    have hsigns := hx.payer_signs
    rw [← heq] at hsigns
    exact hsigns
  content := hpayer
  funds := hfunds

/-- Writing the policy back moves no lamports, and always succeeds. -/
theorem exit_leave {f : Frame} {policy : Address} (howner : (f.held policy).owner = gateId)
    (hlen : (f.held policy).data.length = policySpace) (hsum : Svm.lamports f.keys f.held = f.start) :
    ∃ f' s', exit policy p f = ok f' ∧ f'.leave = ok s' := by
  have hfits : (GatePolicy.account.bytes p).length ≤ (f.held policy).data.length :=
    ((GatePolicy.account_bytes_length p).trans hlen.symm).le
  obtain ⟨data, hstore, -, -⟩ := GatePolicy.account.store_of_fits hfits
  have hsum' : Svm.lamports f.keys (f.put policy ⟨(f.held policy).lamports, (f.held policy).owner, data⟩).held =
      f.start := by
    rw [← hsum]
    exact Finset.sum_congr rfl fun k _ => Svm.update_lamports (by rfl) k
  refine ⟨f.put policy ⟨(f.held policy).lamports, (f.held policy).owner, data⟩, _, ?_,
    Svm.Frame.leave_eq_ok.2 ⟨hsum', rfl⟩⟩
  rw [exit, hstore, orErr_some, bind_ok, mapErr_eq_ok, Svm.Frame.setData_eq_ok]
  exact ⟨howner, rfl⟩

/-- Both handlers end with this: it succeeds unless the first list's refund meets the second list's top-up. -/
theorem rewrite_isOk_iff (hx : x.Calls env mint p) (h : Agrees env s mint p) {q : GatePolicy} (hq : q.mint = mint)
    (hpayer : (s x.payer).content = (systemId, []))
    (hfunds : (listRent env (metasCount q) - (s (env.listAddress .thaw mint)).lamports) +
      (listRent env (metasCount q) - (s (env.listAddress .freeze mint)).lamports) ≤ (s x.payer).lamports) :
    (∃ f s', rewrite env x q (.enter x.keys s) = ok f ∧ f.leave = ok s') ↔
      ((s (env.listAddress .thaw mint)).lamports ≤ listRent env (metasCount q) ∨
        listRent env (metasCount q) ≤ (s (env.listAddress .freeze mint)).lamports) := by
  obtain ⟨metas, hmetas, -⟩ := length_extraMetas q
  have hpayable := hx.payable h hpayer hfunds
  subst hq
  rw [← extraMetas_count hmetas] at hpayable ⊢
  rw [← writeBoth_isOk_iff hmetas hpayable]
  unfold rewrite
  rw [hx.thaw_eq, hx.freeze_eq]
  constructor
  · rintro ⟨f, s', hrewrite, -⟩
    obtain ⟨f₁, hboth, -⟩ := bind_eq_ok.1 hrewrite
    exact ⟨f₁, hboth⟩
  · rintro ⟨f₁, hboth⟩
    obtain ⟨hkeys, hstart, hsum⟩ := writeBoth_conserves hmetas hpayable hboth
    have hkept := (writeBoth_content hboth).2 x.policy fun v => by
      rw [hx.policy_eq]
      exact (listAddress_ne v _ _ _).symm
    have howner : (f₁.held x.policy).owner = gateId := by
      rw [content_owner hkept, hx.policy_eq]
      exact h.owner
    have hlen : (f₁.held x.policy).data.length = policySpace := by
      rw [content_data hkept, hx.policy_eq]
      exact h.length
    obtain ⟨f', s', hexit, hleave⟩ := exit_leave (p := q) howner hlen hsum
    refine ⟨f', s', ?_, hleave⟩
    rw [hboth, bind_ok, hexit]

theorem process_isOk_iff {ix : Instruction} :
    (ix.process env s).isOk ↔ ∃ f s', ix.handler env (.enter ix.keys s) = ok f ∧ f.leave = ok s' := by
  simp only [isOk_iff, Instruction.process, bind_eq_ok, mapErr_eq_ok]
  exact exists_comm

/-- **Policy changes that lamports block**: with a stored policy, arguments that `apply` accepts and any balances of
the two lists at or above their rent, `update_policy` and `setup_extra_metas` by the policy's authority, with a
payer who can pay what the new lists lack, both succeed exactly when the thaw list holds no more than the rent of
the new lists or the freeze list holds no less. -/
theorem policy_change_unblocked_iff (h : Agrees env s mint p) (hx : x.Calls env mint p) {args : PolicyArgs}
    (hargs : args.Accepted) (hrents : ∀ v, listRent env (metasCount p) ≤ (s (env.listAddress v mint)).lamports)
    (hpayer : (s x.payer).content = (systemId, []))
    (hfunds : (listRent env (metasCount (p.withArgs args)) - (s (env.listAddress .thaw mint)).lamports) +
      (listRent env (metasCount (p.withArgs args)) - (s (env.listAddress .freeze mint)).lamports) ≤
        (s x.payer).lamports) :
    ((Instruction.updatePolicy x args).process env s).isOk ∧ ((Instruction.setupExtraMetas x).process env s).isOk ↔
      ((s (env.listAddress .thaw mint)).lamports ≤ listRent env (metasCount (p.withArgs args)) ∨
        listRent env (metasCount (p.withArgs args)) ≤ (s (env.listAddress .freeze mint)).lamports) := by
  have haccounts : x.tryAccounts env (.enter x.keys s) = ok p :=
    UpdatePolicy.tryAccounts_eq_ok.2 (hx.checked h)
  have happly : p.apply args = ok (p.withArgs args) := GatePolicy.apply_eq_ok.2 ⟨hargs, rfl⟩
  have hupdate := rewrite_isOk_iff hx h (q := p.withArgs args) h.mint_eq hpayer hfunds
  -- the lists of the stored policy hold their rent already
  have hsetup := (rewrite_isOk_iff hx h h.mint_eq hpayer (by
    rw [Nat.sub_eq_zero_of_le (hrents .thaw), Nat.sub_eq_zero_of_le (hrents .freeze)]
    exact Nat.zero_le _)).2 (.inr (hrents .freeze))
  rw [process_isOk_iff, process_isOk_iff]
  simp only [Instruction.handler, Instruction.keys, updatePolicyHandler, setupExtraMetasHandler, haccounts, bind_ok,
    happly, mapErr]
  rw [hupdate]
  exact and_iff_left hsetup

end change

/-! ### A blocked change -/

/-- The chain with the small policy made. -/
def sampleMade : Chain := call sampleEnv (.initPolicy sampleInit sampleSmall) sampleChain

/-- `n` lamports arrive at an address. -/
def received (s : Chain) (a : Address) (n : ℕ) : Chain :=
  Function.update s a ⟨(s a).lamports + n, (s a).owner, (s a).data⟩

theorem step_received (env : Env) (s : Chain) (a : Address) (n : ℕ) : Step env s .outside (received s a n) := by
  refine Step.outside fun p => ⟨Svm.update_content (by rfl) _, ?_⟩
  unfold received
  by_cases hp : Address.pda p = a
  · rw [hp, Function.update_self]
    exact Nat.le_add_right _ _
  · rw [Function.update_of_ne hp]

/-- Ten million lamports were sent to its thaw list. -/
def sampleSent : Chain := received sampleMade (sampleEnv.listAddress .thaw (sampleKey 2)) (10 ^ 7)

theorem sampleMade_run : (machine sampleEnv).Run [.call (.initPolicy sampleInit sampleSmall)] sampleMade := by
  have hstart : (machine sampleEnv).start sampleChain := fun _ => rfl
  exact (Lts.Run.start hstart).step (Step.call _ _)

theorem sampleSent_run :
    (machine sampleEnv).Run [.outside, .call (.initPolicy sampleInit sampleSmall)] sampleSent :=
  sampleMade_run.step (step_received _ _ _ _)

def sampleBefore : GatePolicy := { sampleStored with allowlistMode := .off, requireSas := false }

theorem sampleMade_agrees : Agrees sampleEnv sampleMade (sampleKey 2) sampleBefore := by
  have howner : (sampleMade (.pda ⟨.policy (sampleKey 2), 255⟩)).owner = gateId := by decide +kernel
  have hdata : GatePolicy.account.tryDeserialize (sampleMade (.pda ⟨.policy (sampleKey 2), 255⟩)).data =
      some sampleBefore := by decide +kernel
  exact ((run_invariant sampleMade_run).stored howner hdata).2

theorem sampleSent_agrees : Agrees sampleEnv sampleSent (sampleKey 2) sampleBefore := by
  have howner : (sampleSent (.pda ⟨.policy (sampleKey 2), 255⟩)).owner = gateId := by decide +kernel
  have hdata : GatePolicy.account.tryDeserialize (sampleSent (.pda ⟨.policy (sampleKey 2), 255⟩)).data =
      some sampleBefore := by decide +kernel
  exact ((run_invariant sampleSent_run).stored howner hdata).2

theorem sampleUpdate_calls : sampleUpdate.Calls sampleEnv (sampleKey 2) sampleBefore :=
  ⟨by decide, rfl, by decide, rfl, rfl, rfl, rfl, rfl⟩

theorem sampleFull_accepted : sampleFull.Accepted :=
  ⟨fun _ => by decide, fun _ => by decide, fun _ => rfl⟩

theorem policy_change_unblocked_iff_sample :
    ((Instruction.updatePolicy sampleUpdate sampleFull).process sampleEnv sampleMade).isOk ∧
      ((Instruction.setupExtraMetas sampleUpdate).process sampleEnv sampleMade).isOk :=
  (policy_change_unblocked_iff sampleMade_agrees sampleUpdate_calls sampleFull_accepted
    (fun v => by cases v <;> decide +kernel) (by decide +kernel) (by decide +kernel)).2 (by decide +kernel)

/-- The lamports sent to the thaw list keep the policy from getting its credential check: the payer holds ten
times the rent of both new lists, and the change fails. -/
theorem sent_lamports_block_change : (∃ h, (machine sampleEnv).Run h sampleSent) ∧
    Agrees sampleEnv sampleSent (sampleKey 2) sampleBefore ∧ sampleUpdate.Calls sampleEnv (sampleKey 2) sampleBefore ∧
    sampleFull.Accepted ∧
    (∀ v, listRent sampleEnv (metasCount sampleBefore) ≤
      (sampleSent (sampleEnv.listAddress v (sampleKey 2))).lamports) ∧
    (sampleSent sampleUpdate.payer).content = (systemId, []) ∧
    10 * (2 * listRent sampleEnv (metasCount (sampleBefore.withArgs sampleFull))) ≤
      (sampleSent sampleUpdate.payer).lamports ∧
    (Instruction.updatePolicy sampleUpdate sampleFull).process sampleEnv sampleSent =
      err (.runtime .unbalancedInstruction) := by
  refine ⟨⟨_, sampleSent_run⟩, sampleSent_agrees, sampleUpdate_calls, sampleFull_accepted, ?_, ?_, ?_, ?_⟩
  · intro v
    cases v <;> decide +kernel
  · decide +kernel
  · decide +kernel
  · exact error?_eq_some.1 (by decide +kernel)

end ThawGate.Gate
