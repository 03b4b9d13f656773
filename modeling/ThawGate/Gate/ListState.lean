import ThawGate.Gate.Refund

/-!
# The state a write leaves

Whatever was at a list's address, a write that succeeds leaves the gate's account with the encoded list and no
byte more, and lamports go between it and the payer only. A list of the gate ends with its rent exactly, and a second
write changes nothing (`rewrite_list`). A new list is topped up but never refunded, so one that was sent more than
its rent beforehand keeps it, and the next write gives it to that write's payer (`write_exact_iff`).
-/

namespace ThawGate.Gate

open Borsh Exec

section write

variable {env : Env} {variant : Variant} {x payer : Address} {mint : Pubkey} {metas : List ExtraAccountMeta}
  {f f' g : Frame}

theorem write_size (howner : (f.held x).owner = gateId) (h : write env variant x mint payer metas f = ok f') :
    MetaList.sizeOf metas.length ≤ (f.held x).data.length + Svm.Frame.maxDataIncrease := by
  obtain ⟨-, f₁, -, hsize, -, -⟩ := write_eq_ok.1 h
  rw [if_pos howner] at hsize
  obtain ⟨f₂, hresize, -⟩ := bind_eq_ok.1 hsize
  exact (Svm.Frame.resize_eq_ok.1 hresize).1

/-- The lamports of a list after a write: exactly the rent, but for a new list that holds more. -/
theorem write_lamports (hne : x ≠ payer) (h : write env variant x mint payer metas f = ok f') :
    (f'.held x).lamports =
        (if (f.held x).owner = gateId then listRent env metas.length
          else max (f.held x).lamports (listRent env metas.length)) ∧
      (f'.held x).lamports + (f'.held payer).lamports = (f.held x).lamports + (f.held payer).lamports := by
  by_cases howner : (f.held x).owner = gateId
  · obtain ⟨hmoves, -, -⟩ := write_moves hne howner (write_size howner h) h
    rw [if_pos howner, hmoves.list_eq, hmoves.payer_eq]
    refine ⟨rfl, ?_⟩
    by_cases hle : listRent env metas.length ≤ (f.held x).lamports
    · omega
    · have hfunds := ((write_isOk_iff (write_written h).1 hne howner (write_size howner h)).1 ⟨f', h⟩).resolve_left hle
      have hpays := hfunds.funds
      omega
  · obtain ⟨-, f₁, f₂, hsize, htop, hfill⟩ := write_eq_ok.1 h
    rw [if_neg howner] at hsize ⊢
    have hcreated : Moves x payer _ _ _ _ := create_moves hsize
    obtain ⟨hfilled, -⟩ := fill_moves hne hfill
    rw [hfilled.list_eq, hfilled.payer_eq]
    by_cases hlt : (f.held x).lamports < listRent env metas.length
    · obtain ⟨htopped, -⟩ := topUp_moves hne hlt htop
      have hfunds := ((topUp_isOk_iff hlt).1 ⟨f₂, htop⟩).funds
      rw [hcreated.payer_eq] at hfunds
      rw [htopped.list_eq, htopped.payer_eq, hcreated.list_eq, hcreated.payer_eq, Nat.max_eq_right hlt.le]
      omega
    · obtain rfl := ok.inj ((topUp_of_le (not_lt.1 hlt)).symm.trans htop)
      rw [hcreated.list_eq, hcreated.payer_eq, Nat.max_eq_left (not_lt.1 hlt)]
      exact ⟨rfl, rfl⟩

/-- A list of the gate that holds these metas and its rent is rewritten as it is. -/
theorem write_same (hx : env.listAddress variant mint = x)
    (hcontent : (g.held x).content = (gateId, MetaList.pack variant.discriminator metas))
    (hsize : (MetaList.pack variant.discriminator metas).length = MetaList.sizeOf metas.length)
    (hrent : (g.held x).lamports = listRent env metas.length) :
    write env variant x mint payer metas g = ok g := by
  have howner : (g.held x).owner = gateId := congrArg Prod.fst hcontent
  have hdata : (g.held x).data = MetaList.pack variant.discriminator metas := congrArg Prod.snd hcontent
  have hlen : (g.held x).data.length = MetaList.sizeOf metas.length := (congrArg List.length hdata).trans hsize
  have hput (data : Bytes) (h : data = (g.held x).data) : g.put x ⟨(g.held x).lamports, (g.held x).owner, data⟩ = g := by
    subst h
    unfold Svm.Frame.put
    rw [show (⟨(g.held x).lamports, (g.held x).owner, (g.held x).data⟩ : Account) = g.held x from rfl,
      Function.update_eq_self]
  refine write_eq_ok.2 ⟨hx, g, g, ?_, ?_, ?_⟩
  · have hresize : g.resize gateId x (MetaList.sizeOf metas.length) = ok g := by
      refine Svm.Frame.resize_eq_ok.2 ⟨by rw [hlen]; exact Nat.le_add_right _ _, howner, (hput _ ?_).symm⟩
      rw [← hlen, List.take_length, Nat.sub_self, List.replicate_zero, List.append_nil]
    rw [if_pos howner, refit, hresize, bind_ok, if_neg (by rw [hrent]; exact lt_irrefl _)]
    rfl
  · exact topUp_of_le hrent.ge
  · exact (fill_eq_ok hlen).2 ⟨howner, (hput _ hdata.symm).symm⟩

end write

/-- **The state of a written list**: whatever was at the address, after `metas::write` of a policy's list, with a
payer that signs, the account is the gate's and holds the encoded list and no byte more, and only the payer and the
list have exchanged lamports. It holds the rent of its length exactly, and a second write changes nothing, if and
only if it was the gate's before or held no more than that rent. -/
theorem write_exact_iff {env : Env} {variant : Variant} {x : Address} {k : Pubkey} {policy : GatePolicy}
    {metas : List ExtraAccountMeta} {f f' : Frame} (hmetas : extraMetas policy = some metas)
    (h : write env variant x policy.mint (.key k) metas f = ok f') :
    ((f'.held x).content = (gateId, MetaList.pack variant.discriminator metas) ∧
        (f'.held x).lamports = listRent env metas.length ∧
        (f'.held x).lamports + (f'.held (.key k)).lamports = (f.held x).lamports + (f.held (.key k)).lamports ∧
        ∀ g : Frame, g.held = f'.held →
          ∃ g', write env variant x policy.mint (.key k) metas g = ok g' ∧ g'.held = g.held) ↔
      ((f.held x).owner = gateId ∨ (f.held x).lamports ≤ listRent env metas.length) := by
  obtain ⟨hx, hwritten⟩ := write_written h
  have hne : x ≠ .key k := by
    rw [← hx]
    exact Address.noConfusion
  obtain ⟨hlamports, hsum⟩ := write_lamports hne h
  have hexact : (f'.held x).lamports = listRent env metas.length ↔
      ((f.held x).owner = gateId ∨ (f.held x).lamports ≤ listRent env metas.length) := by
    rw [hlamports]
    split_ifs with howner
    · exact iff_of_true rfl (.inl howner)
    · rw [or_iff_right howner, max_eq_right_iff]
  have hsize := MetaList.length_pack (discriminator_length variant) (extraMetas_fits hmetas)
  rw [← hexact]
  refine ⟨fun hstate => hstate.2.1, fun hrent => ⟨hwritten.list, hrent, hsum, fun g hg => ⟨g, ?_, rfl⟩⟩⟩
  exact write_same hx (hg ▸ hwritten.list) hsize (hg ▸ hrent)

/-! ### A list that was sent too much -/

/-- The list of the small policy. -/
def sampleMetas : List ExtraAccountMeta :=
  [.pda [.literal policySeed, .accountKey mintIndex], .pubkey sssTokenId,
    .externalPda 7 (registrySeeds seedBlacklist)]

theorem sampleMetas_eq : extraMetas sampleBefore = some sampleMetas := rfl

/-- A write of the thaw list, with wallet 1 as the payer. -/
def sampleWrite (s : Chain) : Exec Failure Frame :=
  write sampleEnv .thaw (sampleEnv.listAddress .thaw (sampleKey 2)) (sampleKey 2) (.key (sampleKey 1)) sampleMetas
    (.enter sampleInit.keys s)

/-- What such a write leaves. -/
def sampleAfter (s : Chain) : Chain :=
  match sampleWrite s with
  | .ok f => f.held
  | _ => s

theorem sampleAfter_eq {s : Chain} (h : (sampleWrite s).isOk) :
    ∃ f, sampleWrite s = ok f ∧ sampleAfter s = f.held := by
  obtain ⟨f, hf⟩ := isOk_iff.1 h
  refine ⟨f, hf, ?_⟩
  rw [sampleAfter, hf]

theorem write_exact_iff_sample : ∃ f, sampleWrite sampleChain = ok f ∧
    (f.held (sampleEnv.listAddress .thaw (sampleKey 2))).lamports = listRent sampleEnv 3 := by
  obtain ⟨f, hf⟩ : ∃ f, sampleWrite sampleChain = ok f := isOk_iff.1 (by decide +kernel)
  have hmetas : extraMetas sampleBefore = some sampleMetas := sampleMetas_eq
  exact ⟨f, hf, ((write_exact_iff hmetas hf).2 (.inr (by decide +kernel))).2.1⟩

/-- Someone sends a tenth of a SOL to the address before the list is made. The list keeps all of it, and the next
write, with the same metas, hands the surplus to that write's payer. -/
theorem sent_list_keeps_surplus :
    let list := sampleEnv.listAddress .thaw (sampleKey 2)
    let sent := received sampleChain list (10 ^ 8)
    (∃ f, sampleWrite sent = ok f ∧ (f.held list).lamports = 10 ^ 8 ∧ listRent sampleEnv 3 < 10 ^ 8) ∧
      ∃ f, sampleWrite (sampleAfter sent) = ok f ∧ (f.held list).lamports = listRent sampleEnv 3 ∧
        (f.held (.key (sampleKey 1))).lamports =
          (sampleAfter sent (.key (sampleKey 1))).lamports + (10 ^ 8 - listRent sampleEnv 3) := by
  intro list sent
  obtain ⟨f, hf, hafter⟩ := sampleAfter_eq (s := sent) (by decide +kernel)
  obtain ⟨f', hf', hafter'⟩ := sampleAfter_eq (s := sampleAfter sent) (by decide +kernel)
  refine ⟨⟨f, hf, ?_, by decide⟩, f', hf', ?_, ?_⟩
  · rw [← hafter]
    decide +kernel
  · rw [← hafter']
    decide +kernel
  · rw [← hafter']
    decide +kernel

end ThawGate.Gate
