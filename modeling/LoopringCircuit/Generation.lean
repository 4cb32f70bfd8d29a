import LoopringCircuit.Batch

set_option autoImplicit false

namespace Loopring

/-! The witness pass of the whole circuit: which wires `generateWitness` writes, how often, and
what it leaves on a ring's data. -/

section Frames

variable {V : Type} [DecidableEq V] (P : Primitives) (name : RingVar → V)

omit [DecidableEq V] in
/-- The matching part of a ring's witness writes only the rate checkers and the matches. -/
theorem RingSettlementGadget.writesOnly_matching :
    WritesOnly name (fun u => 23 ≤ u.member) (RingSettlementGadget.matchingWitness name) :=
  RingSettlementGadget.writesOnly_matchingChecks.mono fun _ h => h.1

omit [DecidableEq V] in
theorem RingSettlementGadget.writesOnly_accounts (rs : RingSettlement) :
    WritesOnly name (fun u => 17 ≤ u.member)
      (RingSettlementGadget.accountsWitness P name rs ++ RingSettlementGadget.matchingWitness name) :=
  .append ((rs.writesOnly_balanceUpdates P).mono fun _ h => h.1)
    ((RingSettlementGadget.writesOnly_matching name).mono fun _ h => by omega)

omit [DecidableEq V] in
theorem RingSettlementGadget.targets_afterData (root : V) (rs : RingSettlement) :
    ∀ x ∈ (RingSettlementGadget.tradingHistoryWitness P name root rs ++
        (RingSettlementGadget.accountsWitness P name rs ++
          RingSettlementGadget.matchingWitness name)).map Prod.fst,
      x = root ∨ ∃ u, 13 ≤ u.member ∧ name u = x := by
  intro x mem
  rw [RingSettlementGadget.tradingHistoryWitness, List.append_assoc, List.append_assoc,
    List.map_append, List.mem_append] at mem
  rcases mem with written | mem
  · exact .inl (List.mem_singleton.mp written)
  · exact .inr ((((rs.writesOnly_fillUpdates P).mono fun _ h => h.1).append
      ((RingSettlementGadget.writesOnly_fillCaps.mono fun _ h => by omega).append
        ((RingSettlementGadget.writesOnly_accounts P name rs).mono fun _ h => by omega))) x mem)

omit [DecidableEq V] in
theorem RingSettlementGadget.writesOnly_data (rs : RingSettlement) :
    WritesOnly name (fun u => u.member < 13) (RingSettlementGadget.dataWitness name rs) :=
  rs.writesOnly_dataBlocks.mono fun _ h => h.2

omit [DecidableEq V] in
/-- A ring's witness writes its own variables and the root it was built on, nothing else. -/
theorem RingSettlementGadget.targets_generateR1csWitness (root : V) (rs : RingSettlement) :
    ∀ x ∈ (RingSettlementGadget.generateR1csWitness P name root rs).map Prod.fst,
      x = root ∨ x ∈ Set.range name := by
  intro x mem
  rw [RingSettlementGadget.generateR1csWitness_eq, List.map_append, List.mem_append] at mem
  rcases mem with mem | mem
  · obtain ⟨u, -, same⟩ := RingSettlementGadget.writesOnly_data name rs x mem
    exact .inr ⟨u, same⟩
  · rcases RingSettlementGadget.targets_afterData P name root rs x mem with same | ⟨u, -, same⟩
    · exact .inl same
    · exact .inr ⟨u, same⟩

/-- A ring's whole witness leaves on its data members what `DataWritten` says. -/
theorem RingSettlementGadget.dataWritten_generateR1csWitness (inj : Function.Injective name)
    (root : V) (rootOutside : root ∉ Set.range name) (rs : RingSettlement) (fits : rs.ring.Fits)
    (σ : Assignment V) :
    rs.DataWritten (run (RingSettlementGadget.generateR1csWitness P name root rs) σ ∘ name) :=
  RingSettlementGadget.dataWitness_spec inj rs fits σ _ fun u hu => by
    rw [Function.comp_apply, RingSettlementGadget.generateR1csWitness_eq, run_append]
    refine run_outside _ _ _ fun mem => ?_
    rcases RingSettlementGadget.targets_afterData P name root rs _ mem with same | ⟨v, later, same⟩
    · exact rootOutside ⟨u, same⟩
    · exact absurd (inj same ▸ later) (by omega)

omit [DecidableEq V] in
theorem RingSettlementGadget.mem_targets_generateR1csWitness (root : V) (rs : RingSettlement) :
    root ∈ (RingSettlementGadget.generateR1csWitness P name root rs).map Prod.fst ∧
      name RingSettlementGadget.getNewTradingHistoryMerkleRoot ∈
        (RingSettlementGadget.generateR1csWitness P name root rs).map Prod.fst := by
  have result (filled : ℕ) : UpdateFilledVar.result ∈ UpdateFilledVar.vars TREE_DEPTH_FILLED filled :=
    List.mem_append_right _ (List.mem_map_of_mem _ (List.mem_append_right _
      (List.mem_map_of_mem _ (by decide : PathVar.hash 27 ∈ PathVar.vars 0 28))))
  rw [RingSettlementGadget.generateR1csWitness_eq]
  simp only [RingSettlementGadget.tradingHistoryWitness, RingSettlement.fillUpdates,
    List.flatMap_cons, List.flatMap_nil, FillUpdate.witness, List.map_append, List.mem_append,
    UpdateFilledGadget.targets_generateR1csWitness, RingVar.length_filledAddressVars]
  exact ⟨.inr (.inl (.inl (.inl (List.mem_map_of_mem Prod.fst (List.mem_singleton_self _))))),
    .inr (.inl (.inl (.inr (.inr (.inl (List.mem_map_of_mem _ (result _)))))))⟩

end Frames

section Completeness

variable (P : Primitives)

/-- A valid ring keeps its sub-adds and caps in range. -/
theorem RingSettlement.Valid.inRange {rs : RingSettlement} {slots : List Bool → FieldT}
    {accounts : List Bool → Account} (valid : rs.Valid P slots accounts) : rs.InRange := by
  have history := valid.history
  have legs := valid.accounts
  simp only [RingSettlement.historySteps, RingSettlement.fills, List.zipWith_cons_cons,
    List.zipWith_nil_left, HonestSteps, Fill.change_valid, Fill.change_apply] at history
  simp only [RingSettlement.accountSteps, RingSettlement.legs, List.zipWith_cons_cons,
    List.zipWith_nil_left, HonestSteps, Leg.change_apply, Leg.change_valid] at legs
  obtain ⟨vA, rA, -, vB, rB, -, -⟩ := history
  obtain ⟨vSA, bSA, -, vBA, bBA, -, vFA, bFA, -, vSB, bSB, -, vBB, bBB, -, vFB, bFB, -, -⟩ := legs
  have debit : ∀ {leg : Leg} {t : List Bool → Account} {b : FieldT}, leg.Valid t →
      leg.credit = false → b = (t leg.account).balance → (b - leg.amount).val < 2 ^ 96 :=
    fun valid credit read => by
      have range := valid.range
      rwa [Leg.balanceAfter, credit, if_neg Bool.false_ne_true, ← read] at range
  have credit : ∀ {leg : Leg} {t : List Bool → Account} {b : FieldT}, leg.Valid t →
      leg.credit = true → b = (t leg.account).balance → (b + leg.amount).val < 2 ^ 96 :=
    fun valid credit read => by
      have range := valid.range
      rwa [Leg.balanceAfter, credit, if_pos rfl, ← read] at range
  exact ⟨(debit vSA rfl bSA :), (credit vBB rfl bBB :), (debit vSB rfl bSB :), (credit vBA rfl bBA :),
    (debit vFA rfl bFA :), (debit vFB rfl bFB :), by rw [rA]; exact vA.cap, by rw [rB]; exact vB.cap⟩

/-- The shared-slot ring with the proofs its reads need on the zero primitives: every sibling
zero. -/
def sharedRingProved : RingSettlement :=
  { sharedRing with
    proofFilledA := ⟨List.replicate 28 0⟩, proofFilledB := ⟨List.replicate 28 0⟩
    accountS_A_proof := ⟨List.replicate 24 0⟩, accountB_A_proof := ⟨List.replicate 24 0⟩
    accountF_A_proof := ⟨List.replicate 24 0⟩, accountS_B_proof := ⟨List.replicate 24 0⟩
    accountB_B_proof := ⟨List.replicate 24 0⟩, accountF_B_proof := ⟨List.replicate 24 0⟩ }

/-- The shared-slot ring is valid on the empty trading history and accounts of `10`. -/
theorem sharedRingProved_valid :
    sharedRingProved.Valid Primitives.zero (fun _ => 0) (fun _ => Account.ofBalance 10) := by
  refine ⟨by refine ⟨⟨?_, ?_, ?_, ?_, ?_, ?_, ?_, ?_⟩, ⟨?_, ?_, ?_, ?_, ?_, ?_, ?_, ?_⟩, ?_, ?_, ?_,
    ?_, ?_, ?_⟩ <;> decide, rfl, rfl, by constructor <;> decide, (historyRoot_zero _).symm, ?_, ?_⟩
  · simp only [RingSettlement.historySteps, RingSettlement.fills, List.zipWith_cons_cons,
      List.zipWith_nil_left, HonestSteps, Fill.change_valid, Fill.change_apply]
    refine ⟨⟨?_, ?_⟩, ?_, ?_, ⟨?_, ?_⟩, ?_, ?_, trivial⟩
    all_goals decide
  · simp only [RingSettlement.accountSteps, RingSettlement.legs, List.zipWith_cons_cons,
      List.zipWith_nil_left, HonestSteps, Leg.change_apply, Leg.change_valid]
    refine ⟨⟨?_, ?_, ?_, ?_, ?_⟩, ?_, ?_, ⟨?_, ?_, ?_, ?_, ?_⟩, ?_, ?_, ⟨?_, ?_, ?_, ?_, ?_⟩, ?_, ?_,
      ⟨?_, ?_, ?_, ?_, ?_⟩, ?_, ?_, ⟨?_, ?_, ?_, ?_, ?_⟩, ?_, ?_, ⟨?_, ?_, ?_, ?_, ?_⟩, ?_, ?_, trivial⟩
    all_goals decide

theorem SubaddGadget.Constraints.of_values {τ : SubaddVar → FieldT} {A B N a b n : FieldT}
    (hA : A = a) (hB : B = b) (hN : N = n) (outputs : τ .X = a - n ∧ τ .Y = b + n)
    (rangeX : (a - n).val < 2 ^ 96) (rangeY : (b + n).val < 2 ^ 96) :
    SubaddGadget.Constraints 96 A B N τ :=
  ⟨by rw [outputs.1, hA, hN], by rw [outputs.2, hB, hN], outputs.1 ▸ rangeX, outputs.2 ▸ rangeY⟩

variable {V : Type} [DecidableEq V] {name : RingVar → V}

/-- The spec of a ring's witness on a valid ring. -/
theorem RingSettlementGadget.generateR1csWitness_spec (inj : Function.Injective name)
    (root : V) (rootOutside : root ∉ Set.range name) (rs : RingSettlement)
    (slots : List Bool → FieldT) (accounts : List Bool → Account)
    (valid : rs.Valid P slots accounts) (σ : Assignment V) :
    RingSettlementGadget.Constraints P (historyRoot P slots) (accountsRoot P accounts)
        (run (RingSettlementGadget.generateR1csWitness P name root rs) σ ∘ name) ∧
      run (RingSettlementGadget.generateR1csWitness P name root rs) σ root = historyRoot P slots ∧
      run (RingSettlementGadget.generateR1csWitness P name root rs) σ
          (name RingSettlementGadget.getNewTradingHistoryMerkleRoot) =
        historyRoot P (applyFills slots rs.fills) ∧
      run (RingSettlementGadget.generateR1csWitness P name root rs) σ
          (name (.updateBalanceF_B UpdateBalanceVar.result)) =
        accountsRoot P (applyLegs accounts rs.legs) := by
  have data := RingSettlementGadget.dataWritten_generateR1csWitness P name inj root rootOutside rs
    valid.fits σ
  have range := valid.inRange P
  -- the four parts, each run from the state the one before it left
  obtain ⟨σ₁, h₁⟩ := @exists_eq' _ (run (RingSettlementGadget.dataWitness name rs) σ)
  obtain ⟨σ₂, h₂⟩ := @exists_eq' _
    (run (RingSettlementGadget.tradingHistoryWitness P name root rs) σ₁)
  obtain ⟨σ₃, h₃⟩ := @exists_eq' _ (run (RingSettlementGadget.accountsWitness P name rs) σ₂)
  have unfold : run (RingSettlementGadget.generateR1csWitness P name root rs) σ =
      run (RingSettlementGadget.matchingWitness name) σ₃ := by
    rw [RingSettlementGadget.generateR1csWitness_eq, run_append, run_append, run_append, h₁, h₂,
      h₃]
  rw [unfold] at data ⊢
  -- what the later parts leave of the earlier ones
  have later := RingSettlementGadget.writesOnly_accounts P name rs
  have afterAccounts : ∀ u, u.member < 17 →
      run (RingSettlementGadget.matchingWitness name) σ₃ (name u) = σ₂ (name u) := fun u hu => by
    rw [← h₃, ← run_append]
    exact later.run_name inj σ₂ u (by omega)
  have afterMatching : ∀ u, u.member < 23 →
      run (RingSettlementGadget.matchingWitness name) σ₃ (name u) = σ₃ (name u) := fun u hu =>
    (RingSettlementGadget.writesOnly_matching name).run_name inj σ₃ u (by omega)
  obtain ⟨rootWritten, history, caps⟩ :=
    RingSettlementGadget.tradingHistoryWitness_spec P inj root rootOutside rs slots valid.fits
      valid.history σ₁ _ data fun u hu => by rw [Function.comp_apply, afterAccounts u hu, ← h₂]
  have legs := RingSettlementGadget.accountsWitness_spec P inj rs accounts valid.accounts σ₂ _ data
    fun u hu => by rw [Function.comp_apply, afterMatching u hu, ← h₃]
  have checks := RingSettlementGadget.matchingWitness_spec inj rs valid.fits valid.matched σ₃ _ data
    fun _ _ => Function.comp_apply
  simp only [RingSettlement.fillUpdates, RingSettlement.balanceUpdates, UpdateChain,
    RingSettlementGadget.fillCaps, RingSettlementGadget.matchingChecks, List.forall_mem_cons]
    at history caps legs checks
  obtain ⟨⟨updateFilledA, -⟩, ⟨updateFilledB, -⟩, historyAfter⟩ := history
  obtain ⟨filledLeqA, filledLeqB, -⟩ := caps
  obtain ⟨updateS_A, updateB_A, updateF_A, updateS_B, updateB_B, updateF_B, accountsAfter⟩ := legs
  obtain ⟨rateA, rateB, rateFeeA, rateFeeB, matchLeqA, matchLeqB, -⟩ := checks
  rw [Function.comp_apply] at historyAfter accountsAfter
  have packed : DualVar.packed ∈ DualVar.vars 96 := DualVar.packed_mem_vars 96
  have token : ∀ v ∈ [OrderVar.tokenS, .tokenB], v ∈ OrderVar.vars := by
    simp only [List.mem_cons, List.not_mem_nil, or_false]
    rintro _ (rfl | rfl) <;> exact OrderVar.mem_vars.mpr trivial
  refine ⟨⟨.of_values P valid.fits.orderA valid.signatureA data.orderA,
    .of_values P valid.fits.orderB valid.signatureB data.orderB,
    .of_values valid.fits.fillS_A data.fillS_A, .of_values valid.fits.fillB_A data.fillB_A,
    .of_values valid.fits.fillF_A data.fillF_A, .of_values valid.fits.fillS_B data.fillS_B,
    .of_values valid.fits.fillB_B data.fillB_B, .of_values valid.fits.fillF_B data.fillF_B,
    .of_values data.balanceS_A_before data.balanceB_B_before (data.fillS_A _ packed)
      data.balanceSB_A range.balanceS_A range.balanceB_B,
    .of_values data.balanceS_B_before data.balanceB_A_before (data.fillS_B _ packed)
      data.balanceSB_B range.balanceS_B range.balanceB_A,
    .of_values data.balanceF_A_before data.balanceF_W_A_before (data.fillF_A _ packed)
      data.balanceF_A range.balanceF_A (by rw [zero_add]; exact valid.fits.fillF_A),
    .of_values data.balanceF_B_before data.balanceF_W_B_before (data.fillF_B _ packed)
      data.balanceF_B range.balanceF_B (by rw [zero_add]; exact valid.fits.fillF_B),
    updateFilledA, updateFilledB, filledLeqA, filledLeqB, updateS_A, updateB_A, updateF_A,
    updateS_B, updateB_B, updateF_B, ?_, ?_, rateA, rateB, rateFeeA, rateFeeB, matchLeqA,
    matchLeqB⟩, ?_, historyAfter, accountsAfter⟩
  · rw [mul_one, data.orderA _ (token _ (List.mem_cons_self _ _)),
      data.orderB _ (token _ (List.mem_cons_of_mem _ (List.mem_singleton_self _)))]
    exact valid.matched.tokenS
  · rw [mul_one, data.orderA _ (token _ (List.mem_cons_of_mem _ (List.mem_singleton_self _))),
      data.orderB _ (token _ (List.mem_cons_self _ _))]
    exact valid.matched.tokenB
  · rw [← h₃, ← run_append, later.run_other σ₂ rootOutside, ← h₂, rootWritten,
      valid.tradingHistoryMerkleRoot]

/-- Completeness of a ring's witness under the checks as the checkers are wired. -/
theorem RingSettlementGadget.generateR1csWitness_complete (inj : Function.Injective name)
    (root : V) (rootOutside : root ∉ Set.range name) (rs : RingSettlement)
    (slots : List Bool → FieldT) (accounts : List Bool → Account)
    (valid : rs.Valid P slots accounts) (σ : Assignment V) :
    RingSettlementGadget.Constraints P (historyRoot P slots) (accountsRoot P accounts)
        (run (RingSettlementGadget.generateR1csWitness P name root rs) σ ∘ name) ∧
      run (RingSettlementGadget.generateR1csWitness P name root rs) σ root = historyRoot P slots ∧
      run (RingSettlementGadget.generateR1csWitness P name root rs) σ
          (name RingSettlementGadget.getNewTradingHistoryMerkleRoot) =
        historyRoot P (applyFills slots rs.fills) ∧
      run (RingSettlementGadget.generateR1csWitness P name root rs) σ
          (name (.updateBalanceF_B UpdateBalanceVar.result)) =
        accountsRoot P (applyLegs accounts rs.legs) :=
  RingSettlementGadget.generateR1csWitness_spec P inj root rootOutside rs slots accounts valid σ

theorem generateR1csWitness_complete_on_shared_ring :
    RingSettlementGadget.Constraints Primitives.zero (historyRoot Primitives.zero fun _ => 0)
        (accountsRoot Primitives.zero fun _ => Account.ofBalance 10)
        (run (RingSettlementGadget.generateR1csWitness Primitives.zero (Var.ringSettlements 0)
          (Var.tradingHistoryMerkleRootBefore .packed) sharedRingProved) (fun _ => 0) ∘
            .ringSettlements 0) ∧
      run (RingSettlementGadget.generateR1csWitness Primitives.zero (Var.ringSettlements 0)
          (Var.tradingHistoryMerkleRootBefore .packed) sharedRingProved) (fun _ => 0)
          (.tradingHistoryMerkleRootBefore .packed) = historyRoot Primitives.zero (fun _ => 0) ∧
      run (RingSettlementGadget.generateR1csWitness Primitives.zero (Var.ringSettlements 0)
          (Var.tradingHistoryMerkleRootBefore .packed) sharedRingProved) (fun _ => 0)
          (.ringSettlements 0 RingSettlementGadget.getNewTradingHistoryMerkleRoot) =
        historyRoot Primitives.zero (applyFills (fun _ => 0) sharedRingProved.fills) ∧
      run (RingSettlementGadget.generateR1csWitness Primitives.zero (Var.ringSettlements 0)
          (Var.tradingHistoryMerkleRootBefore .packed) sharedRingProved) (fun _ => 0)
          (.ringSettlements 0 (.updateBalanceF_B UpdateBalanceVar.result)) =
        accountsRoot Primitives.zero (applyLegs (fun _ => Account.ofBalance 10) sharedRingProved.legs) :=
  RingSettlementGadget.generateR1csWitness_complete Primitives.zero
    (fun _ _ same => (Var.ringSettlements.inj same).2) _ (by simp) sharedRingProved _ _
    sharedRingProved_valid _

end Completeness

section Circuit

variable (P : Primitives)

namespace CircuitGadget

theorem root_mem_ringWitnesses : ∀ (i : ℕ) (data : List RingSettlement) (j : ℕ), i ≤ j →
    j < i + data.length → ringTradingHistoryMerkleRoot j ∈ (ringWitnesses P i data).map Prod.fst
  | _, [], _, le, lt => absurd lt (by simpa using le)
  | i, rs :: rest, j, le, lt => by
    rw [ringWitnesses, List.map_append, List.mem_append]
    rcases le.eq_or_lt with rfl | later
    · exact .inl (RingSettlementGadget.mem_targets_generateR1csWitness P _ _ rs).1
    · exact .inr (root_mem_ringWitnesses (i + 1) rest j later (by simp at lt; omega))

/-- The root ring `j + 1` is built on is written twice. -/
theorem two_le_count_ringWitnesses : ∀ (i : ℕ) (data : List RingSettlement) (j : ℕ), i ≤ j →
    j + 1 < i + data.length →
      2 ≤ ((ringWitnesses P i data).map Prod.fst).count (ringTradingHistoryMerkleRoot (j + 1))
  | _, [], _, le, lt => absurd lt (by simp; omega)
  | i, rs :: rest, j, le, lt => by
    rw [ringWitnesses, List.map_append, List.count_append]
    rcases le.eq_or_lt with rfl | later
    · have first := List.one_le_count_iff.mpr
        (RingSettlementGadget.mem_targets_generateR1csWitness P (.ringSettlements i)
          (ringTradingHistoryMerkleRoot i) rs).2
      have second := List.one_le_count_iff.mpr
        (root_mem_ringWitnesses P (i + 1) rest (i + 1) le_rfl (by simp at lt; omega))
      exact Nat.add_le_add first second
    · exact (two_le_count_ringWitnesses (i + 1) rest j later (by simp at lt; omega)).trans
        (Nat.le_add_left _ _)

end CircuitGadget

/-- The witness pass writes the root each ring is built on at least twice. -/
theorem generateWitness_rewrites_ring_roots (numRings : ℕ)
    (ringSettlementsData : List RingSettlement) (a b c d : FieldT) (j : ℕ)
    (hj : j < ringSettlementsData.length) :
    2 ≤ ((CircuitGadget.generateWitness P numRings ringSettlementsData a b c d).map
      Prod.fst).count (CircuitGadget.ringTradingHistoryMerkleRoot j) := by
  simp only [CircuitGadget.generateWitness, List.map_append, List.count_append]
  cases j with
  | zero =>
    have packed := List.one_le_count_iff.mpr (show CircuitGadget.ringTradingHistoryMerkleRoot 0 ∈
        (DualVariableGadget.generateR1csWitness .tradingHistoryMerkleRootBefore 256 a).map
          Prod.fst by simp [CircuitGadget.ringTradingHistoryMerkleRoot, DualVar.vars])
    have ring := List.one_le_count_iff.mpr
      (CircuitGadget.root_mem_ringWitnesses P 0 ringSettlementsData 0 le_rfl (by omega))
    omega
  | succ j =>
    have := CircuitGadget.two_le_count_ringWitnesses P 0 ringSettlementsData j (Nat.zero_le _)
      (by omega)
    omega

theorem generateWitness_rewrites_ring_roots_on_zero_ring :
    2 ≤ ((CircuitGadget.generateWitness Primitives.zero 1 [zeroRing] 0 0 0 0).map
      Prod.fst).count (CircuitGadget.ringTradingHistoryMerkleRoot 0) :=
  generateWitness_rewrites_ring_roots Primitives.zero 1 [zeroRing] 0 0 0 0 0 Nat.one_pos

end Circuit

/-! Completeness against the spec's checks. The spec asks each order's rates over the order's own
amounts; the checkers are wired to `A`'s `amountB` and `amountF` for both orders, and the pass
fails on a ring of two orders at one price and of different sizes. -/

end Loopring
