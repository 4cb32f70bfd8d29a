import LoopringCircuit.Ring

set_option autoImplicit false

namespace Loopring

/-! The matching of a ring's two orders: the two `LeqGadget`s `matchLeqA` (`fillB_B ≤ fillS_A`)
and `matchLeqB` (`fillB_A ≤ fillS_B`) on the packed fills. -/

/-- A dual variable holding `x` satisfies its constraints when `x` has the width. -/
theorem DualVariableGadget.constraints_value {width : ℕ} {x : FieldT} (fits : x.val < 2 ^ width) :
    DualVariableGadget.Constraints width (DualVar.value x) :=
  .of_values fits fun _ _ => rfl

section Matches

variable {V : Type} [DecidableEq V] (name : RingVar → V)

/-- `matchLeqA` and `matchLeqB`'s witnesses, in the order the ring makes them. -/
def RingSettlementGadget.matchWitness : List (Write V) :=
  LeqGadget.generateR1csWitness (name ∘ .matchLeqA) (name (.fillB_B .packed))
      (name (.fillS_A .packed)) ++
    LeqGadget.generateR1csWitness (name ∘ .matchLeqB) (name (.fillB_A .packed))
      (name (.fillS_B .packed))

variable {name}

omit [DecidableEq V] in
theorem writesOnly_matchLeqA (A B : V) :
    WritesOnly name (fun u => ∃ v, u = .matchLeqA v)
      (LeqGadget.generateR1csWitness (name ∘ .matchLeqA) A B) :=
  .of_targets RingVar.matchLeqA LeqVar.vars (fun w _ => ⟨w, rfl⟩)
    (LeqGadget.targets_generateR1csWitness _ _ _)

omit [DecidableEq V] in
theorem writesOnly_matchLeqB (A B : V) :
    WritesOnly name (fun u => ∃ v, u = .matchLeqB v)
      (LeqGadget.generateR1csWitness (name ∘ .matchLeqB) A B) :=
  .of_targets RingVar.matchLeqB LeqVar.vars (fun w _ => ⟨w, rfl⟩)
    (LeqGadget.targets_generateR1csWitness _ _ _)

theorem DualVariableGadget.Constraints.val_packed_lt_128 {τ : DualVar → FieldT}
    (h : DualVariableGadget.Constraints 96 τ) : (τ .packed).val < 2 ^ 128 :=
  (h.val_packed_lt (by norm_num)).trans (by norm_num)

/-- The two matches can be met exactly when `fillB_B ≤ fillS_A` and `fillB_A ≤ fillS_B`. -/
theorem matches_feasible_iff (inj : Function.Injective name) (σ : Assignment V)
    (fillS_A : DualVariableGadget.Constraints 96 fun v => σ (name (.fillS_A v)))
    (fillB_A : DualVariableGadget.Constraints 96 fun v => σ (name (.fillB_A v)))
    (fillS_B : DualVariableGadget.Constraints 96 fun v => σ (name (.fillS_B v)))
    (fillB_B : DualVariableGadget.Constraints 96 fun v => σ (name (.fillB_B v))) :
    ((∃ matchLeqA matchLeqB : LeqVar → FieldT,
        LeqGadget.Constraints (σ (name (.fillB_B .packed))) (σ (name (.fillS_A .packed)))
          matchLeqA ∧
        LeqGadget.Constraints (σ (name (.fillB_A .packed))) (σ (name (.fillS_B .packed)))
          matchLeqB) ↔
      (σ (name (.fillB_B .packed))).val ≤ (σ (name (.fillS_A .packed))).val ∧
        (σ (name (.fillB_A .packed))).val ≤ (σ (name (.fillS_B .packed))).val) ∧
    ((σ (name (.fillB_B .packed))).val ≤ (σ (name (.fillS_A .packed))).val →
      (σ (name (.fillB_A .packed))).val ≤ (σ (name (.fillS_B .packed))).val →
      let ρ := run (RingSettlementGadget.matchWitness name) σ
      LeqGadget.Constraints (ρ (name (.fillB_B .packed))) (ρ (name (.fillS_A .packed)))
          (fun v => ρ (name (.matchLeqA v))) ∧
        LeqGadget.Constraints (ρ (name (.fillB_A .packed))) (ρ (name (.fillS_B .packed)))
          (fun v => ρ (name (.matchLeqB v))) ∧
        ∀ u, (∀ v, u ≠ .matchLeqA v) → (∀ v, u ≠ .matchLeqB v) → ρ (name u) = σ (name u)) := by
  have witness : (σ (name (.fillB_B .packed))).val ≤ (σ (name (.fillS_A .packed))).val →
      (σ (name (.fillB_A .packed))).val ≤ (σ (name (.fillS_B .packed))).val →
      let ρ := run (RingSettlementGadget.matchWitness name) σ
      LeqGadget.Constraints (ρ (name (.fillB_B .packed))) (ρ (name (.fillS_A .packed)))
          (fun v => ρ (name (.matchLeqA v))) ∧
        LeqGadget.Constraints (ρ (name (.fillB_A .packed))) (ρ (name (.fillS_B .packed)))
          (fun v => ρ (name (.matchLeqB v))) ∧
        ∀ u, (∀ v, u ≠ .matchLeqA v) → (∀ v, u ≠ .matchLeqB v) → ρ (name u) = σ (name u) := by
    intro leA leB
    obtain ⟨ρ₁, h₁⟩ := @exists_eq' _ (run (LeqGadget.generateR1csWitness (name ∘ .matchLeqA)
      (name (.fillB_B .packed)) (name (.fillS_A .packed))) σ)
    obtain ⟨ρ, h⟩ := @exists_eq' _ (run (LeqGadget.generateR1csWitness (name ∘ .matchLeqB)
      (name (.fillB_A .packed)) (name (.fillS_B .packed))) ρ₁)
    have unfold : run (RingSettlementGadget.matchWitness name) σ = ρ := by
      rw [RingSettlementGadget.matchWitness, run_append, h₁, h]
    dsimp only
    rw [unfold]
    have keepA : ∀ u, (∀ v, u ≠ .matchLeqA v) → ρ₁ (name u) = σ (name u) := fun u other =>
      h₁ ▸ (writesOnly_matchLeqA _ _).run_name inj σ u fun ⟨v, h⟩ => other v h
    have keepB : ∀ u, (∀ v, u ≠ .matchLeqB v) → ρ (name u) = ρ₁ (name u) := fun u other =>
      h ▸ (writesOnly_matchLeqB _ _).run_name inj ρ₁ u fun ⟨v, h⟩ => other v h
    have leqA := h₁ ▸ LeqGadget.generateR1csWitness_spec (name ∘ .matchLeqA)
      (inj.comp fun _ _ => RingVar.matchLeqA.inj) _ _ σ fillB_B.val_packed_lt_128
      fillS_A.val_packed_lt_128 leA
    have leqB := h ▸ LeqGadget.generateR1csWitness_spec (name ∘ .matchLeqB)
      (inj.comp fun _ _ => RingVar.matchLeqB.inj) (name (.fillB_A .packed))
      (name (.fillS_B .packed)) ρ₁
      (by rw [keepA (.fillB_A .packed) (by simp)]; exact fillB_A.val_packed_lt_128)
      (by rw [keepA (.fillS_B .packed) (by simp)]; exact fillS_B.val_packed_lt_128)
      (by rw [keepA (.fillB_A .packed) (by simp), keepA (.fillS_B .packed) (by simp)]; exact leB)
    refine ⟨?_, ?_, fun u otherA otherB => (keepB u otherB).trans (keepA u otherA)⟩
    · rw [keepB (.fillB_B .packed) (by simp), keepB (.fillS_A .packed) (by simp),
        keepA (.fillB_B .packed) (by simp), keepA (.fillS_A .packed) (by simp),
        show (fun v => ρ (name (.matchLeqA v))) = ρ₁ ∘ name ∘ .matchLeqA from
          funext fun v => keepB (.matchLeqA v) (by simp)]
      exact leqA
    · rw [keepB (.fillB_A .packed) (by simp), keepB (.fillS_B .packed) (by simp)]
      exact leqB
  refine ⟨⟨fun ⟨matchLeqA, matchLeqB, leqA, leqB⟩ =>
    ⟨leqA.le fillB_B.val_packed_lt_128 fillS_A.val_packed_lt_128,
      leqB.le fillB_A.val_packed_lt_128 fillS_B.val_packed_lt_128⟩,
    fun ⟨leA, leB⟩ => ?_⟩, witness⟩
  obtain ⟨leqA, leqB, keep⟩ := witness leA leB
  rw [keep (.fillB_B .packed) (by simp) (by simp), keep (.fillS_A .packed) (by simp) (by simp)]
    at leqA
  rw [keep (.fillB_A .packed) (by simp) (by simp), keep (.fillS_B .packed) (by simp) (by simp)]
    at leqB
  exact ⟨_, _, leqA, leqB⟩

end Matches

/-- Fills of a ring in which `A` sells `3` against the `1` `B` buys, and `B` sells the `2` `A` buys. -/
def matchFills : RingVar → FieldT
  | .fillS_A v => DualVar.value 3 v
  | .fillB_A v => DualVar.value 2 v
  | .fillS_B v => DualVar.value 2 v
  | .fillB_B v => DualVar.value 1 v
  | _ => 0

theorem matches_feasible_on_unequal_fills :
    ((∃ matchLeqA matchLeqB : LeqVar → FieldT,
        LeqGadget.Constraints 1 3 matchLeqA ∧ LeqGadget.Constraints 2 2 matchLeqB) ↔
      (1 : FieldT).val ≤ (3 : FieldT).val ∧ (2 : FieldT).val ≤ (2 : FieldT).val) ∧
    LeqGadget.Constraints 1 3
        (fun v => run (RingSettlementGadget.matchWitness id) matchFills (.matchLeqA v)) ∧
      LeqGadget.Constraints 2 2
        (fun v => run (RingSettlementGadget.matchWitness id) matchFills (.matchLeqB v)) :=
  have feasible := matches_feasible_iff Function.injective_id matchFills
    (@DualVariableGadget.constraints_value 96 3 (by decide))
    (@DualVariableGadget.constraints_value 96 2 (by decide))
    (@DualVariableGadget.constraints_value 96 2 (by decide))
    (@DualVariableGadget.constraints_value 96 1 (by decide))
  by
    obtain ⟨leqA, leqB, keep⟩ := feasible.2 (show (1 : FieldT).val ≤ (3 : FieldT).val by decide)
      (show (2 : FieldT).val ≤ (2 : FieldT).val by decide)
    rw [keep (.fillB_B .packed) (by simp) (by simp), keep (.fillS_A .packed) (by simp) (by simp)]
      at leqA
    rw [keep (.fillB_A .packed) (by simp) (by simp), keep (.fillS_B .packed) (by simp) (by simp)]
      at leqB
    exact ⟨feasible.1, leqA, leqB⟩

end Loopring
