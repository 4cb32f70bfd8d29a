import LoopringCircuit.Generation

set_option autoImplicit false

namespace Loopring

/-! Completeness of the whole witness pass: `CircuitGadget::generateWitness` on a batch of rings
satisfies every constraint of `CircuitGadget::generate_r1cs_constraints`, when the rings are valid
one after another on the trees the rings before them leave. The rings are chained as the source
chains them: ring `j + 1` reads both its roots from ring `j`'s `getNewTradingHistoryMerkleRoot()`,
so a later ring's accounts tree must have that trading-history root, which a compression that
keeps the two trees' top levels apart rules out: the batches left are those of one ring. -/

theorem val_lt_two_pow_256 (x : FieldT) : x.val < 2 ^ 256 :=
  (ZMod.val_lt x).trans (by norm_num [r])

theorem applyFills_append (slots : List Bool → FieldT) (fills fills' : List Fill) :
    applyFills slots (fills ++ fills') = applyFills (applyFills slots fills) fills' := by
  induction fills generalizing slots with
  | nil => rfl
  | cons f fills ih => exact ih (f.apply slots)

variable (P : Primitives)

/-- A batch the rings settle one after another: each ring valid on the trees the rings before it
left, and built, after the first, on the accounts root `ringAccountsMerkleRoot` gives it. -/
def BatchValid : (List Bool → FieldT) → (List Bool → Account) → List RingSettlement → Prop
  | _, _, [] => True
  | slots, accounts, rs :: rest => rs.Valid P slots accounts ∧
      ∃ accounts' : List Bool → Account,
        (rest ≠ [] → accountsRoot P accounts' = historyRoot P (applyFills slots rs.fills)) ∧
          BatchValid (applyFills slots rs.fills) accounts' rest

namespace CircuitGadget

theorem ringSettlements_injective (j : ℕ) : Function.Injective (Var.ringSettlements j) :=
  fun _ _ same => (Var.ringSettlements.inj same).2

theorem ringTradingHistoryMerkleRoot_ne {i j : ℕ} (le : i ≤ j) (u : RingVar) :
    ringTradingHistoryMerkleRoot i ≠ .ringSettlements j u := by
  cases i with
  | zero => exact nofun
  | succ i => exact fun same => by injection same; omega

/-- The rings from `i` on write their own variables and the root ring `i` is built on. -/
theorem targets_ringWitnesses : ∀ (i : ℕ) (data : List RingSettlement),
    ∀ x ∈ (ringWitnesses P i data).map Prod.fst,
      x = ringTradingHistoryMerkleRoot i ∨ ∃ j u, i ≤ j ∧ x = .ringSettlements j u
  | _, [] => fun _ mem => absurd mem (List.not_mem_nil _)
  | i, rs :: rest => fun x mem => by
    rw [ringWitnesses, List.map_append, List.mem_append] at mem
    rcases mem with mem | mem
    · rcases RingSettlementGadget.targets_generateR1csWitness P _ _ rs x mem with root | ⟨u, rfl⟩
      · exact .inl root
      · exact .inr ⟨i, u, le_rfl, rfl⟩
    · rcases targets_ringWitnesses (i + 1) rest x mem with root | ⟨j, u, le, rfl⟩
      · exact .inr ⟨i, _, le_rfl, root⟩
      · exact .inr ⟨j, u, by omega, rfl⟩

theorem run_ringWitnesses_outside (i : ℕ) (data : List RingSettlement) (σ : Assignment Var)
    {x : Var} (root : x ≠ ringTradingHistoryMerkleRoot i)
    (rings : ∀ j u, i ≤ j → x ≠ .ringSettlements j u) :
    run (ringWitnesses P i data) σ x = σ x :=
  run_outside _ _ _ fun mem => by
    rcases targets_ringWitnesses P i data x mem with same | ⟨j, u, le, same⟩
    · exact root same
    · exact rings j u le same

/-- The witness of the rings from `i` on, on a batch valid from `slots` and `accounts`. -/
theorem ringWitnesses_complete : ∀ (i : ℕ) (data : List RingSettlement)
    (slots : List Bool → FieldT) (accounts : List Bool → Account) (σ : Assignment Var),
    BatchValid P slots accounts data →
    (data ≠ [] → i = 0 → σ (.accountsMerkleRootBefore .packed) = accountsRoot P accounts) →
    (data ≠ [] → 0 < i → accountsRoot P accounts = historyRoot P slots) →
    (∀ j < data.length, RingSettlementGadget.Constraints P
        (run (ringWitnesses P i data) σ (ringTradingHistoryMerkleRoot (i + j)))
        (run (ringWitnesses P i data) σ (ringAccountsMerkleRoot (i + j)))
        (run (ringWitnesses P i data) σ ∘ .ringSettlements (i + j))) ∧
      (data ≠ [] → run (ringWitnesses P i data) σ (ringTradingHistoryMerkleRoot i) =
          historyRoot P slots ∧
        run (ringWitnesses P i data) σ
            (.ringSettlements (i + data.length - 1) RingSettlementGadget.getNewTradingHistoryMerkleRoot) =
          historyRoot P (applyFills slots (data.flatMap RingSettlement.fills)))
  | _, [], _, _, _, _, _, _ => ⟨fun _ h => absurd h (Nat.not_lt_zero _), fun h => absurd rfl h⟩
  | i, rs :: rest, slots, accounts, σ, ⟨valid, accounts', wired, validRest⟩, first, later => by
    have rootOutside : ringTradingHistoryMerkleRoot i ∉ Set.range (Var.ringSettlements i) :=
      fun ⟨u, same⟩ => ringTradingHistoryMerkleRoot_ne le_rfl u same.symm
    obtain ⟨σ₁, hσ₁⟩ := @exists_eq' _ (run (RingSettlementGadget.generateR1csWitness P
      (.ringSettlements i) (ringTradingHistoryMerkleRoot i) rs) σ)
    obtain ⟨ring, root, result, -⟩ := hσ₁ ▸ RingSettlementGadget.generateR1csWitness_spec P
      (ringSettlements_injective i) _ rootOutside rs slots accounts valid σ
    obtain ⟨restRings, restRoots⟩ := ringWitnesses_complete (i + 1) rest _ accounts' σ₁ validRest
      (fun _ h => absurd h (Nat.succ_ne_zero i)) (fun ne _ => wired ne)
    rw [ringWitnesses, run_append, hσ₁]
    set τ := run (ringWitnesses P (i + 1) rest) σ₁
    -- the rings after ring `i` leave its root, and of its variables rewrite only its new root, with
    -- the value it already has
    have keepRoot : τ (ringTradingHistoryMerkleRoot i) = historyRoot P slots :=
      (run_ringWitnesses_outside P _ rest σ₁ (ringTradingHistoryMerkleRoot_ne le_rfl _)
        fun j u le => ringTradingHistoryMerkleRoot_ne (by omega) u).trans root
    have own : τ ∘ .ringSettlements i = σ₁ ∘ .ringSettlements i := funext fun u => by
      by_cases new : u = RingSettlementGadget.getNewTradingHistoryMerkleRoot
      · subst new
        rcases eq_or_ne rest [] with rfl | ne
        · rfl
        · exact (restRoots ne).1.trans result.symm
      · exact run_ringWitnesses_outside P _ rest σ₁
          (fun same => new (Var.ringSettlements.inj same).2)
          fun j u' le same => by injection same; omega
    have accountsRead : τ (ringAccountsMerkleRoot i) = accountsRoot P accounts := by
      cases i with
      | zero =>
        have restKeeps :
            τ (.accountsMerkleRootBefore .packed) = σ₁ (.accountsMerkleRootBefore .packed) :=
          run_ringWitnesses_outside P _ rest σ₁ (fun same => by cases same) fun _ _ _ => nofun
        have ringKeeps :
            σ₁ (.accountsMerkleRootBefore .packed) = σ (.accountsMerkleRootBefore .packed) := by
          rw [← hσ₁]
          refine run_outside _ _ _ fun mem => ?_
          rcases RingSettlementGadget.targets_generateR1csWitness P _ _ rs _ mem with same | ⟨_, same⟩ <;>
            cases same
        exact restKeeps.trans (ringKeeps.trans (first (List.cons_ne_nil _ _) rfl))
      | succ i => exact keepRoot.trans (later (List.cons_ne_nil _ _) (Nat.succ_pos i)).symm
    refine ⟨fun j hj => ?_, fun _ => ⟨keepRoot, ?_⟩⟩
    · cases j with
      | zero => rwa [Nat.add_zero, keepRoot, accountsRead, own]
      | succ j =>
        have index : i + 1 + j = i + (j + 1) := by omega
        exact index ▸ restRings j (Nat.lt_of_succ_lt_succ hj)
    · rcases eq_or_ne rest [] with rfl | ne
      · simpa using result
      · have index : i + 1 + rest.length - 1 = i + (rs :: rest).length - 1 := by
          simp only [List.length_cons]; omega
        rw [List.flatMap_cons, applyFills_append, ← index]
        exact (restRoots ne).2

/-- The pass in its three parts: the roots, the rings, then the hasher and the remap. -/
theorem run_generateWitness (numRings : ℕ) (data : List RingSettlement) (a b c d : FieldT)
    (σ : Assignment Var) :
    ∃ ρ₄ : Assignment Var,
      (∀ v ∈ DualVar.vars 256, ρ₄ (.tradingHistoryMerkleRootBefore v) = DualVar.value a v) ∧
      (∀ v ∈ DualVar.vars 256, ρ₄ (.tradingHistoryMerkleRootAfter v) = DualVar.value b v) ∧
      (∀ v ∈ DualVar.vars 256, ρ₄ (.accountsMerkleRootBefore v) = DualVar.value c v) ∧
      ∃ tail : List (Write Var), (∀ x ∈ tail.map Prod.fst, ∃ w, x = .publicDataHash w) ∧
        run (generateWitness P numRings data a b c d) σ =
          run tail (run (hasherWitness P numRings) (run (ringWitnesses P 0 data) ρ₄)) := by
  have value (name : DualVar → Var) (inj : Function.Injective name) (x : FieldT) :=
    DualVariableGadget.run_value name inj (val_lt_two_pow_256 x)
  refine ⟨run (DualVariableGadget.generateR1csWitness .accountsMerkleRootAfter 256 d)
      (run (DualVariableGadget.generateR1csWitness .accountsMerkleRootBefore 256 c)
        (run (DualVariableGadget.generateR1csWitness .tradingHistoryMerkleRootAfter 256 b)
          (run (DualVariableGadget.generateR1csWitness .tradingHistoryMerkleRootBefore 256 a) σ))),
    fun v hv => ?_, fun v hv => ?_, fun v hv => ?_,
    (List.range 256).map (fun i => (Var.publicDataHash (.bits i), fun σ =>
      if (publicDataHashDec (getDigest σ)).testBit i then 1 else 0)) ++
        [DualVariableGadget.generateR1csWitnessFromBits .publicDataHash 256],
    fun x mem => ?_, by simp only [generateWitness, run_append]⟩
  -- each root's block is written once, and the blocks after it write elsewhere
  all_goals try simp (disch := simp) only [run_outside]
  · exact value _ (fun _ _ same => by injection same) a σ v hv
  · exact value _ (fun _ _ same => by injection same) b _ v hv
  · exact value _ (fun _ _ same => by injection same) c _ v hv
  · simp only [List.map_append, targets_range, List.mem_append, List.mem_map, List.mem_range,
      DualVariableGadget.generateR1csWitnessFromBits, List.map_cons, List.map_nil,
      List.mem_singleton] at mem
    rcases mem with ⟨i, -, rfl⟩ | rfl <;> exact ⟨_, rfl⟩

/-- `generateWitness` on a valid batch satisfies every constraint. -/
theorem generateWitness_complete_of_batchValid (rings : List RingSettlement) (nonempty : rings ≠ [])
    (slots : List Bool → FieldT) (accounts : List Bool → Account)
    (valid : BatchValid P slots accounts rings) (accountsMerkleRootAfterValue : FieldT)
    (σ : Assignment Var) :
    Constraints P rings.length (run (generateWitness P rings.length rings (historyRoot P slots)
      (historyRoot P (applyFills slots (rings.flatMap RingSettlement.fills)))
      (accountsRoot P accounts) accountsMerkleRootAfterValue) σ) := by
  obtain ⟨ρ₄, before, after, accountsBefore, tail, tailTargets, unfold⟩ :=
    run_generateWitness P rings.length rings (historyRoot P slots)
      (historyRoot P (applyFills slots (rings.flatMap RingSettlement.fills))) (accountsRoot P accounts)
      accountsMerkleRootAfterValue σ
  obtain ⟨hashDual, hasher, check⟩ := run_publicDataHash_constraints P rings.length
    (generateWitness P rings.length rings (historyRoot P slots)
      (historyRoot P (applyFills slots (rings.flatMap RingSettlement.fills)))
      (accountsRoot P accounts) accountsMerkleRootAfterValue) ⟨_, rfl⟩ σ
  obtain ⟨ringsHold, roots⟩ := ringWitnesses_complete P 0 rings slots accounts ρ₄ valid
    (fun _ _ => accountsBefore _ (DualVar.packed_mem_vars _)) (fun _ h => absurd h (lt_irrefl 0))
  obtain ⟨rootBefore, rootAfter⟩ := roots nonempty
  have keepRings : ∀ x, x ≠ ringTradingHistoryMerkleRoot 0 → (∀ j u, x ≠ .ringSettlements j u) →
      run (ringWitnesses P 0 rings) ρ₄ x = ρ₄ x := fun x root others =>
    run_ringWitnesses_outside P 0 rings ρ₄ root fun j u _ => others j u
  obtain ⟨ρ, hρ⟩ := @exists_eq' _ (run (ringWitnesses P 0 rings) ρ₄)
  rw [hρ] at ringsHold rootBefore rootAfter keepRings unfold
  rw [Nat.zero_add] at rootAfter
  simp only [Nat.zero_add] at ringsHold
  obtain ⟨τ, hτ⟩ := @exists_eq' _ (run tail (run (hasherWitness P rings.length) ρ))
  rw [unfold, hτ] at hashDual hasher check ⊢
  -- the hasher and the remap write only their own variables: none of the roots' or the rings'
  have keep : ∀ x, (∀ i, x ≠ .publicDataHasher i) → (∀ w, x ≠ .publicDataHash w) → τ x = ρ x :=
    fun x hasher hash => by
      rw [← hτ, run_outside _ _ _ fun mem => (tailTargets x mem).elim hash,
        run_outside (hasherWitness P _) _ _ fun mem =>
          (mem_range_writes mem).elim fun i h => hasher i h.2]
  have keepBefore (v : DualVar) :
      τ (.tradingHistoryMerkleRootBefore v) = ρ (.tradingHistoryMerkleRootBefore v) :=
    keep _ (fun _ => nofun) (fun _ => nofun)
  have keepRing (j : ℕ) (u : RingVar) : τ (.ringSettlements j u) = ρ (.ringSettlements j u) :=
    keep _ (fun _ => nofun) (fun _ => nofun)
  refine ⟨DualVariableGadget.Constraints.of_values (val_lt_two_pow_256 (historyRoot P slots))
    fun v hv => ?_, hashDual, fun j hj => ?_, hasher, check, ?_⟩
  · -- the root before, as the rings leave it
    rw [Function.comp_apply, keepBefore]
    cases v with
    | bits i =>
      rw [keepRings _ (fun same => by cases same) (fun _ _ same => by cases same), before _ hv]
    | packed => exact rootBefore
  · -- each ring, on the roots and the variables the rings leave
    have roots : τ (ringTradingHistoryMerkleRoot j) = ρ (ringTradingHistoryMerkleRoot j) ∧
        τ (ringAccountsMerkleRoot j) = ρ (ringAccountsMerkleRoot j) := by
      cases j
      exacts [⟨keepBefore _, keep _ (fun _ => nofun) (fun _ => nofun)⟩, ⟨keepRing _ _, keepRing _ _⟩]
    rw [roots.1, roots.2, show τ ∘ .ringSettlements j = ρ ∘ .ringSettlements j from
      funext (keepRing j)]
    exact ringsHold j hj
  · -- the last ring's new root, which the rings leave, and the trading-history root after
    rw [mul_one, keepRing, keep _ (fun _ h => by cases h) (fun _ h => by cases h), rootAfter,
      keepRings _ (fun same => by cases same) (fun _ _ same => by cases same),
      after _ (DualVar.packed_mem_vars _)]
    rfl

/-- Completeness of `generateWitness` on one valid ring. -/
theorem generateWitness_complete (rs : RingSettlement) (slots : List Bool → FieldT)
    (accounts : List Bool → Account) (valid : rs.Valid P slots accounts)
    (accountsMerkleRootAfterValue : FieldT) (σ : Assignment Var) :
    Constraints P 1 (run (generateWitness P 1 [rs] (historyRoot P slots)
      (historyRoot P (applyFills slots rs.fills)) (accountsRoot P accounts)
      accountsMerkleRootAfterValue) σ) := by
  have batch := generateWitness_complete_of_batchValid P [rs] (List.cons_ne_nil _ _) slots accounts
    ⟨valid, accounts, fun last => absurd rfl last, trivial⟩ accountsMerkleRootAfterValue σ
  rwa [List.flatMap_singleton] at batch

end CircuitGadget

theorem generateWitness_complete_on_shared_ring :
    CircuitGadget.Constraints Primitives.zero 1 (run (CircuitGadget.generateWitness Primitives.zero 1
      [sharedRingProved] (historyRoot Primitives.zero fun _ => 0)
      (historyRoot Primitives.zero (applyFills (fun _ => 0) sharedRingProved.fills))
      (accountsRoot Primitives.zero fun _ => Account.ofBalance 10) 0) fun _ => 0) :=
  CircuitGadget.generateWitness_complete Primitives.zero sharedRingProved _ _ sharedRingProved_valid
    0 _

end Loopring
