import LoopringCircuit.Settlement
import LoopringCircuit.PublicData

set_option autoImplicit false

namespace Loopring

/-! What a batch of rings settles and publishes: the trading-history transition from the root
before to the root after, how the two trees' roots are threaded through the rings, and what of
them the public data binds. -/

/-- The ring of two orders of amounts zero, with every fill and balance zero. -/
def zeroRing : RingSettlement :=
  ⟨⟨Order.ofAmounts 0 0 0, Order.ofAmounts 0 0 0, 0, 0, 0, 0, 0, 0⟩, 0, 0, 0, ⟨[]⟩, ⟨[]⟩,
    Account.ofBalance 0, Account.ofBalance 0, Account.ofBalance 0, Account.ofBalance 0,
    Account.ofBalance 0, Account.ofBalance 0, ⟨[]⟩, ⟨[]⟩, ⟨[]⟩, ⟨[]⟩, ⟨[]⟩, ⟨[]⟩⟩

theorem zeroRing_circuit (free : Var → FieldT) :
    CircuitGadget.Constraints Primitives.zero 1 (CircuitGadget.trivialAssignment zeroRing free) := by
  refine CircuitGadget.constraints_trivialAssignment zeroRing ⟨⟨?_, ?_, ?_, ?_, ?_, ?_, ?_, ?_⟩,
    ⟨?_, ?_, ?_, ?_, ?_, ?_, ?_, ?_⟩, ?_, ?_, ?_, ?_, ?_, ?_⟩ ⟨?_, ?_, ?_, ?_, ?_, ?_, ?_, ?_⟩
    ⟨?_, ?_, ?_, ?_, ?_, ?_, ?_, ?_⟩ free <;> decide

theorem historyRoot_zero (slots : List Bool → FieldT) : historyRoot Primitives.zero slots = 0 :=
  merkleRoot_zero _ 0 27

/-! The trading history of a batch. -/

section History

variable (P : Primitives)

/-- `tradingHistoryMerkleRootAfter.packed` is the root the last ring leaves. -/
theorem CircuitGadget.Constraints.after_eq {numRings : ℕ} {τ : Var → FieldT}
    (h : CircuitGadget.Constraints P numRings τ) (nonempty : 1 ≤ numRings) :
    τ (.tradingHistoryMerkleRootAfter .packed) =
      τ (CircuitGadget.ringTradingHistoryMerkleRoot numRings) := by
  obtain ⟨n, rfl⟩ : ∃ n, numRings = n + 1 := ⟨numRings - 1, by omega⟩
  exact (mul_one _).symm.trans h.newMerkleRoot |>.symm

/-- The cumulative fill cap of a batch: every fill applies, in order, to the tree before. -/
theorem batch_fills_capped {numRings : ℕ} {τ : Var → FieldT}
    (h : CircuitGadget.Constraints P numRings τ) (nonempty : 1 ≤ numRings)
    (slots : List Bool → FieldT)
    (committed : τ (.tradingHistoryMerkleRootBefore .packed) = historyRoot P slots)
    (small : SlotsSmall slots)
    (free : FillsCollisionFree P slots (CircuitGadget.fills τ numRings)
      (CircuitGadget.historyReads τ numRings)) :
    FillsValid slots (CircuitGadget.fills τ numRings) ∧
      τ (.tradingHistoryMerkleRootAfter .packed) =
        historyRoot P (applyFills slots (CircuitGadget.fills τ numRings)) := by
  rw [FillsCollisionFree, ← CircuitGadget.historySteps_changes,
    ← CircuitGadget.historySteps_reads] at free
  obtain ⟨valid, root, -⟩ := PerformsAll.run P _ _ _ _ slots
    (CircuitGadget.Constraints.historyChain P h numRings le_rfl) committed small free
  rw [CircuitGadget.historySteps_changes] at valid root
  exact ⟨valid, (CircuitGadget.Constraints.after_eq P h nonempty).trans root⟩

theorem batch_fills_capped_on_shared_slot :
    FillsValid (fun _ => 0)
        (CircuitGadget.fills (CircuitGadget.trivialAssignment sharedRing fun _ => 0) 1) ∧
      CircuitGadget.trivialAssignment sharedRing (fun _ => 0) (.tradingHistoryMerkleRootAfter .packed) =
        historyRoot Primitives.zero (applyFills (fun _ => 0)
          (CircuitGadget.fills (CircuitGadget.trivialAssignment sharedRing fun _ => 0) 1)) :=
  batch_fills_capped Primitives.zero (sharedRing_circuit fun _ => 0) le_rfl (fun _ => 0)
    (historyRoot_zero _).symm (fun _ => show (0 : FieldT).val < 2 ^ 96 by decide)
    ⟨⟨fun _ => by decide, collisionFreeAlong_zero _ _ (toPath_levels_zero _)⟩,
      ⟨fun _ => by decide, collisionFreeAlong_zero _ _ (toPath_levels_zero _)⟩, trivial⟩

end History

/-! What the public data binds: the root before, whose block heads the hashed stream, and the ring
records; not the bits of the root after, which no constraint ties to its packed value. -/

section PublicData

variable (P : Primitives)

/-- The public data's first block is the trading-history root before. -/
theorem publicData_binds_trading_history {numRings : ℕ} {τ : Var → FieldT}
    (h : CircuitGadget.Constraints P numRings τ) (nonempty : 1 ≤ numRings) :
    ((bitsValue (((CircuitGadget.publicData numRings).map τ).take 256).reverse : ℕ) : FieldT) =
        τ (CircuitGadget.ringTradingHistoryMerkleRoot 0) ∧
      (∀ τ' : Var → FieldT, CircuitGadget.Constraints P numRings τ' →
        (CircuitGadget.publicData numRings).map τ' = (CircuitGadget.publicData numRings).map τ →
          τ' (.tradingHistoryMerkleRootBefore .packed) =
            τ (.tradingHistoryMerkleRootBefore .packed)) ∧
      τ (.tradingHistoryMerkleRootAfter .packed) =
        τ (.ringSettlements (numRings - 1) RingSettlementGadget.getNewTradingHistoryMerkleRoot) := by
  have block {τ : Var → FieldT} (h : CircuitGadget.Constraints P numRings τ) :
      ((bitsValue (((CircuitGadget.publicData numRings).map τ).take 256).reverse : ℕ) : FieldT) =
        τ (.tradingHistoryMerkleRootBefore .packed) := by
    rw [(CircuitGadget.publicData_blocks numRings τ).1, cast_bitsValue]
    exact h.tradingHistoryMerkleRootBefore.packing.symm
  obtain ⟨n, rfl⟩ : ∃ n, numRings = n + 1 := ⟨numRings - 1, by omega⟩
  refine ⟨block h, fun τ' h' same => ?_, CircuitGadget.Constraints.after_eq P h nonempty⟩
  rw [← block h', same, block h]

theorem publicData_binds_trading_history_on_shared_ring :
    ((bitsValue (((CircuitGadget.publicData 1).map
        (CircuitGadget.trivialAssignment sharedRing fun _ => 0)).take 256).reverse : ℕ) : FieldT) =
        CircuitGadget.trivialAssignment sharedRing (fun _ => 0)
          (CircuitGadget.ringTradingHistoryMerkleRoot 0) ∧
      (∀ τ' : Var → FieldT, CircuitGadget.Constraints Primitives.zero 1 τ' →
        (CircuitGadget.publicData 1).map τ' =
            (CircuitGadget.publicData 1).map (CircuitGadget.trivialAssignment sharedRing fun _ => 0) →
          τ' (.tradingHistoryMerkleRootBefore .packed) =
            CircuitGadget.trivialAssignment sharedRing (fun _ => 0)
              (.tradingHistoryMerkleRootBefore .packed)) ∧
      CircuitGadget.trivialAssignment sharedRing (fun _ => 0) (.tradingHistoryMerkleRootAfter .packed) =
        CircuitGadget.trivialAssignment sharedRing (fun _ => 0)
          (.ringSettlements (1 - 1) RingSettlementGadget.getNewTradingHistoryMerkleRoot) :=
  publicData_binds_trading_history Primitives.zero (sharedRing_circuit _) le_rfl

/-- Wires no constraint reads holding `1` in the bits of `tradingHistoryMerkleRootAfter`. -/
def afterBitsOne : Var → FieldT
  | .tradingHistoryMerkleRootAfter v => DualVar.value 1 v
  | _ => 0

/-- The public data's second block is not bound to the root the last ring leaves. -/
theorem publicData_after_block_unbound :
    ¬ ∀ (P : Primitives) (numRings : ℕ) (τ : Var → FieldT), 1 ≤ numRings →
      CircuitGadget.Constraints P numRings τ →
        ((bitsValue ((((CircuitGadget.publicData numRings).map τ).drop 256).take 256).reverse :
          ℕ) : FieldT) =
          τ (.ringSettlements (numRings - 1) RingSettlementGadget.getNewTradingHistoryMerkleRoot) :=
  fun afterBound => by
  have block := afterBound Primitives.zero 1 (CircuitGadget.trivialAssignment zeroRing afterBitsOne)
    le_rfl (zeroRing_circuit _)
  have bits : DualVar.bitsOf (CircuitGadget.trivialAssignment zeroRing afterBitsOne ∘
      .tradingHistoryMerkleRootAfter) 256 = (List.range 256).map (bitOf (1 : FieldT).val) := rfl
  rw [(CircuitGadget.publicData_blocks 1 _).2, bits, bitsValue_bitOf, ZMod.val_one] at block
  exact absurd block (by decide)

/-- The ring records of the public data hold the values the assignment packs. -/
theorem publicData_records {numRings : ℕ} {τ : Var → FieldT}
    (h : CircuitGadget.Constraints P numRings τ) :
    (CircuitGadget.publicData numRings).length = 512 + 568 * numRings ∧
      ∀ j < numRings,
        readFields [16, 4, 24, 24, 96, 24, 96]
            ((((CircuitGadget.publicData numRings).map τ).drop (512 + 568 * j)).take 284) =
          [(τ (.ringSettlements j (.orderA (.dexID .packed)))).val,
            (τ (.ringSettlements j (.orderA (.orderID .packed)))).val,
            (τ (.ringSettlements j (.orderA (.accountS .packed)))).val,
            (τ (.ringSettlements j (.orderB (.accountB .packed)))).val,
            (τ (.ringSettlements j (.fillS_A .packed))).val,
            (τ (.ringSettlements j (.orderA (.accountF .packed)))).val,
            (τ (.ringSettlements j (.fillF_A .packed))).val] ∧
        readFields [16, 4, 24, 24, 96, 24, 96]
            ((((CircuitGadget.publicData numRings).map τ).drop (512 + 568 * j + 284)).take 284) =
          [(τ (.ringSettlements j (.orderB (.dexID .packed)))).val,
            (τ (.ringSettlements j (.orderB (.orderID .packed)))).val,
            (τ (.ringSettlements j (.orderB (.accountS .packed)))).val,
            (τ (.ringSettlements j (.orderA (.accountB .packed)))).val,
            (τ (.ringSettlements j (.fillS_B .packed))).val,
            (τ (.ringSettlements j (.orderB (.accountF .packed)))).val,
            (τ (.ringSettlements j (.fillF_B .packed))).val] := by
  refine ⟨CircuitGadget.length_publicData numRings, fun j hj => ?_⟩
  obtain ⟨rest, drop⟩ := CircuitGadget.publicData_drop_ring hj τ
  have widths : (RingSettlementGadget.getPublicData (τ ∘ .ringSettlements j)).map List.length =
      [16, 4, 24, 24, 96, 24, 96] ++ [16, 4, 24, 24, 96, 24, 96] := by
    simp [RingSettlementGadget.getPublicData]
  have total : [16, 4, 24, 24, 96, 24, 96].sum = 284 := rfl
  have records := readFields_flatten_reverse
    (RingSettlementGadget.getPublicData (τ ∘ .ringSettlements j)) rest
  rw [RingSettlementGadget.Constraints.bitsValue_getPublicData P (h.ringSettlements j hj), widths,
    readFields_append, ← drop, List.drop_drop, total] at records
  rw [readFields_take _ _ total, readFields_take _ _ total]
  exact List.append_inj records (length_readFields _ _)

theorem publicData_records_on_shared_ring :
    (CircuitGadget.publicData 1).length = 512 + 568 * 1 ∧
      ∀ j < 1,
        readFields [16, 4, 24, 24, 96, 24, 96]
            ((((CircuitGadget.publicData 1).map (CircuitGadget.trivialAssignment sharedRing
              fun _ => 0)).drop (512 + 568 * j)).take 284) =
          [(CircuitGadget.trivialAssignment sharedRing (fun _ => 0)
              (.ringSettlements j (.orderA (.dexID .packed)))).val,
            (CircuitGadget.trivialAssignment sharedRing (fun _ => 0)
              (.ringSettlements j (.orderA (.orderID .packed)))).val,
            (CircuitGadget.trivialAssignment sharedRing (fun _ => 0)
              (.ringSettlements j (.orderA (.accountS .packed)))).val,
            (CircuitGadget.trivialAssignment sharedRing (fun _ => 0)
              (.ringSettlements j (.orderB (.accountB .packed)))).val,
            (CircuitGadget.trivialAssignment sharedRing (fun _ => 0)
              (.ringSettlements j (.fillS_A .packed))).val,
            (CircuitGadget.trivialAssignment sharedRing (fun _ => 0)
              (.ringSettlements j (.orderA (.accountF .packed)))).val,
            (CircuitGadget.trivialAssignment sharedRing (fun _ => 0)
              (.ringSettlements j (.fillF_A .packed))).val] ∧
        readFields [16, 4, 24, 24, 96, 24, 96]
            ((((CircuitGadget.publicData 1).map (CircuitGadget.trivialAssignment sharedRing
              fun _ => 0)).drop (512 + 568 * j + 284)).take 284) =
          [(CircuitGadget.trivialAssignment sharedRing (fun _ => 0)
              (.ringSettlements j (.orderB (.dexID .packed)))).val,
            (CircuitGadget.trivialAssignment sharedRing (fun _ => 0)
              (.ringSettlements j (.orderB (.orderID .packed)))).val,
            (CircuitGadget.trivialAssignment sharedRing (fun _ => 0)
              (.ringSettlements j (.orderB (.accountS .packed)))).val,
            (CircuitGadget.trivialAssignment sharedRing (fun _ => 0)
              (.ringSettlements j (.orderA (.accountB .packed)))).val,
            (CircuitGadget.trivialAssignment sharedRing (fun _ => 0)
              (.ringSettlements j (.fillS_B .packed))).val,
            (CircuitGadget.trivialAssignment sharedRing (fun _ => 0)
              (.ringSettlements j (.orderB (.accountF .packed)))).val,
            (CircuitGadget.trivialAssignment sharedRing (fun _ => 0)
              (.ringSettlements j (.fillF_B .packed))).val] :=
  publicData_records Primitives.zero (sharedRing_circuit _)

/-- The public input commits to the public data through its SHA-256 digest. -/
theorem publicDataHash_commits {numRings : ℕ} {τ : Var → FieldT}
    (h : CircuitGadget.Constraints P numRings τ) :
    τ (.publicDataHash .packed) = (CircuitGadget.publicDataHashDec ((List.range 256).map fun i =>
      (P.sha256 ((CircuitGadget.publicData numRings).map τ)).getD i false) : FieldT) := by
  obtain ⟨digest, hdigest⟩ := @exists_eq' _ ((List.range 256).map fun i =>
    (P.sha256 ((CircuitGadget.publicData numRings).map τ)).getD i false)
  have length : digest.length = 256 := by simp [← hdigest]
  have value : CircuitGadget.publicDataHashDec digest < 2 ^ 256 :=
    length ▸ CircuitGadget.publicDataHashDec_lt digest
  -- the remap puts the digest's bit `255 - i` on `publicDataHash.bits[i]`
  have bit : ∀ i < 256, τ (.publicDataHash (.bits i)) =
      bitOf (CircuitGadget.publicDataHashDec digest) i := fun i hi => by
    rw [← h.check i hi, mul_one, h.publicDataHasher _ (by omega), bitOf,
      CircuitGadget.testBit_publicDataHashDec length hi, ← hdigest]
    simp [show 255 - i < 256 by omega]
  rw [hdigest]
  refine h.publicDataHash.packing.trans ?_
  simp only [DualVar.bitsOf, Function.comp_apply]
  rw [List.map_congr_left fun i hi => bit i (List.mem_range.mp hi), ← cast_bitsValue,
    bitsValue_bitOf, Nat.mod_eq_of_lt value]

theorem publicDataHash_commits_on_shared_ring :
    CircuitGadget.Constraints Primitives.zero 1 (CircuitGadget.trivialAssignment sharedRing fun _ => 0) ∧
      CircuitGadget.trivialAssignment sharedRing (fun _ => 0) (.publicDataHash .packed) =
        (CircuitGadget.publicDataHashDec ((List.range 256).map fun i =>
          (Primitives.zero.sha256 ((CircuitGadget.publicData 1).map
            (CircuitGadget.trivialAssignment sharedRing fun _ => 0))).getD i false) : FieldT) :=
  ⟨sharedRing_circuit _, publicDataHash_commits Primitives.zero (sharedRing_circuit _)⟩

end PublicData

/-! The accounts roots. Ring `0` is built on `accountsMerkleRootBefore.packed`, but every later
ring on the previous ring's `getNewTradingHistoryMerkleRoot()`, and no constraint ties the last
ring's accounts root to `accountsMerkleRootAfter.packed`. -/

/-- `accountsMerkleRootAfter.packed` is not bound to the root the last update leaves. -/
theorem accountsMerkleRootAfter_unbound :
    CircuitGadget.Constraints Primitives.zero 1
        (CircuitGadget.trivialAssignment zeroRing fun _ => 1) ∧
      CircuitGadget.trivialAssignment zeroRing (fun _ => 1) (.accountsMerkleRootAfter .packed) ≠
        CircuitGadget.trivialAssignment zeroRing (fun _ => 1)
          (.ringSettlements 0 (.updateBalanceF_B UpdateBalanceVar.result)) :=
  ⟨zeroRing_circuit _, by decide⟩

end Loopring
