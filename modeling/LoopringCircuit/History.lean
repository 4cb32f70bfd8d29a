import LoopringCircuit.Update
import LoopringCircuit.Circuit

set_option autoImplicit false

namespace Loopring

/-! The trading-history tree: one slot per `orderID ∥ accountS`, holding the amount of the order
filled so far. Every ring fills its two orders, each adding its `fillS` to its slot, and the
circuit chains the fills of all its rings from the root before to the root after. -/

/-- The message a trading-history leaf hashes: the filled amount, twice (`H(filled, filled)`). -/
def filledMessage (filled : FieldT) : List FieldT := [filled, filled]

/-- One order's fill: its slot, the `fillS` it adds there, and the `amountS` that caps it. -/
structure Fill where
  slot : List Bool
  fill : FieldT
  amountS : FieldT

namespace Fill

variable (f : Fill) (slots : List Bool → FieldT)

/-- The tree after the fill: its slot grows by `fillS`, and nothing else changes. -/
def apply : List Bool → FieldT :=
  Function.update slots f.slot (slots f.slot + f.fill)

/-- When a fill applies: the sum does not wrap, and the value written is at most `amountS`. -/
structure Valid : Prop where
  noWrap : (slots f.slot + f.fill).val = (slots f.slot).val + f.fill.val
  cap : (slots f.slot + f.fill).val ≤ f.amountS.val

end Fill

/-- A fill as a change of the trading-history tree. -/
def Fill.change (f : Fill) : TreeChange FieldT := ⟨f.Valid, f.apply⟩

@[simp] theorem Fill.change_apply (f : Fill) : f.change.apply = f.apply := rfl

@[simp] theorem Fill.change_valid (f : Fill) : f.change.Valid = f.Valid := rfl

/-- The tree after a sequence of fills, each made to the tree the previous one left. -/
def applyFills (slots : List Bool → FieldT) (fills : List Fill) : List Bool → FieldT :=
  applyChanges slots (fills.map Fill.change)

/-- Every fill of a sequence applies to the tree the previous one left. -/
def FillsValid (slots : List Bool → FieldT) (fills : List Fill) : Prop :=
  ChangesValid slots (fills.map Fill.change)

/-- Every filled amount of the tree has 96 bits. -/
def SlotsSmall (slots : List Bool → FieldT) : Prop := ∀ a, (slots a).val < 2 ^ 96

variable (P : Primitives)

/-- The root of a trading-history tree. -/
def historyRoot (slots : List Bool → FieldT) : FieldT :=
  merkleRoot P 0 TREE_DEPTH_FILLED (leafHashes P filledMessage slots)

/-- Collision-freeness where a sequence of fills needs it. -/
def FillsCollisionFree (slots : List Bool → FieldT) (fills : List Fill)
    (reads : List (List FieldT × List (Bool × FieldT))) : Prop :=
  ChangesCollisionFree P filledMessage slots (fills.map Fill.change) reads

/-- One trading-history update of the circuit performs its fill. -/
theorem Fill.performs {root fill amountS : FieldT} {address : List FieldT}
    {τ : UpdateFilledVar → FieldT} {leq : LeqVar → FieldT}
    (h : UpdateFilledGadget.Constraints P root address fill τ)
    (boolean : ∀ x ∈ address, IsBoolean x) (width : address.length = TREE_DEPTH_FILLED)
    (cap : LeqGadget.Constraints (τ .filledAfter) amountS leq)
    (fillSmall : fill.val < 2 ^ 96) (amountSmall : amountS.val < 2 ^ 96) :
    Performs P filledMessage TREE_DEPTH_FILLED SlotsSmall
      (⟨address.map toBit, fill, amountS⟩ : Fill).change
      (filledMessage (τ .filledBefore),
        toPath (MerkleUpdateVar.levels (fun v => τ (.update v)) address))
      root (τ UpdateFilledVar.result) := by
  intro t committed small free
  obtain ⟨read, result⟩ := h.update.read P filledMessage boolean t (τ .filledAfter) rfl
    (width ▸ committed) free
  have before : τ .filledBefore = t (address.map toBit) := by
    simpa [filledMessage] using read
  have after : τ .filledAfter = t (address.map toBit) + fill := by
    rw [← h.filled, mul_one, before]
  have noWrap : (t (address.map toBit) + fill).val = (t (address.map toBit)).val + fill.val := by
    refine ZMod.val_add_of_lt ?_
    have := small (address.map toBit)
    have := two_pow_253_lt_r
    have : (2 : ℕ) ^ 96 < 2 ^ 252 := by norm_num
    omega
  have capped : (t (address.map toBit) + fill).val ≤ amountS.val := by
    have := small (address.map toBit)
    rw [← after]
    exact cap.le (by rw [after, noWrap]; omega) (by omega)
  refine ⟨⟨noWrap, capped⟩, ?_, fun a => ?_⟩
  · have var := MerkleUpdate.result_eq_var (fun v => τ (.update v))
      (by rw [← List.length_pos, width]; decide : address ≠ [])
    rw [width] at var result
    rw [after] at result
    exact var.symm.trans result
  · by_cases same : a = address.map toBit
    · subst same
      simp only [Fill.change_apply, Fill.apply, Function.update_same]
      omega
    · simpa [Fill.apply, Function.update_noteq same] using small a

namespace RingSettlementGadget

variable (τ : RingVar → FieldT)

/-- The fill of one order of a ring: its slot `orderID ∥ accountS`, its `fillS` and `amountS`. -/
def fill (order : OrderVar → RingVar) (fillS : DualVar → RingVar) : Fill :=
  ⟨(RingVar.filledAddress τ order).map toBit, τ (fillS .packed), τ (order (.amountS .packed))⟩

/-- The two fills of a ring, `A`'s then `B`'s. -/
def fills : List Fill := [fill τ .orderA .fillS_A, fill τ .orderB .fillS_B]

/-- What one trading-history update of the ring reads: its before-leaf's message, and its
path. -/
def historyRead (update : UpdateFilledVar → RingVar) (order : OrderVar → RingVar) :
    List FieldT × List (Bool × FieldT) :=
  (filledMessage (τ (update .filledBefore)),
    toPath (MerkleUpdateVar.levels (fun v => τ (update (.update v))) (RingVar.filledAddress τ order)))

/-- What the two trading-history updates of a ring read. -/
def historyReads : List (List FieldT × List (Bool × FieldT)) :=
  [historyRead τ .updateFilledA .orderA, historyRead τ .updateFilledB .orderB]

/-- The two trading-history updates of a ring: the fill each makes, what it reads, the root it
leaves. -/
def historySteps : List (TreeChange FieldT × (List FieldT × List (Bool × FieldT)) × FieldT) :=
  ((fills τ).map Fill.change).zip ((historyReads τ).zip
    [τ (.updateFilledA UpdateFilledVar.result), τ (.updateFilledB UpdateFilledVar.result)])

end RingSettlementGadget

theorem RingVar.length_filledAddress (τ : RingVar → FieldT) (order : OrderVar → RingVar) :
    (RingVar.filledAddress τ order).length = TREE_DEPTH_FILLED := by
  simp [RingVar.filledAddress, flatten, TREE_DEPTH_FILLED]

theorem RingVar.boolean_filledAddress {τ : RingVar → FieldT} {order : OrderVar → RingVar}
    (h : OrderGadget.Constraints P fun v => τ (order v)) :
    ∀ x ∈ RingVar.filledAddress τ order, IsBoolean x := by
  intro x mem
  simp only [RingVar.filledAddress, flatten, List.flatten, List.mem_append, List.append_nil] at mem
  rcases mem with mem | mem
  · exact h.orderID.boolean_bitsOf x mem
  · exact h.accountS.boolean_bitsOf x mem

/-- The ring's two trading-history updates perform its two fills. -/
theorem RingSettlementGadget.Constraints.historyPerforms
    {tradingHistoryMerkleRoot accountsMerkleRoot : FieldT} {τ : RingVar → FieldT}
    (h : RingSettlementGadget.Constraints P tradingHistoryMerkleRoot accountsMerkleRoot τ) :
    PerformsAll P filledMessage TREE_DEPTH_FILLED SlotsSmall tradingHistoryMerkleRoot
      (RingSettlementGadget.historySteps τ)
      (τ RingSettlementGadget.getNewTradingHistoryMerkleRoot) :=
  ⟨Fill.performs P h.updateFilledA (RingVar.boolean_filledAddress P h.orderA)
      (RingVar.length_filledAddress τ _) h.filledLeqA (h.fillS_A.val_packed_lt (by norm_num))
      (h.orderA.amountS.val_packed_lt (by norm_num)),
    Fill.performs P h.updateFilledB (RingVar.boolean_filledAddress P h.orderB)
      (RingVar.length_filledAddress τ _) h.filledLeqB (h.fillS_B.val_packed_lt (by norm_num))
      (h.orderB.amountS.val_packed_lt (by norm_num)),
    rfl⟩

namespace CircuitGadget

variable (τ : Var → FieldT)

/-- The fills of the first `numRings` rings, in order: ring `0`'s `A` and `B`, ring `1`'s, … -/
def fills (numRings : ℕ) : List Fill :=
  (List.range numRings).flatMap fun j => RingSettlementGadget.fills (τ ∘ .ringSettlements j)

/-- What the trading-history updates of the first `numRings` rings read. -/
def historyReads (numRings : ℕ) : List (List FieldT × List (Bool × FieldT)) :=
  (List.range numRings).flatMap fun j => RingSettlementGadget.historyReads (τ ∘ .ringSettlements j)

/-- The trading-history updates of the first `numRings` rings. -/
def historySteps (numRings : ℕ) :
    List (TreeChange FieldT × (List FieldT × List (Bool × FieldT)) × FieldT) :=
  (List.range numRings).flatMap fun j => RingSettlementGadget.historySteps (τ ∘ .ringSettlements j)

theorem historySteps_changes (numRings : ℕ) :
    (historySteps τ numRings).map Prod.fst = (fills τ numRings).map Fill.change := by
  simp only [historySteps, fills, List.map_flatMap]
  rfl

theorem historySteps_reads (numRings : ℕ) :
    (historySteps τ numRings).map (fun s => s.2.1) = historyReads τ numRings := by
  simp only [historySteps, historyReads, List.map_flatMap]
  rfl

end CircuitGadget

/-- The updates of the first `n` rings perform their fills in order. -/
theorem CircuitGadget.Constraints.historyChain {numRings : ℕ} {τ : Var → FieldT}
    (h : CircuitGadget.Constraints P numRings τ) :
    ∀ n ≤ numRings, PerformsAll P filledMessage TREE_DEPTH_FILLED SlotsSmall
      (τ (.tradingHistoryMerkleRootBefore .packed)) (CircuitGadget.historySteps τ n)
      (τ (CircuitGadget.ringTradingHistoryMerkleRoot n))
  | 0, _ => rfl
  | n + 1, within => by
    rw [CircuitGadget.historySteps, List.range_succ, List.flatMap_append, List.flatMap_singleton]
    exact PerformsAll.append P _ _ _ _ (CircuitGadget.Constraints.historyChain h n (by omega))
      (h.ringSettlements n within).historyPerforms

end Loopring
