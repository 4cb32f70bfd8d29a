import LoopringCircuit.Gadgets

set_option autoImplicit false

namespace Loopring

/-! `RingSettlementGadget`: two orders, six fills, the two trading-history updates and the six
balance updates of one ring, and the checks between them. -/

/-- Modelled from the spec: `Data.h`'s `Ring` (not in the repository): two orders and six fills. -/
structure Ring where
  orderA : Order
  orderB : Order
  fillS_A : FieldT
  fillB_A : FieldT
  fillF_A : FieldT
  fillS_B : FieldT
  fillB_B : FieldT
  fillF_B : FieldT

/-- Modelled from the spec: `Data.h`'s `Account` (not in the repository), a leaf of the accounts
tree `H(publicKey.x, publicKey.y, token, balance)`; the witness reads its balance. -/
structure Account where
  publicKeyX : FieldT
  publicKeyY : FieldT
  token : FieldT
  balance : FieldT

/-- Modelled from the spec: `Data.h`'s `RingSettlement` (not in the repository): the ring, the
trading-history root and filled amounts with their proofs, and the six accounts before with
their proofs. -/
structure RingSettlement where
  ring : Ring
  tradingHistoryMerkleRoot : FieldT
  filledA : FieldT
  filledB : FieldT
  proofFilledA : Proof
  proofFilledB : Proof
  accountS_A_before : Account
  accountB_A_before : Account
  accountF_A_before : Account
  accountS_B_before : Account
  accountB_B_before : Account
  accountF_B_before : Account
  accountS_A_proof : Proof
  accountB_A_proof : Proof
  accountF_A_proof : Proof
  accountS_B_proof : Proof
  accountB_B_proof : Proof
  accountF_B_proof : Proof

/-- The variables a `RingSettlementGadget` allocates, member by member. -/
inductive RingVar
  | orderA (v : OrderVar)
  | orderB (v : OrderVar)
  | fillS_A (v : DualVar)
  | fillB_A (v : DualVar)
  | fillF_A (v : DualVar)
  | fillS_B (v : DualVar)
  | fillB_B (v : DualVar)
  | fillF_B (v : DualVar)
  | balanceS_A_before
  | balanceB_A_before
  | balanceF_A_before
  | balanceF_W_A_before
  | balanceS_B_before
  | balanceB_B_before
  | balanceF_B_before
  | balanceF_W_B_before
  | balanceSB_A (v : SubaddVar)
  | balanceSB_B (v : SubaddVar)
  | balanceF_A (v : SubaddVar)
  | balanceF_B (v : SubaddVar)
  | updateFilledA (v : UpdateFilledVar)
  | updateFilledB (v : UpdateFilledVar)
  | updateBalanceS_A (v : UpdateBalanceVar)
  | updateBalanceB_A (v : UpdateBalanceVar)
  | updateBalanceF_A (v : UpdateBalanceVar)
  | updateBalanceS_B (v : UpdateBalanceVar)
  | updateBalanceB_B (v : UpdateBalanceVar)
  | updateBalanceF_B (v : UpdateBalanceVar)
  | filledLeqA (v : LeqVar)
  | filledLeqB (v : LeqVar)
  | rateCheckerA (v : RateVar)
  | rateCheckerB (v : RateVar)
  | rateCheckerFeeA (v : RateVar)
  | rateCheckerFeeB (v : RateVar)
  | matchLeqA (v : LeqVar)
  | matchLeqB (v : LeqVar)
  deriving DecidableEq

namespace RingVar

variable (τ : RingVar → FieldT)

/-- The address `flatten({order.orderID.bits, order.accountS.bits})` of an order's slot in the
trading history. -/
def filledAddress (order : OrderVar → RingVar) : List FieldT :=
  flatten [OrderVar.bitsOf (fun v => τ (order v)) .orderID 4,
    OrderVar.bitsOf (fun v => τ (order v)) .accountS 24]

end RingVar

variable (P : Primitives)

/-- `RingSettlementGadget::generate_r1cs_constraints`, the gadget having been built on the roots
`tradingHistoryMerkleRoot` and `accountsMerkleRoot`. The operands of every sub-gadget are those
its constructor was given, `rateCheckerB`'s and `rateCheckerFeeB`'s included. -/
structure RingSettlementGadget.Constraints (tradingHistoryMerkleRoot accountsMerkleRoot : FieldT)
    (τ : RingVar → FieldT) : Prop where
  orderA : OrderGadget.Constraints P fun v => τ (.orderA v)
  orderB : OrderGadget.Constraints P fun v => τ (.orderB v)
  fillS_A : DualVariableGadget.Constraints 96 fun v => τ (.fillS_A v)
  fillB_A : DualVariableGadget.Constraints 96 fun v => τ (.fillB_A v)
  fillF_A : DualVariableGadget.Constraints 96 fun v => τ (.fillF_A v)
  fillS_B : DualVariableGadget.Constraints 96 fun v => τ (.fillS_B v)
  fillB_B : DualVariableGadget.Constraints 96 fun v => τ (.fillB_B v)
  fillF_B : DualVariableGadget.Constraints 96 fun v => τ (.fillF_B v)
  balanceSB_A : SubaddGadget.Constraints 96 (τ .balanceS_A_before) (τ .balanceB_B_before)
    (τ (.fillS_A .packed)) fun v => τ (.balanceSB_A v)
  balanceSB_B : SubaddGadget.Constraints 96 (τ .balanceS_B_before) (τ .balanceB_A_before)
    (τ (.fillS_B .packed)) fun v => τ (.balanceSB_B v)
  balanceF_A : SubaddGadget.Constraints 96 (τ .balanceF_A_before) (τ .balanceF_W_A_before)
    (τ (.fillF_A .packed)) fun v => τ (.balanceF_A v)
  balanceF_B : SubaddGadget.Constraints 96 (τ .balanceF_B_before) (τ .balanceF_W_B_before)
    (τ (.fillF_B .packed)) fun v => τ (.balanceF_B v)
  updateFilledA : UpdateFilledGadget.Constraints P tradingHistoryMerkleRoot
    (RingVar.filledAddress τ .orderA)
    (τ (.fillS_A .packed)) fun v => τ (.updateFilledA v)
  updateFilledB : UpdateFilledGadget.Constraints P (τ (.updateFilledA UpdateFilledVar.result))
    (RingVar.filledAddress τ .orderB) (τ (.fillS_B .packed)) fun v => τ (.updateFilledB v)
  filledLeqA : LeqGadget.Constraints (τ (.updateFilledA .filledAfter)) (τ (.orderA (.amountS .packed)))
    fun v => τ (.filledLeqA v)
  filledLeqB : LeqGadget.Constraints (τ (.updateFilledB .filledAfter)) (τ (.orderB (.amountS .packed)))
    fun v => τ (.filledLeqB v)
  updateBalanceS_A : UpdateBalanceGadget.Constraints P accountsMerkleRoot
    (OrderVar.bitsOf (fun v => τ (.orderA v)) .accountS 24) (τ (.orderA .publicKeyX)) (τ (.orderA .publicKeyY))
    (τ (.orderA .tokenS)) (τ .balanceS_A_before) (τ (.balanceSB_A .X))
    fun v => τ (.updateBalanceS_A v)
  updateBalanceB_A : UpdateBalanceGadget.Constraints P
    (τ (.updateBalanceS_A UpdateBalanceVar.result))
    (OrderVar.bitsOf (fun v => τ (.orderA v)) .accountB 24) (τ (.orderA .publicKeyX)) (τ (.orderA .publicKeyY))
    (τ (.orderA .tokenB)) (τ .balanceB_A_before) (τ (.balanceSB_B .Y))
    fun v => τ (.updateBalanceB_A v)
  updateBalanceF_A : UpdateBalanceGadget.Constraints P
    (τ (.updateBalanceB_A UpdateBalanceVar.result))
    (OrderVar.bitsOf (fun v => τ (.orderA v)) .accountF 24) (τ (.orderA .publicKeyX)) (τ (.orderA .publicKeyY))
    (τ (.orderA .tokenF)) (τ .balanceF_A_before) (τ (.balanceF_A .X))
    fun v => τ (.updateBalanceF_A v)
  updateBalanceS_B : UpdateBalanceGadget.Constraints P
    (τ (.updateBalanceF_A UpdateBalanceVar.result))
    (OrderVar.bitsOf (fun v => τ (.orderB v)) .accountS 24) (τ (.orderB .publicKeyX)) (τ (.orderB .publicKeyY))
    (τ (.orderB .tokenS)) (τ .balanceS_B_before) (τ (.balanceSB_B .X))
    fun v => τ (.updateBalanceS_B v)
  updateBalanceB_B : UpdateBalanceGadget.Constraints P
    (τ (.updateBalanceS_B UpdateBalanceVar.result))
    (OrderVar.bitsOf (fun v => τ (.orderB v)) .accountB 24) (τ (.orderB .publicKeyX)) (τ (.orderB .publicKeyY))
    (τ (.orderB .tokenB)) (τ .balanceB_B_before) (τ (.balanceSB_A .Y))
    fun v => τ (.updateBalanceB_B v)
  updateBalanceF_B : UpdateBalanceGadget.Constraints P
    (τ (.updateBalanceB_B UpdateBalanceVar.result))
    (OrderVar.bitsOf (fun v => τ (.orderB v)) .accountF 24) (τ (.orderB .publicKeyX)) (τ (.orderB .publicKeyY))
    (τ (.orderB .tokenF)) (τ .balanceF_B_before) (τ (.balanceF_B .X))
    fun v => τ (.updateBalanceF_B v)
  tokenS : τ (.orderA .tokenS) * 1 = τ (.orderB .tokenB)
  tokenB : τ (.orderA .tokenB) * 1 = τ (.orderB .tokenS)
  rateCheckerA : RateCheckerGadget.Constraints (τ (.fillS_A .packed)) (τ (.fillB_A .packed))
    (τ (.orderA (.amountS .packed))) (τ (.orderA (.amountB .packed))) fun v => τ (.rateCheckerA v)
  rateCheckerB : RateCheckerGadget.Constraints (τ (.fillS_B .packed)) (τ (.fillB_B .packed))
    (τ (.orderA (.amountB .packed))) (τ (.orderB (.amountB .packed))) fun v => τ (.rateCheckerB v)
  rateCheckerFeeA : RateCheckerGadget.Constraints (τ (.fillF_A .packed)) (τ (.fillS_A .packed))
    (τ (.orderA (.amountF .packed))) (τ (.orderA (.amountS .packed))) fun v => τ (.rateCheckerFeeA v)
  rateCheckerFeeB : RateCheckerGadget.Constraints (τ (.fillF_B .packed)) (τ (.fillS_B .packed))
    (τ (.orderA (.amountF .packed))) (τ (.orderB (.amountS .packed))) fun v => τ (.rateCheckerFeeB v)
  matchLeqA : LeqGadget.Constraints (τ (.fillB_B .packed)) (τ (.fillS_A .packed))
    fun v => τ (.matchLeqA v)
  matchLeqB : LeqGadget.Constraints (τ (.fillB_A .packed)) (τ (.fillS_B .packed))
    fun v => τ (.matchLeqB v)

/-- `RingSettlementGadget::getNewTradingHistoryMerkleRoot()`: `updateFilledB.result()`. -/
def RingSettlementGadget.getNewTradingHistoryMerkleRoot : RingVar :=
  .updateFilledB UpdateFilledVar.result

/-- `RingSettlementGadget::getNewAccountsMerkleRoot()`: `updateBalanceB_B.result()`. -/
def RingSettlementGadget.getNewAccountsMerkleRoot : RingVar :=
  .updateBalanceB_B UpdateBalanceVar.result

section Witness

variable {V : Type} (name : RingVar → V)

/-- `RingSettlementGadget::getPublicData()`: per order, its `dexID`, `orderID` and `accountS`,
the other order's `accountB`, its `fillS`, its `accountF` and its `fillF`. -/
def RingSettlementGadget.getPublicData : List (List V) :=
  [DualVar.bitsOf (name ∘ .orderA ∘ .dexID) 16, DualVar.bitsOf (name ∘ .orderA ∘ .orderID) 4,
    DualVar.bitsOf (name ∘ .orderA ∘ .accountS) 24, DualVar.bitsOf (name ∘ .orderB ∘ .accountB) 24,
    DualVar.bitsOf (name ∘ .fillS_A) 96, DualVar.bitsOf (name ∘ .orderA ∘ .accountF) 24,
    DualVar.bitsOf (name ∘ .fillF_A) 96,
    DualVar.bitsOf (name ∘ .orderB ∘ .dexID) 16, DualVar.bitsOf (name ∘ .orderB ∘ .orderID) 4,
    DualVar.bitsOf (name ∘ .orderB ∘ .accountS) 24, DualVar.bitsOf (name ∘ .orderA ∘ .accountB) 24,
    DualVar.bitsOf (name ∘ .fillS_B) 96, DualVar.bitsOf (name ∘ .orderB ∘ .accountF) 24,
    DualVar.bitsOf (name ∘ .fillF_B) 96]

/-- The address variables of `updateFilledA` or `updateFilledB`: `orderID ∥ accountS`. -/
def RingVar.filledAddressVars (order : OrderVar → RingVar) : List V :=
  flatten [DualVar.bitsOf (name ∘ order ∘ .orderID) 4, DualVar.bitsOf (name ∘ order ∘ .accountS) 24]

/-- `RingSettlementGadget::generate_r1cs_witness`, the gadget having been built on the root
variables `tradingHistoryMerkleRoot` and `accountsMerkleRoot`. -/
def RingSettlementGadget.generateR1csWitness (tradingHistoryMerkleRoot : V)
    (ringSettlement : RingSettlement) : List (Write V) :=
  let ring := ringSettlement.ring
  let packed := fun field : DualVar → RingVar => name (field .packed)
  OrderGadget.generateR1csWitness (name ∘ .orderA) ring.orderA ++
    OrderGadget.generateR1csWitness (name ∘ .orderB) ring.orderB ++
    DualVariableGadget.generateR1csWitness (name ∘ .fillS_A) 96 ring.fillS_A ++
    DualVariableGadget.generateR1csWitness (name ∘ .fillB_A) 96 ring.fillB_A ++
    DualVariableGadget.generateR1csWitness (name ∘ .fillF_A) 96 ring.fillF_A ++
    DualVariableGadget.generateR1csWitness (name ∘ .fillS_B) 96 ring.fillS_B ++
    DualVariableGadget.generateR1csWitness (name ∘ .fillB_B) 96 ring.fillB_B ++
    DualVariableGadget.generateR1csWitness (name ∘ .fillF_B) 96 ring.fillF_B ++
    [(name .balanceS_A_before, fun _ => ringSettlement.accountS_A_before.balance),
      (name .balanceB_A_before, fun _ => ringSettlement.accountB_A_before.balance),
      (name .balanceF_A_before, fun _ => ringSettlement.accountF_A_before.balance),
      (name .balanceF_W_A_before, fun _ => 0),
      (name .balanceS_B_before, fun _ => ringSettlement.accountS_B_before.balance),
      (name .balanceB_B_before, fun _ => ringSettlement.accountB_B_before.balance),
      (name .balanceF_B_before, fun _ => ringSettlement.accountF_B_before.balance),
      (name .balanceF_W_B_before, fun _ => 0)] ++
    SubaddGadget.generateR1csWitness (name ∘ .balanceSB_A) (name .balanceS_A_before)
      (name .balanceB_B_before) (packed .fillS_A) ++
    SubaddGadget.generateR1csWitness (name ∘ .balanceSB_B) (name .balanceS_B_before)
      (name .balanceB_A_before) (packed .fillS_B) ++
    SubaddGadget.generateR1csWitness (name ∘ .balanceF_A) (name .balanceF_A_before)
      (name .balanceF_W_A_before) (packed .fillF_A) ++
    SubaddGadget.generateR1csWitness (name ∘ .balanceF_B) (name .balanceF_B_before)
      (name .balanceF_W_B_before) (packed .fillF_B) ++
    [(tradingHistoryMerkleRoot, fun _ => ringSettlement.tradingHistoryMerkleRoot)] ++
    UpdateFilledGadget.generateR1csWitness P (name ∘ .updateFilledA)
      (RingVar.filledAddressVars name .orderA) (packed .fillS_A) ringSettlement.filledA
      ringSettlement.proofFilledA ++
    UpdateFilledGadget.generateR1csWitness P (name ∘ .updateFilledB)
      (RingVar.filledAddressVars name .orderB) (packed .fillS_B) ringSettlement.filledB
      ringSettlement.proofFilledB ++
    LeqGadget.generateR1csWitness (name ∘ .filledLeqA) (name (.updateFilledA .filledAfter))
      (packed (.orderA ∘ .amountS)) ++
    LeqGadget.generateR1csWitness (name ∘ .filledLeqB) (name (.updateFilledB .filledAfter))
      (packed (.orderB ∘ .amountS)) ++
    UpdateBalanceGadget.generateR1csWitness P (name ∘ .updateBalanceS_A)
      (DualVar.bitsOf (name ∘ .orderA ∘ .accountS) 24) (name (.orderA .publicKeyX))
      (name (.orderA .publicKeyY)) (name (.orderA .tokenS)) (name .balanceS_A_before)
      (name (.balanceSB_A .X)) ringSettlement.accountS_A_proof ++
    UpdateBalanceGadget.generateR1csWitness P (name ∘ .updateBalanceB_A)
      (DualVar.bitsOf (name ∘ .orderA ∘ .accountB) 24) (name (.orderA .publicKeyX))
      (name (.orderA .publicKeyY)) (name (.orderA .tokenB)) (name .balanceB_A_before)
      (name (.balanceSB_B .Y)) ringSettlement.accountB_A_proof ++
    UpdateBalanceGadget.generateR1csWitness P (name ∘ .updateBalanceF_A)
      (DualVar.bitsOf (name ∘ .orderA ∘ .accountF) 24) (name (.orderA .publicKeyX))
      (name (.orderA .publicKeyY)) (name (.orderA .tokenF)) (name .balanceF_A_before)
      (name (.balanceF_A .X)) ringSettlement.accountF_A_proof ++
    UpdateBalanceGadget.generateR1csWitness P (name ∘ .updateBalanceS_B)
      (DualVar.bitsOf (name ∘ .orderB ∘ .accountS) 24) (name (.orderB .publicKeyX))
      (name (.orderB .publicKeyY)) (name (.orderB .tokenS)) (name .balanceS_B_before)
      (name (.balanceSB_B .X)) ringSettlement.accountS_B_proof ++
    UpdateBalanceGadget.generateR1csWitness P (name ∘ .updateBalanceB_B)
      (DualVar.bitsOf (name ∘ .orderB ∘ .accountB) 24) (name (.orderB .publicKeyX))
      (name (.orderB .publicKeyY)) (name (.orderB .tokenB)) (name .balanceB_B_before)
      (name (.balanceSB_A .Y)) ringSettlement.accountB_B_proof ++
    UpdateBalanceGadget.generateR1csWitness P (name ∘ .updateBalanceF_B)
      (DualVar.bitsOf (name ∘ .orderB ∘ .accountF) 24) (name (.orderB .publicKeyX))
      (name (.orderB .publicKeyY)) (name (.orderB .tokenF)) (name .balanceF_B_before)
      (name (.balanceF_B .X)) ringSettlement.accountF_B_proof ++
    RateCheckerGadget.generateR1csWitness (name ∘ .rateCheckerA) (packed (.orderA ∘ .amountS))
      (packed .fillB_A) ++
    RateCheckerGadget.generateR1csWitness (name ∘ .rateCheckerB) (packed (.orderA ∘ .amountB))
      (packed .fillB_B) ++
    RateCheckerGadget.generateR1csWitness (name ∘ .rateCheckerFeeA) (packed (.orderA ∘ .amountF))
      (packed .fillS_A) ++
    RateCheckerGadget.generateR1csWitness (name ∘ .rateCheckerFeeB) (packed (.orderA ∘ .amountF))
      (packed .fillS_B) ++
    LeqGadget.generateR1csWitness (name ∘ .matchLeqA) (packed .fillB_B) (packed .fillS_A) ++
    LeqGadget.generateR1csWitness (name ∘ .matchLeqB) (packed .fillB_A) (packed .fillS_B)

end Witness

end Loopring
