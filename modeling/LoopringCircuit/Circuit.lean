import LoopringCircuit.Ring

set_option autoImplicit false

namespace Loopring

/-! `CircuitGadget`: the four roots, `numRings` ring settlements chained on them, and the SHA-256
of the public data checked against the single public input `publicDataHash`. -/

/-- The variables of the circuit: the constant `ONE` (libsnark's variable `0`, which a
default-constructed variable denotes), the five dual variables, the variables of every ring
settlement, and the bits of the public-data hasher's result. -/
inductive Var
  | ONE
  | publicDataHash (v : DualVar)
  | tradingHistoryMerkleRootBefore (v : DualVar)
  | tradingHistoryMerkleRootAfter (v : DualVar)
  | accountsMerkleRootBefore (v : DualVar)
  | accountsMerkleRootAfter (v : DualVar)
  | ringSettlements (j : ℕ) (v : RingVar)
  | publicDataHasher (i : ℕ)
  deriving DecidableEq

instance : Inhabited Var := ⟨.ONE⟩

namespace CircuitGadget

/-- `ringTradingHistoryMerkleRoot` of ring `j`: the packed root before for ring `0`, the previous
ring's `getNewTradingHistoryMerkleRoot()` after it. -/
def ringTradingHistoryMerkleRoot : ℕ → Var
  | 0 => .tradingHistoryMerkleRootBefore .packed
  | j + 1 => .ringSettlements j RingSettlementGadget.getNewTradingHistoryMerkleRoot

/-- `ringAccountsMerkleRoot` of ring `j`: the packed root before for ring `0`, and after it, as
the source has it, the previous ring's `getNewTradingHistoryMerkleRoot()`. -/
def ringAccountsMerkleRoot : ℕ → Var
  | 0 => .accountsMerkleRootBefore .packed
  | j + 1 => .ringSettlements j RingSettlementGadget.getNewTradingHistoryMerkleRoot

/-- `publicDataBits`: the bits of the trading-history roots before and after, then each ring's
`getPublicData()`. -/
def publicDataBits (numRings : ℕ) : List (List Var) :=
  [DualVar.bitsOf .tradingHistoryMerkleRootBefore 256,
    DualVar.bitsOf .tradingHistoryMerkleRootAfter 256] ++
    (List.range numRings).flatMap fun j =>
      RingSettlementGadget.getPublicData (.ringSettlements j)

/-- `publicData = flattenReverse(publicDataBits)`, the input of the hasher. -/
def publicData (numRings : ℕ) : List Var := flattenReverse (publicDataBits numRings)

/-- The bits of the hasher's result, in the order of `result().bits`. -/
def hasherBits : List Var := (List.range 256).map .publicDataHasher

variable (P : Primitives)

/-- `CircuitGadget::generate_r1cs_constraints(numRings)`: the dual variables of the trading-history
root before and of `publicDataHash`, every ring's constraints on the roots it was built on, the
hasher of `publicData`, the remap of its digest onto `publicDataHash.bits`, and `newMerkleRoot`. -/
structure Constraints (numRings : ℕ) (τ : Var → FieldT) : Prop where
  tradingHistoryMerkleRootBefore : DualVariableGadget.Constraints 256 (τ ∘ .tradingHistoryMerkleRootBefore)
  publicDataHash : DualVariableGadget.Constraints 256 (τ ∘ .publicDataHash)
  ringSettlements : ∀ j < numRings, RingSettlementGadget.Constraints P
    (τ (ringTradingHistoryMerkleRoot j)) (τ (ringAccountsMerkleRoot j)) (τ ∘ .ringSettlements j)
  publicDataHasher : ∀ i < 256, τ (.publicDataHasher i) =
    if (P.sha256 ((publicData numRings).map τ)).getD i false then 1 else 0
  check : ∀ i < 256, τ (.publicDataHasher (255 - i)) * 1 = τ (.publicDataHash (.bits i))
  newMerkleRoot : τ (.ringSettlements (numRings - 1)
    RingSettlementGadget.getNewTradingHistoryMerkleRoot) * 1 =
      τ (.tradingHistoryMerkleRootAfter .packed)

/-- The witness of every ring, ring `i` on the data `ringSettlementsData[i]`. -/
def ringWitnesses : ℕ → List RingSettlement → List (Write Var)
  | _, [] => []
  | i, ringSettlement :: rest =>
      RingSettlementGadget.generateR1csWitness P (.ringSettlements i)
          (ringTradingHistoryMerkleRoot i) ringSettlement ++
        ringWitnesses (i + 1) rest

/-- `publicDataHasher->generate_r1cs_witness()`: the digest of the public data. -/
def hasherWitness (numRings : ℕ) : List (Write Var) :=
  (List.range 256).map fun i => (.publicDataHasher i, fun σ =>
    if (P.sha256 ((publicData numRings).map σ)).getD i false then 1 else 0)

/-- `get_digest()` of the hasher's result: its bits as booleans. -/
def getDigest (σ : Assignment Var) : List Bool := hasherBits.map fun v => toBit (σ v)

/-- `publicDataHashDec`: the digest read most significant bit first,
`publicDataHashDec = publicDataHashDec * 2 + bit`. -/
def publicDataHashDec (digest : List Bool) : ℕ :=
  digest.foldl (fun acc b => acc * 2 + if b then 1 else 0) 0

/-- `CircuitGadget::generateWitness`: the four roots filled and packed, every ring, the hasher,
then `publicDataHash.bits[i] = bn.test_bit(i)` and its packed value. The roots are the values
the strings parse to, and `bn`, the decimal round trip of `publicDataHashDec` into a 256-bit
`libff::bigint`, is that number, which is below `2^256`. -/
def generateWitness (numRings : ℕ) (ringSettlementsData : List RingSettlement)
    (tradingHistoryMerkleRootBeforeValue tradingHistoryMerkleRootAfterValue
      accountsMerkleRootBeforeValue accountsMerkleRootAfterValue : FieldT) : List (Write Var) :=
  DualVariableGadget.generateR1csWitness .tradingHistoryMerkleRootBefore 256
      tradingHistoryMerkleRootBeforeValue ++
    DualVariableGadget.generateR1csWitness .tradingHistoryMerkleRootAfter 256
      tradingHistoryMerkleRootAfterValue ++
    DualVariableGadget.generateR1csWitness .accountsMerkleRootBefore 256
      accountsMerkleRootBeforeValue ++
    DualVariableGadget.generateR1csWitness .accountsMerkleRootAfter 256
      accountsMerkleRootAfterValue ++
    ringWitnesses P 0 ringSettlementsData ++
    hasherWitness P numRings ++
    (List.range 256).map (fun i => (.publicDataHash (.bits i), fun σ =>
      if (publicDataHashDec (getDigest σ)).testBit i then 1 else 0)) ++
    [DualVariableGadget.generateR1csWitnessFromBits .publicDataHash 256]

end CircuitGadget

end Loopring
