import LoopringCircuit.RingWitness

set_option autoImplicit false

namespace Loopring

/-! The trivial instance. On the zero primitives every Merkle node, leaf hash and root is zero,
so a ring whose data is in range and whose orders pass the checks as they are wired has a
satisfying assignment: the data's values, with every variable of the Merkle updates zero. A
circuit of one such ring is satisfied too, whatever the wires no constraint reads hold. -/

section Leq

/-- The values `LeqGadget::generate_r1cs_witness` gives the gadget's variables on operands of
values `A` and `B`. -/
def LeqGadget.witnessValues (A B : FieldT) : LeqVar → FieldT :=
  run (LeqGadget.generateR1csWitness Sum.inl (Sum.inr false) (Sum.inr true))
    (Sum.elim (fun _ => 0) fun operand => if operand then B else A) ∘ Sum.inl

theorem LeqGadget.constraints_witnessValues {A B : FieldT} (hA : A.val < 2 ^ 128)
    (hB : B.val < 2 ^ 128) (le : A.val ≤ B.val) :
    LeqGadget.Constraints A B (LeqGadget.witnessValues A B) :=
  LeqGadget.generateR1csWitness_spec Sum.inl Sum.inl_injective (Sum.inr false) (Sum.inr true)
    (Sum.elim (fun _ => 0) fun operand => if operand then B else A) hA hB le

end Leq

/-! Merkle updates on the zero primitives. -/

theorem marklePathCompute_zero :
    ∀ (i : ℕ) (levels : List (FieldT × FieldT)), (∀ l ∈ levels, l.2 = 0) →
      marklePathCompute Primitives.zero (fun _ => 0) i 0 levels
  | _, [], _ => trivial
  | i, (isRight, pathvar) :: levels, zero => by
    have sibling : pathvar = 0 := zero _ (List.mem_cons_self _ _)
    subst sibling
    exact ⟨⟨by ring, by ring⟩, rfl,
      marklePathCompute_zero (i + 1) levels fun l mem => zero l (List.mem_cons_of_mem _ mem)⟩

theorem marklePathResult_zero :
    ∀ (i : ℕ) (levels : List (FieldT × FieldT)), marklePathResult (fun _ => 0) i 0 levels = 0
  | _, [] => rfl
  | i, _ :: levels => marklePathResult_zero (i + 1) levels

theorem levels_zero (address : List FieldT) :
    ∀ l ∈ MerkleUpdateVar.levels (fun _ => 0) address, l.2 = 0 := fun l mem => by
  obtain ⟨-, second⟩ := List.of_mem_zip mem
  exact (List.mem_map.mp second).elim fun _ listed => listed.2.symm

/-- On the zero primitives an update of zero variables is satisfied on the root zero. -/
theorem MerkleUpdate.constraints_zero (address messageBefore messageAfter : List FieldT) :
    MerkleUpdate.Constraints Primitives.zero 0 address messageBefore messageAfter (fun _ => 0) :=
  ⟨rfl, rfl, marklePathCompute_zero 0 _ (levels_zero address),
    by rw [marklePathResult_zero, mul_one], marklePathCompute_zero 0 _ (levels_zero address)⟩

/-- On the zero primitives every tree has the root zero. -/
theorem merkleRoot_zero (t : List Bool → FieldT) :
    ∀ (i d : ℕ), merkleRoot Primitives.zero i (d + 1) t = 0
  | _, 0 => rfl
  | i, d + 1 => merkleRoot_zero (parents Primitives.zero i t) (i + 1) d

theorem collisionFreeAlong_zero :
    ∀ (i : ℕ) (path : List (Bool × FieldT)), (∀ l ∈ path, l.2 = 0) →
      CollisionFreeAlong Primitives.zero i (fun _ => 0) 0 path
  | _, [], _ => trivial
  | i, (b, s) :: path, zero => by
    have sibling : s = 0 := zero _ (List.mem_cons_self _ _)
    subst sibling
    exact ⟨fun _ => by cases b <;> rfl,
      collisionFreeAlong_zero (i + 1) path fun l mem => zero l (List.mem_cons_of_mem _ mem)⟩

theorem toPath_levels_zero (address : List FieldT) :
    ∀ l ∈ toPath (MerkleUpdateVar.levels (fun _ => 0) address), l.2 = 0 := fun l mem => by
  simp only [toPath, List.mem_map] at mem
  obtain ⟨l', listed, rfl⟩ := mem
  exact levels_zero address l' listed

/-! The ring. -/

/-- What a ring's witness needs in range besides its fills and orders: the balances the four
sub-adds leave, and the filled amounts the two caps compare. -/
structure RingSettlement.InRange (rs : RingSettlement) : Prop where
  balanceS_A : (rs.accountS_A_before.balance - rs.ring.fillS_A).val < 2 ^ 96
  balanceB_B : (rs.accountB_B_before.balance + rs.ring.fillS_A).val < 2 ^ 96
  balanceS_B : (rs.accountS_B_before.balance - rs.ring.fillS_B).val < 2 ^ 96
  balanceB_A : (rs.accountB_A_before.balance + rs.ring.fillS_B).val < 2 ^ 96
  balanceF_A : (rs.accountF_A_before.balance - rs.ring.fillF_A).val < 2 ^ 96
  balanceF_B : (rs.accountF_B_before.balance - rs.ring.fillF_B).val < 2 ^ 96
  filledA : (rs.filledA + rs.ring.fillS_A).val ≤ rs.ring.orderA.amountS.val
  filledB : (rs.filledB + rs.ring.fillS_B).val ≤ rs.ring.orderB.amountS.val

/-- The values of a sub-add on `A`, `B` and `N`: the debit `A - N` and the credit `B + N`. -/
def SubaddVar.values (A B N : FieldT) : SubaddVar → FieldT
  | .X => A - N
  | .Y => B + N

/-- The values of a trading-history update adding `fill` to `filled`, its Merkle variables
zero. -/
def UpdateFilledVar.zeroValues (filled fill : FieldT) : UpdateFilledVar → FieldT
  | .filledBefore => filled
  | .filledAfter => filled + fill
  | _ => 0

/-- The assignment of a ring's variables on the zero primitives: the values the witness writes
from the data, and zero on every variable of the Merkle updates. -/
def RingSettlement.trivialAssignment (rs : RingSettlement) : RingVar → FieldT
  | .orderA v => rs.ring.orderA.values v
  | .orderB v => rs.ring.orderB.values v
  | .fillS_A v => DualVar.value rs.ring.fillS_A v
  | .fillB_A v => DualVar.value rs.ring.fillB_A v
  | .fillF_A v => DualVar.value rs.ring.fillF_A v
  | .fillS_B v => DualVar.value rs.ring.fillS_B v
  | .fillB_B v => DualVar.value rs.ring.fillB_B v
  | .fillF_B v => DualVar.value rs.ring.fillF_B v
  | .balanceS_A_before => rs.accountS_A_before.balance
  | .balanceB_A_before => rs.accountB_A_before.balance
  | .balanceF_A_before => rs.accountF_A_before.balance
  | .balanceF_W_A_before => 0
  | .balanceS_B_before => rs.accountS_B_before.balance
  | .balanceB_B_before => rs.accountB_B_before.balance
  | .balanceF_B_before => rs.accountF_B_before.balance
  | .balanceF_W_B_before => 0
  | .balanceSB_A v => SubaddVar.values rs.accountS_A_before.balance rs.accountB_B_before.balance
      rs.ring.fillS_A v
  | .balanceSB_B v => SubaddVar.values rs.accountS_B_before.balance rs.accountB_A_before.balance
      rs.ring.fillS_B v
  | .balanceF_A v => SubaddVar.values rs.accountF_A_before.balance 0 rs.ring.fillF_A v
  | .balanceF_B v => SubaddVar.values rs.accountF_B_before.balance 0 rs.ring.fillF_B v
  | .updateFilledA v => UpdateFilledVar.zeroValues rs.filledA rs.ring.fillS_A v
  | .updateFilledB v => UpdateFilledVar.zeroValues rs.filledB rs.ring.fillS_B v
  | .updateBalanceS_A _ | .updateBalanceB_A _ | .updateBalanceF_A _
  | .updateBalanceS_B _ | .updateBalanceB_B _ | .updateBalanceF_B _ => 0
  | .filledLeqA v => LeqGadget.witnessValues (rs.filledA + rs.ring.fillS_A)
      rs.ring.orderA.amountS v
  | .filledLeqB v => LeqGadget.witnessValues (rs.filledB + rs.ring.fillS_B)
      rs.ring.orderB.amountS v
  | .rateCheckerA _ => rs.ring.orderA.amountS * rs.ring.fillB_A
  | .rateCheckerB _ => rs.ring.orderA.amountB * rs.ring.fillB_B
  | .rateCheckerFeeA _ => rs.ring.orderA.amountF * rs.ring.fillS_A
  | .rateCheckerFeeB _ => rs.ring.orderA.amountF * rs.ring.fillS_B
  | .matchLeqA v => LeqGadget.witnessValues rs.ring.fillB_B rs.ring.fillS_A v
  | .matchLeqB v => LeqGadget.witnessValues rs.ring.fillB_A rs.ring.fillS_B v

theorem lt_two_pow_128 {n : ℕ} (h : n < 2 ^ 96) : n < 2 ^ 128 := h.trans (by norm_num)

/-- On the zero primitives a ring in range is satisfied by its trivial assignment. -/
theorem RingSettlement.constraints_trivialAssignment (rs : RingSettlement) (fits : rs.ring.Fits)
    (matched : rs.ring.Matched) (range : rs.InRange) :
    RingSettlementGadget.Constraints Primitives.zero 0 0 rs.trivialAssignment where
  orderA := .of_values Primitives.zero fits.orderA rfl fun _ _ => rfl
  orderB := .of_values Primitives.zero fits.orderB rfl fun _ _ => rfl
  fillS_A := .of_values fits.fillS_A fun _ _ => rfl
  fillB_A := .of_values fits.fillB_A fun _ _ => rfl
  fillF_A := .of_values fits.fillF_A fun _ _ => rfl
  fillS_B := .of_values fits.fillS_B fun _ _ => rfl
  fillB_B := .of_values fits.fillB_B fun _ _ => rfl
  fillF_B := .of_values fits.fillF_B fun _ _ => rfl
  balanceSB_A := ⟨rfl, rfl, range.balanceS_A, range.balanceB_B⟩
  balanceSB_B := ⟨rfl, rfl, range.balanceS_B, range.balanceB_A⟩
  balanceF_A := ⟨rfl, rfl, range.balanceF_A, show (0 + rs.ring.fillF_A).val < 2 ^ 96 by rw [zero_add]; exact fits.fillF_A⟩
  balanceF_B := ⟨rfl, rfl, range.balanceF_B, show (0 + rs.ring.fillF_B).val < 2 ^ 96 by rw [zero_add]; exact fits.fillF_B⟩
  updateFilledA := ⟨mul_one _, MerkleUpdate.constraints_zero _ _ _⟩
  updateFilledB := ⟨mul_one _, MerkleUpdate.constraints_zero _ _ _⟩
  filledLeqA := LeqGadget.constraints_witnessValues
    (lt_two_pow_128 (range.filledA.trans_lt fits.orderA.amountS))
    (lt_two_pow_128 fits.orderA.amountS) range.filledA
  filledLeqB := LeqGadget.constraints_witnessValues
    (lt_two_pow_128 (range.filledB.trans_lt fits.orderB.amountS))
    (lt_two_pow_128 fits.orderB.amountS) range.filledB
  updateBalanceS_A := MerkleUpdate.constraints_zero _ _ _
  updateBalanceB_A := MerkleUpdate.constraints_zero _ _ _
  updateBalanceF_A := MerkleUpdate.constraints_zero _ _ _
  updateBalanceS_B := MerkleUpdate.constraints_zero _ _ _
  updateBalanceB_B := MerkleUpdate.constraints_zero _ _ _
  updateBalanceF_B := MerkleUpdate.constraints_zero _ _ _
  tokenS := (mul_one _).trans matched.tokenS
  tokenB := (mul_one _).trans matched.tokenB
  rateCheckerA := ⟨rfl, matched.rateA⟩
  rateCheckerB := ⟨rfl, matched.rateB⟩
  rateCheckerFeeA := ⟨rfl, matched.rateFeeA⟩
  rateCheckerFeeB := ⟨rfl, matched.rateFeeB⟩
  matchLeqA := LeqGadget.constraints_witnessValues (lt_two_pow_128 fits.fillB_B)
    (lt_two_pow_128 fits.fillS_A) matched.matchA
  matchLeqB := LeqGadget.constraints_witnessValues (lt_two_pow_128 fits.fillB_A)
    (lt_two_pow_128 fits.fillS_B) matched.matchB

/-! A circuit of one ring. -/

/-- The assignment of a circuit of one ring on the zero primitives: the ring's trivial assignment,
zero on the roots, the digest and `publicDataHash`, and `free` on every other wire. -/
def CircuitGadget.trivialAssignment (rs : RingSettlement) (free : Var → FieldT) : Var → FieldT
  | .ringSettlements 0 u => rs.trivialAssignment u
  | .tradingHistoryMerkleRootBefore _ => 0
  | .tradingHistoryMerkleRootAfter .packed => 0
  | .accountsMerkleRootBefore .packed => 0
  | .publicDataHash _ => 0
  | .publicDataHasher _ => 0
  | v => free v

theorem DualVariableGadget.constraints_zero (width : ℕ) :
    DualVariableGadget.Constraints width fun _ => 0 :=
  DualVar.value_zero ▸ .of_values (by simp) fun _ _ => rfl

/-- On the zero primitives a circuit of one ring is satisfied by its trivial assignment. -/
theorem CircuitGadget.constraints_trivialAssignment (rs : RingSettlement) (fits : rs.ring.Fits)
    (matched : rs.ring.Matched) (range : rs.InRange) (free : Var → FieldT) :
    CircuitGadget.Constraints Primitives.zero 1 (CircuitGadget.trivialAssignment rs free) where
  tradingHistoryMerkleRootBefore := DualVariableGadget.constraints_zero 256
  publicDataHash := DualVariableGadget.constraints_zero 256
  ringSettlements j within := by
    obtain rfl : j = 0 := by omega
    exact rs.constraints_trivialAssignment fits matched range
  publicDataHasher _ _ := by
    show (0 : FieldT) = if (List.replicate 256 false).getD _ false then 1 else 0
    rw [List.getD_eq_getElem?_getD, List.getElem?_getD_replicate_default_eq, if_neg Bool.false_ne_true]
  check _ _ := mul_one 0
  newMerkleRoot := mul_one 0

end Loopring
