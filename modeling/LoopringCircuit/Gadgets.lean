import LoopringCircuit.Merkle
import LoopringCircuit.Comparison

set_option autoImplicit false

namespace Loopring

/-! The gadgets of `Circuit.h` below the ring settlement: each one's variables, the constraints
its `generate_r1cs_constraints` adds (over the values of its variables and of the variables its
constructor was given), and the writes of its `generate_r1cs_witness`. -/

variable (P : Primitives) {V : Type}

/-! `RateCheckerGadget` -/

/-- The variable a `RateCheckerGadget` allocates. -/
inductive RateVar
  | invariant
  deriving DecidableEq

/-- `RateCheckerGadget::generate_r1cs_constraints`: `amountS * fillB` and `amountB * fillS` are
both `invariant`. -/
structure RateCheckerGadget.Constraints (fillS fillB amountS amountB : FieldT)
    (τ : RateVar → FieldT) : Prop where
  fillBInvariant : amountS * fillB = τ .invariant
  fillSInvariant : amountB * fillS = τ .invariant

/-- `RateCheckerGadget::generate_r1cs_witness`. -/
def RateCheckerGadget.generateR1csWitness (name : RateVar → V) (amountS fillB : V) :
    List (Write V) :=
  [(name .invariant, fun σ => σ amountS * σ fillB)]

@[simp] theorem RateCheckerGadget.targets_generateR1csWitness (name : RateVar → V)
    (amountS fillB : V) :
    (RateCheckerGadget.generateR1csWitness name amountS fillB).map Prod.fst = [name .invariant] :=
  rfl

/-- Completeness of `RateCheckerGadget`: when the rate holds, its witness satisfies it. -/
theorem RateCheckerGadget.generateR1csWitness_spec [DecidableEq V] (name : RateVar → V)
    (fillS fillB amountS amountB : V) (σ : Assignment V)
    (rate : σ amountB * σ fillS = σ amountS * σ fillB) :
    RateCheckerGadget.Constraints (σ fillS) (σ fillB) (σ amountS) (σ amountB)
      (run (RateCheckerGadget.generateR1csWitness name amountS fillB) σ ∘ name) := by
  have invariant : (run (RateCheckerGadget.generateR1csWitness name amountS fillB) σ ∘ name)
      .invariant = σ amountS * σ fillB := Function.update_same _ _ _
  exact ⟨invariant.symm, invariant ▸ rate⟩

/-- The rate a satisfied checker enforces: `fillS * amountB = fillB * amountS`, in the field. -/
theorem RateCheckerGadget.Constraints.rate {fillS fillB amountS amountB : FieldT}
    {τ : RateVar → FieldT} (h : RateCheckerGadget.Constraints fillS fillB amountS amountB τ) :
    fillS * amountB = fillB * amountS := by
  rw [mul_comm, h.fillSInvariant, ← h.fillBInvariant, mul_comm]

/-! `subadd_gadget` -/

/-- The outputs of a `subadd_gadget`, the only variables of it the circuit reads. -/
inductive SubaddVar
  | X
  | Y
  deriving DecidableEq

/-- Modelled from the spec: ethsnarks' `subadd_gadget`, which is not in this repository, by the
contract the spec gives it, "algebraic equality plus `n`-bit range on both outputs": the source
`A` is debited and the destination `B` credited with `N`. -/
structure SubaddGadget.Constraints (nBits : ℕ) (A B N : FieldT) (τ : SubaddVar → FieldT) : Prop where
  sub : τ .X = A - N
  add : τ .Y = B + N
  rangeX : (τ .X).val < 2 ^ nBits
  rangeY : (τ .Y).val < 2 ^ nBits

/-- Modelled from the spec: `subadd_gadget::generate_r1cs_witness` computes its two outputs. -/
def SubaddGadget.generateR1csWitness (name : SubaddVar → V) (A B N : V) : List (Write V) :=
  [(name .X, fun σ => σ A - σ N), (name .Y, fun σ => σ B + σ N)]

@[simp] theorem SubaddGadget.targets_generateR1csWitness (name : SubaddVar → V) (A B N : V) :
    (SubaddGadget.generateR1csWitness name A B N).map Prod.fst = [name .X, name .Y] := rfl

theorem SubaddGadget.run_generateR1csWitness [DecidableEq V] (name : SubaddVar → V)
    (inj : Function.Injective name) (A B N : V) (inputs : B ∉ Set.range name ∧ N ∉ Set.range name)
    (σ : Assignment V) :
    run (SubaddGadget.generateR1csWitness name A B N) σ (name .X) = σ A - σ N ∧
      run (SubaddGadget.generateR1csWitness name A B N) σ (name .Y) = σ B + σ N := by
  constructor
  · simp [SubaddGadget.generateR1csWitness, Function.update_apply, inj.eq_iff]
  · simp [SubaddGadget.generateR1csWitness, Function.update_noteq fun h => inputs.1 ⟨_, h.symm⟩,
      Function.update_noteq fun h => inputs.2 ⟨_, h.symm⟩]

/-- Completeness of the `subadd_gadget` when both results have `nBits` bits. -/
theorem SubaddGadget.generateR1csWitness_spec [DecidableEq V] (name : SubaddVar → V)
    (inj : Function.Injective name) (nBits : ℕ) (A B N : V)
    (inputs : B ∉ Set.range name ∧ N ∉ Set.range name) (σ : Assignment V)
    (rangeX : (σ A - σ N).val < 2 ^ nBits) (rangeY : (σ B + σ N).val < 2 ^ nBits) :
    SubaddGadget.Constraints nBits (σ A) (σ B) (σ N)
      (run (SubaddGadget.generateR1csWitness name A B N) σ ∘ name) := by
  obtain ⟨X, Y⟩ := SubaddGadget.run_generateR1csWitness name inj A B N inputs σ
  exact ⟨X, Y, by rwa [Function.comp_apply, X], by rwa [Function.comp_apply, Y]⟩

/-! `OrderGadget` -/

/-- Modelled from the spec: `Data.h`'s `Order`, which is not in this repository, with the
fields the circuit reads. -/
structure Order where
  dexID : FieldT
  orderID : FieldT
  accountS : FieldT
  accountB : FieldT
  accountF : FieldT
  amountS : FieldT
  amountB : FieldT
  amountF : FieldT
  walletF : FieldT
  tokenS : FieldT
  tokenB : FieldT
  tokenF : FieldT
  publicKeyX : FieldT
  publicKeyY : FieldT
  sigRX : FieldT
  sigRY : FieldT
  sigS : FieldT

/-- The variables an `OrderGadget` allocates. -/
inductive OrderVar
  | dexID (v : DualVar)
  | orderID (v : DualVar)
  | accountS (v : DualVar)
  | accountB (v : DualVar)
  | accountF (v : DualVar)
  | amountS (v : DualVar)
  | amountB (v : DualVar)
  | amountF (v : DualVar)
  | walletF (v : DualVar)
  | padding (v : DualVar)
  | tokenS
  | tokenB
  | tokenF
  | publicKeyX
  | publicKeyY
  | sigRX
  | sigRY
  | sigS (i : ℕ)
  deriving DecidableEq

/-- `FieldT::size_in_bits()`: the width of `sig_s`. -/
def fieldSizeInBits : ℕ := 254

/-- The bits of one of the order's dual variables. -/
def OrderVar.bitsOf (τ : OrderVar → FieldT) (field : DualVar → OrderVar) (width : ℕ) :
    List FieldT :=
  DualVar.bitsOf (fun v => τ (field v)) width

@[simp] theorem OrderVar.length_bitsOf (τ : OrderVar → FieldT) (field : DualVar → OrderVar)
    (width : ℕ) : (OrderVar.bitsOf τ field width).length = width :=
  DualVar.length_bitsOf _ _

/-- `sig_m`: the signed message, the bits of the first eight fields one after another. -/
def OrderVar.sigM (τ : OrderVar → FieldT) : List FieldT :=
  flatten [OrderVar.bitsOf τ .dexID 16, OrderVar.bitsOf τ .orderID 4,
    OrderVar.bitsOf τ .accountS 24, OrderVar.bitsOf τ .accountB 24,
    OrderVar.bitsOf τ .accountF 24, OrderVar.bitsOf τ .amountS 96,
    OrderVar.bitsOf τ .amountB 96, OrderVar.bitsOf τ .amountF 96]

/-- `OrderGadget::generate_r1cs_constraints`: the range of every field but `walletF`, and the
signature over `sig_m`. -/
structure OrderGadget.Constraints (τ : OrderVar → FieldT) : Prop where
  dexID : DualVariableGadget.Constraints 16 fun v => τ (.dexID v)
  orderID : DualVariableGadget.Constraints 4 fun v => τ (.orderID v)
  accountS : DualVariableGadget.Constraints 24 fun v => τ (.accountS v)
  accountB : DualVariableGadget.Constraints 24 fun v => τ (.accountB v)
  accountF : DualVariableGadget.Constraints 24 fun v => τ (.accountF v)
  amountS : DualVariableGadget.Constraints 96 fun v => τ (.amountS v)
  amountB : DualVariableGadget.Constraints 96 fun v => τ (.amountB v)
  amountF : DualVariableGadget.Constraints 96 fun v => τ (.amountF v)
  padding : DualVariableGadget.Constraints 1 fun v => τ (.padding v)
  signatureVerifier : P.verify (τ .publicKeyX, τ .publicKeyY) (τ .sigRX, τ .sigRY)
    ((List.range fieldSizeInBits).map fun i => τ (.sigS i)) (OrderVar.sigM τ) = true

/-- `OrderGadget::generate_r1cs_witness`: every field but `walletF` filled and packed, `padding`
zero, then the tokens, the public key and the signature. -/
def OrderGadget.generateR1csWitness (name : OrderVar → V) (order : Order) : List (Write V) :=
  DualVariableGadget.generateR1csWitness (name ∘ .dexID) 16 order.dexID ++
    DualVariableGadget.generateR1csWitness (name ∘ .orderID) 4 order.orderID ++
    DualVariableGadget.generateR1csWitness (name ∘ .accountS) 24 order.accountS ++
    DualVariableGadget.generateR1csWitness (name ∘ .accountB) 24 order.accountB ++
    DualVariableGadget.generateR1csWitness (name ∘ .accountF) 24 order.accountF ++
    DualVariableGadget.generateR1csWitness (name ∘ .amountS) 96 order.amountS ++
    DualVariableGadget.generateR1csWitness (name ∘ .amountB) 96 order.amountB ++
    DualVariableGadget.generateR1csWitness (name ∘ .amountF) 96 order.amountF ++
    DualVariableGadget.generateR1csWitness (name ∘ .padding) 1 0 ++
    [(name .tokenS, fun _ => order.tokenS), (name .tokenB, fun _ => order.tokenB),
      (name .tokenF, fun _ => order.tokenF),
      (name .publicKeyX, fun _ => order.publicKeyX), (name .publicKeyY, fun _ => order.publicKeyY),
      (name .sigRX, fun _ => order.sigRX), (name .sigRY, fun _ => order.sigRY)] ++
    fillWithBitsOfFieldElement (name ∘ .sigS) fieldSizeInBits order.sigS

/-- The variables an order's witness writes, in its order: every one but `walletF`'s. -/
def OrderVar.vars : List OrderVar :=
  (DualVar.vars 16).map .dexID ++ (DualVar.vars 4).map .orderID ++
    (DualVar.vars 24).map .accountS ++ (DualVar.vars 24).map .accountB ++
    (DualVar.vars 24).map .accountF ++ (DualVar.vars 96).map .amountS ++
    (DualVar.vars 96).map .amountB ++ (DualVar.vars 96).map .amountF ++
    (DualVar.vars 1).map .padding ++
    [.tokenS, .tokenB, .tokenF, .publicKeyX, .publicKeyY, .sigRX, .sigRY] ++
    (List.range fieldSizeInBits).map .sigS

theorem OrderVar.mem_vars {v : OrderVar} : v ∈ OrderVar.vars ↔ match v with
    | .dexID v => v ∈ DualVar.vars 16
    | .orderID v => v ∈ DualVar.vars 4
    | .accountS v | .accountB v | .accountF v => v ∈ DualVar.vars 24
    | .amountS v | .amountB v | .amountF v => v ∈ DualVar.vars 96
    | .padding v => v ∈ DualVar.vars 1
    | .walletF _ => False
    | .sigS i => i < fieldSizeInBits
    | _ => True := by
  simp only [OrderVar.vars, List.mem_append, List.mem_map, List.mem_cons, List.mem_range,
    List.not_mem_nil, or_false]
  cases v <;> simp only [OrderVar.dexID.injEq, OrderVar.orderID.injEq, OrderVar.accountS.injEq,
    OrderVar.accountB.injEq, OrderVar.accountF.injEq, OrderVar.amountS.injEq,
    OrderVar.amountB.injEq, OrderVar.amountF.injEq, OrderVar.padding.injEq, OrderVar.sigS.injEq,
    reduceCtorEq, and_false, exists_false, exists_eq_right, false_or, or_false, or_true, true_or]

@[simp] theorem OrderGadget.targets_generateR1csWitness (name : OrderVar → V) (order : Order) :
    (OrderGadget.generateR1csWitness name order).map Prod.fst = OrderVar.vars.map name := by
  simp [OrderGadget.generateR1csWitness, OrderVar.vars, Function.comp_def]

/-- The values an order's witness gives its variables (`walletF`'s, which it does not write,
read as the order's). -/
def Order.values (order : Order) : OrderVar → FieldT
  | .dexID v => DualVar.value order.dexID v
  | .orderID v => DualVar.value order.orderID v
  | .accountS v => DualVar.value order.accountS v
  | .accountB v => DualVar.value order.accountB v
  | .accountF v => DualVar.value order.accountF v
  | .amountS v => DualVar.value order.amountS v
  | .amountB v => DualVar.value order.amountB v
  | .amountF v => DualVar.value order.amountF v
  | .walletF v => DualVar.value order.walletF v
  | .padding v => DualVar.value 0 v
  | .tokenS => order.tokenS
  | .tokenB => order.tokenB
  | .tokenF => order.tokenF
  | .publicKeyX => order.publicKeyX
  | .publicKeyY => order.publicKeyY
  | .sigRX => order.sigRX
  | .sigRY => order.sigRY
  | .sigS i => bitOf order.sigS.val i

/-- Every field of the order has the width its dual variable is declared with. -/
structure Order.Fits (order : Order) : Prop where
  dexID : order.dexID.val < 2 ^ 16
  orderID : order.orderID.val < 2 ^ 4
  accountS : order.accountS.val < 2 ^ 24
  accountB : order.accountB.val < 2 ^ 24
  accountF : order.accountF.val < 2 ^ 24
  amountS : order.amountS.val < 2 ^ 96
  amountB : order.amountB.val < 2 ^ 96
  amountF : order.amountF.val < 2 ^ 96

/-- The order's signature verifies, on the bits of its `s` and of its message. -/
def Order.SignatureValid (order : Order) : Prop :=
  P.verify (order.publicKeyX, order.publicKeyY) (order.sigRX, order.sigRY)
    ((List.range fieldSizeInBits).map (bitOf order.sigS.val)) (OrderVar.sigM order.values) = true

theorem OrderVar.sigM_congr {τ τ' : OrderVar → FieldT} (same : ∀ v ∈ OrderVar.vars, τ v = τ' v) :
    OrderVar.sigM τ = OrderVar.sigM τ' := by
  have bits : ∀ (field : DualVar → OrderVar) (width : ℕ),
      (∀ i < width, field (.bits i) ∈ OrderVar.vars) →
        OrderVar.bitsOf τ field width = OrderVar.bitsOf τ' field width :=
    fun field width mem => List.map_congr_left fun i hi =>
      same _ (mem i (List.mem_range.mp hi))
  simp only [OrderVar.sigM]
  congr 1
  simp only [List.cons.injEq, and_true]
  refine ⟨bits _ _ ?_, bits _ _ ?_, bits _ _ ?_, bits _ _ ?_, bits _ _ ?_, bits _ _ ?_,
    bits _ _ ?_, bits _ _ ?_⟩ <;>
  exact fun i hi => OrderVar.mem_vars.mpr (DualVar.bits_mem_vars hi)

/-- An order whose variables hold its values satisfies its constraints. -/
theorem OrderGadget.Constraints.of_values {order : Order} {τ : OrderVar → FieldT}
    (fits : order.Fits) (signature : order.SignatureValid P)
    (values : ∀ v ∈ OrderVar.vars, τ v = order.values v) : OrderGadget.Constraints P τ := by
  have dual : ∀ (field : DualVar → OrderVar) (width : ℕ) (x : FieldT), x.val < 2 ^ width →
      (∀ v, order.values (field v) = DualVar.value x v) →
      (∀ v ∈ DualVar.vars width, field v ∈ OrderVar.vars) →
      DualVariableGadget.Constraints width fun v => τ (field v) :=
    fun field width x fits value mem => DualVariableGadget.Constraints.of_values fits fun v hv =>
      (values _ (mem v hv)).trans (value v)
  have mem : ∀ v, v ∈ OrderVar.vars → τ v = order.values v := values
  refine ⟨dual _ _ _ fits.dexID (fun _ => rfl) ?_, dual _ _ _ fits.orderID (fun _ => rfl) ?_,
    dual _ _ _ fits.accountS (fun _ => rfl) ?_, dual _ _ _ fits.accountB (fun _ => rfl) ?_,
    dual _ _ _ fits.accountF (fun _ => rfl) ?_, dual _ _ _ fits.amountS (fun _ => rfl) ?_,
    dual _ _ _ fits.amountB (fun _ => rfl) ?_, dual _ _ _ fits.amountF (fun _ => rfl) ?_,
    dual _ 1 0 (by simp) (fun _ => rfl) ?_, ?_⟩
  any_goals exact fun v hv => OrderVar.mem_vars.mpr hv
  rw [OrderVar.sigM_congr values, mem _ (OrderVar.mem_vars.mpr trivial),
    mem _ (OrderVar.mem_vars.mpr trivial), mem _ (OrderVar.mem_vars.mpr trivial),
    mem _ (OrderVar.mem_vars.mpr trivial),
    List.map_congr_left fun i hi => mem (.sigS i) (OrderVar.mem_vars.mpr (List.mem_range.mp hi))]
  exact signature

/-- What the signature binds: `sig_m` agrees exactly when the signed fields do. -/
theorem OrderGadget.sigM_eq_iff {τ τ' : OrderVar → FieldT} (h : OrderGadget.Constraints P τ)
    (h' : OrderGadget.Constraints P τ') :
    OrderVar.sigM τ = OrderVar.sigM τ' ↔
      ∀ field ∈ [OrderVar.dexID, .orderID, .accountS, .accountB, .accountF, .amountS, .amountB,
        .amountF], τ (field .packed) = τ' (field .packed) := by
  -- a field's bits give its packed value, and its packed value its bits
  have packed {field : DualVar → OrderVar} {width : ℕ}
      (c : DualVariableGadget.Constraints width fun v => τ (field v))
      (c' : DualVariableGadget.Constraints width fun v => τ' (field v))
      (same : OrderVar.bitsOf τ field width = OrderVar.bitsOf τ' field width) :
      τ (field .packed) = τ' (field .packed) :=
    c.packing.trans ((congrArg packingSum same).trans c'.packing.symm)
  have bits {field : DualVar → OrderVar} {width : ℕ}
      (c : DualVariableGadget.Constraints width fun v => τ (field v))
      (c' : DualVariableGadget.Constraints width fun v => τ' (field v)) (short : width ≤ 253)
      (same : τ (field .packed) = τ' (field .packed)) :
      OrderVar.bitsOf τ field width = OrderVar.bitsOf τ' field width := by
    rw [OrderVar.bitsOf, OrderVar.bitsOf, c.bitsOf_eq short, c'.bitsOf_eq short, same]
  simp only [List.mem_cons, List.not_mem_nil, or_false, forall_eq_or_imp, forall_eq]
  constructor
  · intro same
    have fields := flatten_inj (by simp) same
    simp only [List.cons.injEq, and_true] at fields
    obtain ⟨dexID, orderID, accountS, accountB, accountF, amountS, amountB, amountF⟩ := fields
    exact ⟨packed h.dexID h'.dexID dexID, packed h.orderID h'.orderID orderID,
      packed h.accountS h'.accountS accountS, packed h.accountB h'.accountB accountB,
      packed h.accountF h'.accountF accountF, packed h.amountS h'.amountS amountS,
      packed h.amountB h'.amountB amountB, packed h.amountF h'.amountF amountF⟩
  · rintro ⟨dexID, orderID, accountS, accountB, accountF, amountS, amountB, amountF⟩
    simp only [OrderVar.sigM, bits h.dexID h'.dexID (by norm_num) dexID,
      bits h.orderID h'.orderID (by norm_num) orderID, bits h.accountS h'.accountS (by norm_num) accountS,
      bits h.accountB h'.accountB (by norm_num) accountB, bits h.accountF h'.accountF (by norm_num) accountF,
      bits h.amountS h'.amountS (by norm_num) amountS, bits h.amountB h'.amountB (by norm_num) amountB,
      bits h.amountF h'.amountF (by norm_num) amountF]

theorem sigM_eq_iff_on_tokenS_change :
    OrderGadget.Constraints Primitives.zero
        (⟨0, 0, 0, 0, 0, 0, 0, 0, 0, 0, 0, 0, 0, 0, 0, 0, 0⟩ : Order).values ∧
      OrderGadget.Constraints Primitives.zero
        (⟨0, 0, 0, 0, 0, 0, 0, 0, 0, 1, 0, 0, 0, 0, 0, 0, 0⟩ : Order).values ∧
      (OrderVar.sigM (⟨0, 0, 0, 0, 0, 0, 0, 0, 0, 0, 0, 0, 0, 0, 0, 0, 0⟩ : Order).values =
          OrderVar.sigM (⟨0, 0, 0, 0, 0, 0, 0, 0, 0, 1, 0, 0, 0, 0, 0, 0, 0⟩ : Order).values ↔
        ∀ field ∈ [OrderVar.dexID, .orderID, .accountS, .accountB, .accountF, .amountS, .amountB,
          .amountF], (⟨0, 0, 0, 0, 0, 0, 0, 0, 0, 0, 0, 0, 0, 0, 0, 0, 0⟩ : Order).values (field .packed) =
            (⟨0, 0, 0, 0, 0, 0, 0, 0, 0, 1, 0, 0, 0, 0, 0, 0, 0⟩ : Order).values (field .packed)) :=
  have fits : Order.Fits ⟨0, 0, 0, 0, 0, 0, 0, 0, 0, 0, 0, 0, 0, 0, 0, 0, 0⟩ := by
    constructor <;> decide
  have fits' : Order.Fits ⟨0, 0, 0, 0, 0, 0, 0, 0, 0, 1, 0, 0, 0, 0, 0, 0, 0⟩ := by
    constructor <;> decide
  have c := OrderGadget.Constraints.of_values Primitives.zero fits rfl fun _ _ => rfl
  have c' := OrderGadget.Constraints.of_values Primitives.zero fits' rfl fun _ _ => rfl
  ⟨c, c', OrderGadget.sigM_eq_iff Primitives.zero c c'⟩

theorem OrderGadget.run_generateR1csWitness [DecidableEq V] (name : OrderVar → V)
    (inj : Function.Injective name) (order : Order) (fits : order.Fits) (σ : Assignment V) :
    ∀ v ∈ OrderVar.vars, run (OrderGadget.generateR1csWitness name order) σ (name v) =
      order.values v := by
  obtain ⟨dexID, orderID, accountS, accountB, accountF, amountS, amountB, amountF⟩ := fits
  obtain ⟨σ1, h1⟩ := @exists_eq' _
    (run (DualVariableGadget.generateR1csWitness (name ∘ .dexID) 16 order.dexID) σ)
  obtain ⟨v1, -⟩ := DualVariableGadget.run_block inj _ (fun _ _ => OrderVar.dexID.inj) dexID h1
  obtain ⟨σ2, h2⟩ := @exists_eq' _
    (run (DualVariableGadget.generateR1csWitness (name ∘ .orderID) 4 order.orderID) σ1)
  obtain ⟨v2, f2⟩ := DualVariableGadget.run_block inj _ (fun _ _ => OrderVar.orderID.inj) orderID h2
  obtain ⟨σ3, h3⟩ := @exists_eq' _
    (run (DualVariableGadget.generateR1csWitness (name ∘ .accountS) 24 order.accountS) σ2)
  obtain ⟨v3, f3⟩ :=
    DualVariableGadget.run_block inj _ (fun _ _ => OrderVar.accountS.inj) accountS h3
  obtain ⟨σ4, h4⟩ := @exists_eq' _
    (run (DualVariableGadget.generateR1csWitness (name ∘ .accountB) 24 order.accountB) σ3)
  obtain ⟨v4, f4⟩ :=
    DualVariableGadget.run_block inj _ (fun _ _ => OrderVar.accountB.inj) accountB h4
  obtain ⟨σ5, h5⟩ := @exists_eq' _
    (run (DualVariableGadget.generateR1csWitness (name ∘ .accountF) 24 order.accountF) σ4)
  obtain ⟨v5, f5⟩ :=
    DualVariableGadget.run_block inj _ (fun _ _ => OrderVar.accountF.inj) accountF h5
  obtain ⟨σ6, h6⟩ := @exists_eq' _
    (run (DualVariableGadget.generateR1csWitness (name ∘ .amountS) 96 order.amountS) σ5)
  obtain ⟨v6, f6⟩ := DualVariableGadget.run_block inj _ (fun _ _ => OrderVar.amountS.inj) amountS h6
  obtain ⟨σ7, h7⟩ := @exists_eq' _
    (run (DualVariableGadget.generateR1csWitness (name ∘ .amountB) 96 order.amountB) σ6)
  obtain ⟨v7, f7⟩ := DualVariableGadget.run_block inj _ (fun _ _ => OrderVar.amountB.inj) amountB h7
  obtain ⟨σ8, h8⟩ := @exists_eq' _
    (run (DualVariableGadget.generateR1csWitness (name ∘ .amountF) 96 order.amountF) σ7)
  obtain ⟨v8, f8⟩ := DualVariableGadget.run_block inj _ (fun _ _ => OrderVar.amountF.inj) amountF h8
  obtain ⟨σ9, h9⟩ := @exists_eq' _
    (run (DualVariableGadget.generateR1csWitness (name ∘ .padding) 1 0) σ8)
  obtain ⟨v9, f9⟩ :=
    DualVariableGadget.run_block inj _ (fun _ _ => OrderVar.padding.inj) (by simp) h9
  have unfold : run (OrderGadget.generateR1csWitness name order) σ =
      run (fillWithBitsOfFieldElement (name ∘ .sigS) fieldSizeInBits order.sigS)
        (run [(name .tokenS, fun _ => order.tokenS), (name .tokenB, fun _ => order.tokenB),
          (name .tokenF, fun _ => order.tokenF), (name .publicKeyX, fun _ => order.publicKeyX),
          (name .publicKeyY, fun _ => order.publicKeyY), (name .sigRX, fun _ => order.sigRX),
          (name .sigRY, fun _ => order.sigRY)] σ9) := by
    simp only [OrderGadget.generateR1csWitness, run_append, h1, h2, h3, h4, h5, h6, h7, h8, h9]
  have signature : ∀ σ' u, u ∉ (List.range fieldSizeInBits).map OrderVar.sigS →
      run (fillWithBitsOfFieldElement (name ∘ .sigS) fieldSizeInBits order.sigS) σ' (name u) =
        σ' (name u) := run_frame inj _ (by simp [List.map_map])
  have same : ∀ a b, name a = name b ↔ a = b := fun _ _ => inj.eq_iff
  rw [unfold]
  simp only [OrderVar.vars, List.forall_mem_append, List.forall_mem_map, List.forall_mem_cons,
    List.not_mem_nil, false_imp_iff, implies_true, and_true, and_assoc]
  refine ⟨?_, ?_, ?_, ?_, ?_, ?_, ?_, ?_, ?_, ?_, ?_, ?_, ?_, ?_, ?_, ?_, ?_⟩
  -- the dual fields, read back through the blocks after theirs
  iterate 9
    intro a ha
    simp (disch := first | assumption | simp) only [signature, run_cons, run_nil,
      Function.update_apply, same, reduceCtorEq, if_false, f9, f8, f7, f6, f5, f4, f3, f2, v1, v2,
      v3, v4, v5, v6, v7, v8, v9, Order.values]
  -- the tokens, the key and `R`
  iterate 7
    simp (disch := simp) only [signature, run_cons, run_nil, Function.update_apply, same,
      reduceCtorEq, if_false, if_true, Order.values]
  -- the bits of `s`
  intro a ha
  exact run_range (name ∘ .sigS) (inj.comp fun _ _ => OrderVar.sigS.inj)
    (fun i _ => bitOf order.sigS.val i) (fun _ _ _ _ => rfl) _ _ (List.mem_range.mp ha)

/-- Completeness of `OrderGadget` on an order of the declared widths with a valid signature. -/
theorem OrderGadget.generateR1csWitness_spec [DecidableEq V] (name : OrderVar → V)
    (inj : Function.Injective name) (order : Order) (fits : order.Fits)
    (signature : order.SignatureValid P) (σ : Assignment V) :
    OrderGadget.Constraints P (run (OrderGadget.generateR1csWitness name order) σ ∘ name) := by
  have lift : ∀ ρ : Assignment V, (∀ v ∈ OrderVar.vars, ρ (name v) = order.values v) →
      OrderGadget.Constraints P (ρ ∘ name) := fun _ => OrderGadget.Constraints.of_values P fits signature
  exact lift _ (OrderGadget.run_generateR1csWitness name inj order fits σ)

/-! The Merkle update both `UpdateFilledGadget` and `UpdateBalanceGadget` make, with the members
they declare alike: the before-leaf is authenticated against the root
(`merkle_path_authenticator`), and the after-leaf is hashed up the same address and `proof`
(`markle_path_compute`). -/

/-- `TREE_DEPTH_FILLED` (`Constants.h`, not in the repository): the width of the address
`orderID ∥ accountS`, which `markle_path_compute` asserts it is. -/
def TREE_DEPTH_FILLED : ℕ := 4 + 24

/-- `TREE_DEPTH_ACCOUNTS` (`Constants.h`, not in the repository): the width of the address
`account`, which `markle_path_compute` asserts it is. -/
def TREE_DEPTH_ACCOUNTS : ℕ := 24

/-- The members both update gadgets declare: the two leaf hashers, the `proof` array and the two
paths. -/
inductive MerkleUpdateVar
  | leafBefore
  | leafAfter
  | proof (i : ℕ)
  | proofVerifierBefore (v : PathVar)
  | rootCalculatorAfter (v : PathVar)
  deriving DecidableEq

/-- The (address bit, sibling) levels of the paths: `merkle_tree_IVs`' depth is the width of the
address, and each bit is paired with the `proof` variable of its level. -/
def MerkleUpdateVar.levels (τ : MerkleUpdateVar → FieldT) (address : List FieldT) :
    List (FieldT × FieldT) :=
  address.zip ((List.range address.length).map fun i => τ (.proof i))

/-- The leaf hashers' constraints (`LongsightL12p5_MP_gadget` over the IV `ONE`), then the
authenticated before-path and the recomputed after-path, for the leaf messages
`messageBefore` and `messageAfter`. -/
structure MerkleUpdate.Constraints (merkleRootBefore : FieldT) (address : List FieldT)
    (messageBefore messageAfter : List FieldT) (τ : MerkleUpdateVar → FieldT) : Prop where
  leafBefore : τ .leafBefore = P.compress 1 messageBefore
  leafAfter : τ .leafAfter = P.compress 1 messageAfter
  proofVerifierBefore : marklePathCompute P (fun v => τ (.proofVerifierBefore v)) 0
    (τ .leafBefore) (MerkleUpdateVar.levels τ address)
  expectedRoot : marklePathResult (fun v => τ (.proofVerifierBefore v)) 0 (τ .leafBefore)
    (MerkleUpdateVar.levels τ address) * 1 = merkleRootBefore
  rootCalculatorAfter : marklePathCompute P (fun v => τ (.rootCalculatorAfter v)) 0
    (τ .leafAfter) (MerkleUpdateVar.levels τ address)

/-- `result()`: the root the after-path computes. -/
def MerkleUpdate.result (τ : MerkleUpdateVar → FieldT) (address : List FieldT) : FieldT :=
  marklePathResult (fun v => τ (.rootCalculatorAfter v)) 0 (τ .leafAfter)
    (MerkleUpdateVar.levels τ address)

/-- The variable `result()` returns in a tree of `depth` levels: the last hasher's. -/
def MerkleUpdateVar.result (depth : ℕ) : MerkleUpdateVar :=
  .rootCalculatorAfter (.hash (depth - 1))

/-- Modelled from the spec: `Data.h`'s `Proof` (not in the repository), a list of siblings. -/
structure Proof where
  data : List FieldT

/-- `proof.fill_with_field_elements(pb, _proof.data)` over the `depth` proof variables: element
`i` of the proof goes to variable `i`. libsnark only asserts that the sizes agree, so a shorter
proof leaves the remaining variables as they were; a longer one is cut at `depth`. -/
def fillWithFieldElements (vars : ℕ → V) (depth : ℕ) (proof : Proof) : List (Write V) :=
  (List.range (min depth proof.data.length)).map fun i => (vars i, fun _ => proof.data.getD i 0)

/-- The writes both update gadgets' `generate_r1cs_witness` make alike: the two leaves, the
proof, and the two paths' witnesses. -/
def MerkleUpdate.generateR1csWitness (name : MerkleUpdateVar → V) (address : List V)
    (messageBefore messageAfter : List V) (proof : Proof) : List (Write V) :=
  [(name .leafBefore, fun σ => P.compress 1 (messageBefore.map σ)),
    (name .leafAfter, fun σ => P.compress 1 (messageAfter.map σ))] ++
    fillWithFieldElements (name ∘ .proof) address.length proof ++
    marklePathWitness P (name ∘ .proofVerifierBefore) 0 (name .leafBefore)
      (address.zip ((List.range address.length).map (name ∘ .proof))) ++
    marklePathWitness P (name ∘ .rootCalculatorAfter) 0 (name .leafAfter)
      (address.zip ((List.range address.length).map (name ∘ .proof)))

/-- The variables the shared update's witness writes over an address of `depth` bits, `filled` of
its proof variables among them, in its order. -/
def MerkleUpdateVar.vars (depth filled : ℕ) : List MerkleUpdateVar :=
  [.leafBefore, .leafAfter] ++ (List.range filled).map .proof ++
    (PathVar.vars 0 depth).map .proofVerifierBefore ++
    (PathVar.vars 0 depth).map .rootCalculatorAfter

@[simp] theorem MerkleUpdate.targets_generateR1csWitness (name : MerkleUpdateVar → V)
    (address messageBefore messageAfter : List V) (proof : Proof) :
    (MerkleUpdate.generateR1csWitness P name address messageBefore messageAfter proof).map
      Prod.fst =
        (MerkleUpdateVar.vars address.length (min address.length proof.data.length)).map name := by
  simp [MerkleUpdate.generateR1csWitness, MerkleUpdateVar.vars, fillWithFieldElements,
    Function.comp_def]

/-! `UpdateFilledGadget` -/

/-- The variables an `UpdateFilledGadget` allocates (its `fill` is never used). -/
inductive UpdateFilledVar
  | fill (v : DualVar)
  | filledBefore
  | filledAfter
  | update (v : MerkleUpdateVar)
  deriving DecidableEq

/-- `UpdateFilledGadget::generate_r1cs_constraints(fill)`, the gadget having been built on
`merkleRootBefore` and `address`: `filledAfter = filledBefore + fill`, then the update of the
leaf `H(filled, filled)`. -/
structure UpdateFilledGadget.Constraints (merkleRootBefore : FieldT) (address : List FieldT)
    (fill : FieldT) (τ : UpdateFilledVar → FieldT) : Prop where
  filled : (τ .filledBefore + fill) * 1 = τ .filledAfter
  update : MerkleUpdate.Constraints P merkleRootBefore address [τ .filledBefore, τ .filledBefore]
    [τ .filledAfter, τ .filledAfter] fun v => τ (.update v)

/-- `UpdateFilledGadget::generate_r1cs_witness(filled, proof, fill)`. -/
def UpdateFilledGadget.generateR1csWitness (name : UpdateFilledVar → V) (address : List V)
    (fill : V) (filled : FieldT) (proof : Proof) : List (Write V) :=
  [(name .filledBefore, fun _ => filled),
    (name .filledAfter, fun σ => σ (name .filledBefore) + σ fill)] ++
    MerkleUpdate.generateR1csWitness P (name ∘ .update) address
      [name .filledBefore, name .filledBefore] [name .filledAfter, name .filledAfter] proof

/-- The variables an `UpdateFilledGadget`'s witness writes, in its order. -/
def UpdateFilledVar.vars (depth filled : ℕ) : List UpdateFilledVar :=
  [.filledBefore, .filledAfter] ++ (MerkleUpdateVar.vars depth filled).map .update

@[simp] theorem UpdateFilledGadget.targets_generateR1csWitness (name : UpdateFilledVar → V)
    (address : List V) (fill : V) (filled : FieldT) (proof : Proof) :
    (UpdateFilledGadget.generateR1csWitness P name address fill filled proof).map Prod.fst =
      (UpdateFilledVar.vars address.length (min address.length proof.data.length)).map name := by
  simp [UpdateFilledGadget.generateR1csWitness, UpdateFilledVar.vars, Function.comp_def]

/-- `UpdateFilledGadget::result()`. -/
def UpdateFilledVar.result : UpdateFilledVar := .update (MerkleUpdateVar.result TREE_DEPTH_FILLED)

/-! `UpdateBalanceGadget` -/

/-- The variables an `UpdateBalanceGadget` allocates (its `amount` is never used). -/
inductive UpdateBalanceVar
  | amount (v : DualVar)
  | update (v : MerkleUpdateVar)
  deriving DecidableEq

/-- `UpdateBalanceGadget::generate_r1cs_constraints(amount)`, the gadget having been built on
`merkleRootBefore`, `address`, the public key, the token and both balances: the update of the
leaf `H(publicKey.x, publicKey.y, token, balance)`. -/
def UpdateBalanceGadget.Constraints (merkleRootBefore : FieldT) (address : List FieldT)
    (publicKeyX publicKeyY token balanceBefore balanceAfter : FieldT)
    (τ : UpdateBalanceVar → FieldT) : Prop :=
  MerkleUpdate.Constraints P merkleRootBefore address [publicKeyX, publicKeyY, token, balanceBefore]
    [publicKeyX, publicKeyY, token, balanceAfter] fun v => τ (.update v)

/-- `UpdateBalanceGadget::generate_r1cs_witness(proof)`. -/
def UpdateBalanceGadget.generateR1csWitness (name : UpdateBalanceVar → V) (address : List V)
    (publicKeyX publicKeyY token balanceBefore balanceAfter : V) (proof : Proof) :
    List (Write V) :=
  MerkleUpdate.generateR1csWitness P (name ∘ .update) address
    [publicKeyX, publicKeyY, token, balanceBefore] [publicKeyX, publicKeyY, token, balanceAfter]
    proof

/-- The variables an `UpdateBalanceGadget`'s witness writes, in its order. -/
def UpdateBalanceVar.vars (depth filled : ℕ) : List UpdateBalanceVar :=
  (MerkleUpdateVar.vars depth filled).map .update

@[simp] theorem UpdateBalanceGadget.targets_generateR1csWitness (name : UpdateBalanceVar → V)
    (address : List V) (publicKeyX publicKeyY token balanceBefore balanceAfter : V)
    (proof : Proof) :
    (UpdateBalanceGadget.generateR1csWitness P name address publicKeyX publicKeyY token
      balanceBefore balanceAfter proof).map Prod.fst =
      (UpdateBalanceVar.vars address.length (min address.length proof.data.length)).map name := by
  simp [UpdateBalanceGadget.generateR1csWitness, UpdateBalanceVar.vars, Function.comp_def]

/-- `UpdateBalanceGadget::result()`. -/
def UpdateBalanceVar.result : UpdateBalanceVar :=
  .update (MerkleUpdateVar.result TREE_DEPTH_ACCOUNTS)

end Loopring
