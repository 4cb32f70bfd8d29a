import LoopringCircuit.Protoboard

set_option autoImplicit false

namespace Loopring

/-! libsnark's `comparison_gadget`, and the circuit's `LeqGadget` that asserts its `less_or_eq`.
For `n`-bit operands the gadget decomposes `2^n + B - A` into `n + 1` bits `alpha`, whose top
bit is the output `less_or_eq`; `not_all_zeros` is the disjunction of the `n` low bits. -/

/-- The variables a `comparison_gadget` allocates: the low bits of `alpha`, its packed value,
`not_all_zeros`, and the inverse its `disjunction_gadget` uses. -/
inductive ComparisonVar
  | alpha (i : ℕ)
  | alphaPacked
  | notAllZeros
  | inv
  deriving DecidableEq

/-- The `n + 1` bits of `alpha`: the gadget's own `n` low bits, then `less_or_eq`. -/
def ComparisonVar.alphaBits (τ : ComparisonVar → FieldT) (n : ℕ) (lessOrEq : FieldT) :
    List FieldT :=
  (List.range n).map (fun i => τ (.alpha i)) ++ [lessOrEq]

/-- The sum of the `n` low bits of `alpha`, the input of the disjunction. -/
def ComparisonVar.lowSum (τ : ComparisonVar → FieldT) (n : ℕ) : FieldT :=
  ((List.range n).map fun i => τ (.alpha i)).sum

/-- `comparison_gadget<FieldT>::generate_r1cs_constraints`, for operands `A`, `B` and outputs
`less`, `less_or_eq`. -/
structure ComparisonGadget.Constraints (n : ℕ) (A B : FieldT) (τ : ComparisonVar → FieldT)
    (less lessOrEq : FieldT) : Prop where
  notAllZeros : IsBoolean (τ .notAllZeros)
  alphaBitness : ∀ b ∈ ComparisonVar.alphaBits τ n lessOrEq, IsBoolean b
  packAlpha : τ .alphaPacked = packingSum (ComparisonVar.alphaBits τ n lessOrEq)
  main : 1 * (2 ^ n + B - A) = τ .alphaPacked
  allZerosTest : τ .inv * ComparisonVar.lowSum τ n = τ .notAllZeros ∧
    (1 - τ .notAllZeros) * ComparisonVar.lowSum τ n = 0
  less : lessOrEq * τ .notAllZeros = less

/-- The variables of a `LeqGadget`: `lt`, `leq`, and those of its comparison. -/
inductive LeqVar
  | lt
  | leq
  | comparison (v : ComparisonVar)
  deriving DecidableEq

/-- `LeqGadget::generate_r1cs_constraints`: a 128-bit comparison of `A` and `B`, and
`leq == 1`. -/
structure LeqGadget.Constraints (A B : FieldT) (τ : LeqVar → FieldT) : Prop where
  comparison : ComparisonGadget.Constraints 128 A B (fun v => τ (.comparison v)) (τ .lt) (τ .leq)
  leq : τ .leq * 1 = 1

section Witness

variable {V : Type}

/-- `comparison_gadget::generate_r1cs_witness`: `alpha_packed := 2^n + B - A`; its `n + 1`
bits unpacked from it (`packing_gadget::generate_r1cs_witness_from_packed`), the top one into
`less_or_eq`; the disjunction of the low bits with its inverse witness; then `less`. -/
def ComparisonGadget.generateR1csWitness (name : ComparisonVar → V) (n : ℕ) (A B less lessOrEq : V) :
    List (Write V) :=
  [(name .alphaPacked, fun σ => 2 ^ n + σ B - σ A)] ++
    (List.range n).map (fun i => (name (.alpha i), fun σ => bitOf (σ (name .alphaPacked)).val i)) ++
    [(lessOrEq, fun σ => bitOf (σ (name .alphaPacked)).val n),
      (name .inv, fun σ => (ComparisonVar.lowSum (σ ∘ name) n)⁻¹),
      (name .notAllZeros, fun σ => if ComparisonVar.lowSum (σ ∘ name) n = 0 then 0 else 1),
      (less, fun σ => σ lessOrEq * σ (name .notAllZeros))]

/-- `LeqGadget::generate_r1cs_witness`: the comparison's witness, with `lt` and `leq` its
outputs. -/
def LeqGadget.generateR1csWitness (name : LeqVar → V) (A B : V) : List (Write V) :=
  ComparisonGadget.generateR1csWitness (name ∘ .comparison) 128 A B (name .lt) (name .leq)

/-- The variables of a `LeqGadget`, in the order its witness writes them. -/
def LeqVar.vars : List LeqVar :=
  [.comparison .alphaPacked] ++ (List.range 128).map (.comparison ∘ .alpha) ++
    [.leq, .comparison .inv, .comparison .notAllZeros, .lt]

@[simp] theorem LeqGadget.targets_generateR1csWitness (name : LeqVar → V) (A B : V) :
    (LeqGadget.generateR1csWitness name A B).map Prod.fst = LeqVar.vars.map name := by
  simp [LeqGadget.generateR1csWitness, ComparisonGadget.generateR1csWitness, LeqVar.vars,
    Function.comp_def]

end Witness

theorem bitsValue_append_one (bits : List FieldT) :
    bitsValue (bits ++ [1]) = bitsValue bits + 2 ^ bits.length := by
  induction bits with
  | nil => simp [bitsValue, ZMod.val_one]
  | cons b bs ih =>
    rw [List.cons_append, bitsValue, bitsValue, ih, List.length_cons, pow_succ]
    ring

theorem val_two_pow_add_sub (n : ℕ) (A B : FieldT) (short : n ≤ 251) (hA : A.val ≤ 2 ^ n)
    (hB : B.val < 2 ^ n) : (2 ^ n + B - A).val = 2 ^ n + B.val - A.val := by
  have bound : 2 ^ n + B.val - A.val < r := by
    have : 2 ^ n ≤ 2 ^ 251 := Nat.pow_le_pow_right (by norm_num) short
    have := two_pow_253_lt_r
    omega
  have cast : ((2 ^ n + B.val - A.val : ℕ) : FieldT) = 2 ^ n + B - A := by
    rw [Nat.cast_sub (by omega), Nat.cast_add, Nat.cast_pow, ZMod.natCast_zmod_val,
      ZMod.natCast_zmod_val, Nat.cast_ofNat]
  rw [← cast, ZMod.val_cast_of_lt bound]

theorem ComparisonGadget.Constraints.val_alpha {n : ℕ} {A B : FieldT} {τ : ComparisonVar → FieldT}
    {less lessOrEq : FieldT} (h : ComparisonGadget.Constraints n A B τ less lessOrEq)
    (short : n ≤ 251) (hA : A.val ≤ 2 ^ n) (hB : B.val < 2 ^ n) :
    bitsValue (ComparisonVar.alphaBits τ n lessOrEq) = 2 ^ n + B.val - A.val := by
  rw [← val_two_pow_add_sub n A B short hA hB, ← one_mul (2 ^ n + B - A), h.main, h.packAlpha,
    val_packingSum _ h.alphaBitness (by simp [ComparisonVar.alphaBits]; omega)]

/-- Soundness of `LeqGadget`: on operands below `2^128` it asserts `A ≤ B`. -/
theorem LeqGadget.Constraints.le {A B : FieldT} {τ : LeqVar → FieldT}
    (h : LeqGadget.Constraints A B τ) (hA : A.val < 2 ^ 128) (hB : B.val < 2 ^ 128) :
    A.val ≤ B.val := by
  have value := h.comparison.val_alpha (by norm_num) hA.le hB
  have top : τ .leq = 1 := by simpa using h.leq
  rw [ComparisonVar.alphaBits, top, bitsValue_append_one] at value
  simp only [List.length_map, List.length_range] at value
  omega

theorem ComparisonVar.lowSum_congr {τ τ' : ComparisonVar → FieldT} {n : ℕ}
    (same : ∀ i < n, τ (.alpha i) = τ' (.alpha i)) :
    ComparisonVar.lowSum τ n = ComparisonVar.lowSum τ' n :=
  congrArg List.sum (List.map_congr_left fun i hi => same i (List.mem_range.mp hi))

theorem testBit_two_pow_add_sub {n a b : ℕ} (le : a ≤ b) (hb : b < 2 ^ n) :
    (2 ^ n + b - a).testBit n = true := by
  rw [show 2 ^ n + b - a = 2 ^ n + (b - a) by omega, Nat.testBit_two_pow_add_eq,
    Nat.testBit_lt_two_pow (by omega)]
  rfl

/-- Completeness of `LeqGadget` on operands below `2^128` with `A ≤ B`. -/
theorem LeqGadget.generateR1csWitness_spec {V : Type} [DecidableEq V] (name : LeqVar → V)
    (inj : Function.Injective name) (A B : V) (σ : Assignment V) (hA : (σ A).val < 2 ^ 128) (hB : (σ B).val < 2 ^ 128)
    (le : (σ A).val ≤ (σ B).val) :
    LeqGadget.Constraints (σ A) (σ B) (run (LeqGadget.generateR1csWitness name A B) σ ∘ name) := by
  have ne : ∀ u v : LeqVar, u ≠ v → name u ≠ name v := fun _ _ h => inj.ne h
  have value : (2 ^ 128 + σ B - σ A : FieldT).val = 2 ^ 128 + (σ B).val - (σ A).val :=
    val_two_pow_add_sub 128 _ _ (by norm_num) hA.le hB
  have top : bitOf (2 ^ 128 + σ B - σ A : FieldT).val 128 = 1 := by
    rw [bitOf, value, testBit_two_pow_add_sub le hB, if_pos rfl]
  -- the state after `alpha_packed` and its low bits
  obtain ⟨σ₂, hσ₂⟩ : ∃ σ₂, run ((List.range 128).map fun i => (name (.comparison (.alpha i)),
      fun σ : Assignment V => bitOf (σ (name (.comparison .alphaPacked))).val i))
      (Function.update σ (name (.comparison .alphaPacked)) (2 ^ 128 + σ B - σ A)) = σ₂ :=
    ⟨_, rfl⟩
  have alphaOf : ∀ v ∈ ((List.range 128).map fun i => (name (.comparison (.alpha i)),
      fun σ : Assignment V => bitOf (σ (name (.comparison .alphaPacked))).val i)).map Prod.fst,
      v ∈ Set.range fun i => name (.comparison (.alpha i)) :=
    fun v h => let ⟨j, _, hj⟩ := mem_range_writes h; ⟨j, hj.symm⟩
  have packed₂ : σ₂ (name (.comparison .alphaPacked)) = 2 ^ 128 + σ B - σ A := by
    rw [← hσ₂, run_outside_range _ _ _ alphaOf fun ⟨j, hj⟩ => by simp [inj.eq_iff] at hj]
    exact Function.update_same _ _ _
  have alpha₂ : ∀ i < 128, σ₂ (name (.comparison (.alpha i))) =
      bitOf (2 ^ 128 + σ B - σ A : FieldT).val i := fun i hi => by
    rw [← hσ₂, run_range _ (fun _ _ h => by simpa [inj.eq_iff] using h) _ (fun j ρ ρ' same => by
      rw [same _ fun ⟨k, hk⟩ => by simp [inj.eq_iff] at hk]) 128 _ hi]
    exact congrArg (fun x : FieldT => bitOf x.val i) (Function.update_same _ _ _)
  -- the last four writes, in which every reader of the low bits sees their sum `S`
  obtain ⟨S, hS⟩ : ∃ S, ComparisonVar.lowSum (fun v => σ₂ (name (.comparison v))) 128 = S :=
    ⟨_, rfl⟩
  have low : ∀ τ : Assignment V, (∀ i, τ (name (.comparison (.alpha i))) =
      σ₂ (name (.comparison (.alpha i)))) →
        ComparisonVar.lowSum (fun v => τ (name (.comparison v))) 128 = S :=
    fun τ same => hS ▸ ComparisonVar.lowSum_congr fun i _ => same i
  have d1 : name .leq ≠ name (.comparison .notAllZeros) := ne _ _ (by simp)
  have d2 : name .leq ≠ name (.comparison .inv) := ne _ _ (by simp)
  have d3 : name .leq ≠ name .lt := ne _ _ (by simp)
  have unfold : run (LeqGadget.generateR1csWitness name A B) σ =
      Function.update (Function.update (Function.update (Function.update σ₂
        (name .leq) 1) (name (.comparison .inv)) S⁻¹)
        (name (.comparison .notAllZeros)) (if S = 0 then 0 else 1))
        (name .lt) (if S = 0 then 0 else 1) := by
    simp only [LeqGadget.generateR1csWitness, ComparisonGadget.generateR1csWitness, run_append,
      run_cons, run_nil, Function.comp_def, hσ₂, packed₂, top]
    rw [low _ fun i => Function.update_noteq (ne _ _ (by simp)) _ _]
    have h1 : ∀ i, Function.update (Function.update σ₂ (name .leq) 1) (name (.comparison .inv)) S⁻¹ (name (.comparison (.alpha i))) = σ₂ (name (.comparison (.alpha i))) := fun i => by
      rw [Function.update_noteq (ne _ _ (by simp)), Function.update_noteq (ne _ _ (by simp))]
    simp only [low _ h1, Function.update_same, Function.update_noteq d1, Function.update_noteq d2,
      one_mul]
  have ρAlpha : ∀ i, run (LeqGadget.generateR1csWitness name A B) σ (name (.comparison (.alpha i))) =
      σ₂ (name (.comparison (.alpha i))) := fun i => by simp [unfold, Function.update_apply, inj.eq_iff]
  have ρLeq : run (LeqGadget.generateR1csWitness name A B) σ (name .leq) = 1 := by
    simp only [unfold, Function.update_noteq d1, Function.update_noteq d2,
      Function.update_noteq d3, Function.update_same]
  have ρPacked : run (LeqGadget.generateR1csWitness name A B) σ (name (.comparison .alphaPacked)) =
      2 ^ 128 + σ B - σ A := by
    simp only [unfold, Function.update_apply, inj.eq_iff, reduceCtorEq, if_false, LeqVar.comparison.injEq, packed₂]
  have ρInv : run (LeqGadget.generateR1csWitness name A B) σ (name (.comparison .inv)) = S⁻¹ := by
    simp only [unfold, Function.update_apply, inj.eq_iff, reduceCtorEq, if_false, if_true, LeqVar.comparison.injEq]
  have ρNotAllZeros : run (LeqGadget.generateR1csWitness name A B) σ
      (name (.comparison .notAllZeros)) = if S = 0 then 0 else 1 := by
    simp only [unfold, Function.update_apply, inj.eq_iff, reduceCtorEq, if_false, if_true, LeqVar.comparison.injEq]
  have ρLt : run (LeqGadget.generateR1csWitness name A B) σ (name .lt) = if S = 0 then 0 else 1 := by
    simp only [unfold, Function.update_same]
  have bits : ComparisonVar.alphaBits (fun v => run (LeqGadget.generateR1csWitness name A B) σ
      (name (.comparison v))) 128 (run (LeqGadget.generateR1csWitness name A B) σ (name .leq)) =
      (List.range 128).map (bitOf (2 ^ 128 + σ B - σ A : FieldT).val) ++ [1] := by
    simp only [ComparisonVar.alphaBits, ρLeq]
    rw [List.map_congr_left fun i hi => by rw [ρAlpha, alpha₂ i (List.mem_range.mp hi)]]
  have lowρ := low _ ρAlpha
  rw [Function.comp_def]
  refine ⟨⟨?_, ?_, ?_, ?_, ⟨?_, ?_⟩, ?_⟩, ?_⟩
  all_goals beta_reduce
  · rw [ρNotAllZeros]
    split <;> simp [IsBoolean]
  · rw [bits]
    intro b mem
    rcases List.mem_append.mp mem with mem | mem
    · obtain ⟨i, -, rfl⟩ := List.mem_map.mp mem
      exact bitOf_isBoolean _ _
    · rw [List.mem_singleton.mp mem]
      simp [IsBoolean]
  · rw [bits, ρPacked, ← top, ← List.map_singleton, ← List.map_append, ← List.range_succ,
      packingSum_bitOf (by rw [value]; omega)]
  · rw [one_mul, ρPacked]
  · rw [ρInv, lowρ, ρNotAllZeros]
    split
    · simp [*]
    · exact inv_mul_cancel₀ ‹_›
  · rw [lowρ, ρNotAllZeros]
    split <;> simp [*]
  · rw [ρLeq, ρNotAllZeros, ρLt, one_mul]
  · rw [ρLeq, mul_one]

end Loopring
