import LoopringCircuit.Field

set_option autoImplicit false

namespace Loopring

/-! The protoboard: an assignment of a field element to every variable, the witness pass as the
sequence of its writes, and the libsnark pieces every gadget of the circuit is built from. -/

section Writes

variable {V : Type} [DecidableEq V]

/-- A value for every variable of the protoboard. -/
abbrev Assignment (V : Type) : Type := V → FieldT

/-- One `pb.val(x) = e` of a witness pass: the variable, and `e` read from the assignment as it
stands when the write happens. -/
abbrev Write (V : Type) : Type := V × (Assignment V → FieldT)

/-- A witness pass: its writes in order, each one seeing those before it. -/
def run : List (Write V) → Assignment V → Assignment V
  | [], σ => σ
  | w :: ws, σ => run ws (Function.update σ w.1 (w.2 σ))

@[simp] theorem run_nil (σ : Assignment V) : run [] σ = σ := rfl

@[simp] theorem run_cons (w : Write V) (ws : List (Write V)) (σ : Assignment V) :
    run (w :: ws) σ = run ws (Function.update σ w.1 (w.2 σ)) := rfl

theorem run_append (ws ws' : List (Write V)) (σ : Assignment V) :
    run (ws ++ ws') σ = run ws' (run ws σ) := by
  induction ws generalizing σ with
  | nil => rfl
  | cons w ws ih => exact ih _

/-- A variable that no write targets keeps its value. -/
theorem run_outside (ws : List (Write V)) (σ : Assignment V) (v : V)
    (untouched : v ∉ ws.map Prod.fst) : run ws σ v = σ v := by
  induction ws generalizing σ with
  | nil => rfl
  | cons w ws ih =>
    simp only [List.map_cons, List.mem_cons, not_or] at untouched
    rw [run_cons, ih _ untouched.2, Function.update_noteq untouched.1]

/-- A written variable holds a value one of its writes can give. -/
theorem run_of_written {Q : FieldT → Prop} (ws : List (Write V)) (x : V)
    (written : x ∈ ws.map Prod.fst) (values : ∀ w ∈ ws, w.1 = x → ∀ σ, Q (w.2 σ))
    (σ : Assignment V) : Q (run ws σ x) := by
  induction ws generalizing σ with
  | nil => exact absurd written (List.not_mem_nil _)
  | cons w ws ih =>
    rw [run_cons]
    by_cases later : x ∈ ws.map Prod.fst
    · exact ih later (fun w' mem => values w' (List.mem_cons_of_mem _ mem)) _
    · have first : w.1 = x := by simpa [later, eq_comm] using written
      rw [run_outside _ _ _ later, ← first, Function.update_same]
      exact values w (List.mem_cons_self _ _) first σ

theorem run_outside_range {W : Type} (ws : List (Write V)) (σ : Assignment V) (f : W → V)
    (targets : ∀ v ∈ ws.map Prod.fst, v ∈ Set.range f) {x : V} (outside : x ∉ Set.range f) :
    run ws σ x = σ x :=
  run_outside ws σ x fun h => outside (targets x h)

theorem run_frame {W : Type} {name : W → V} (inj : Function.Injective name) {ws : List (Write V)}
    (l : List W) (targets : ws.map Prod.fst = l.map name) (σ : Assignment V) (u : W)
    (other : u ∉ l) : run ws σ (name u) = σ (name u) :=
  run_outside ws σ _ fun h => other (by
    rw [targets, List.mem_map] at h
    obtain ⟨a, mem, same⟩ := h
    exact inj same ▸ mem)

section Members

variable {W : Type} (name : W → V)

/-- Every write of a pass goes to a variable `name u` with `p u`: the pass writes only some
members of a gadget whose variables `name` gives. -/
def WritesOnly (p : W → Prop) (ws : List (Write V)) : Prop :=
  ∀ x ∈ ws.map Prod.fst, ∃ u, p u ∧ name u = x

variable {name} {p : W → Prop} {ws ws' : List (Write V)}

omit [DecidableEq V] in
theorem WritesOnly.append (first : WritesOnly name p ws) (second : WritesOnly name p ws') :
    WritesOnly name p (ws ++ ws') := fun x mem => by
  rw [List.map_append, List.mem_append] at mem
  exact mem.elim (first x) (second x)

omit [DecidableEq V] in
theorem WritesOnly.mono {q : W → Prop} (h : WritesOnly name p ws) (imp : ∀ u, p u → q u) :
    WritesOnly name q ws := fun x mem => let ⟨u, own, same⟩ := h x mem; ⟨u, imp u own, same⟩

omit [DecidableEq V] in
theorem WritesOnly.flatMap {D : Type} {block : D → List (Write V)} :
    ∀ {ds : List D}, (∀ d ∈ ds, WritesOnly name p (block d)) →
      WritesOnly name p (ds.flatMap block)
  | [], _ => fun _ absent => absurd absent (List.not_mem_nil _)
  | d :: _, each => by
    rw [List.flatMap_cons]
    exact (each d (List.mem_cons_self _ _)).append
      (WritesOnly.flatMap fun d' listed => each d' (List.mem_cons_of_mem _ listed))

omit [DecidableEq V] in
theorem WritesOnly.of_targets {W' : Type} (f : W' → W) (l : List W') (own : ∀ w ∈ l, p (f w))
    (targets : ws.map Prod.fst = l.map (name ∘ f)) : WritesOnly name p ws := fun x mem => by
  rw [targets] at mem
  obtain ⟨w, listed, rfl⟩ := List.mem_map.mp mem
  exact ⟨f w, own w listed, rfl⟩

/-- The other members keep their values. -/
theorem WritesOnly.run_name (h : WritesOnly name p ws) (inj : Function.Injective name)
    (σ : Assignment V) (u : W) (other : ¬ p u) : run ws σ (name u) = σ (name u) :=
  run_outside ws σ _ fun mem => let ⟨_, own, same⟩ := h _ mem; other (inj same ▸ own)

/-- The variables of other gadgets keep their values. -/
theorem WritesOnly.run_other (h : WritesOnly name p ws) (σ : Assignment V) {x : V}
    (outside : x ∉ Set.range name) : run ws σ x = σ x :=
  run_outside ws σ x fun mem => let ⟨u, _, same⟩ := h _ mem; outside ⟨u, same⟩

end Members

omit [DecidableEq V] in
/-- The variables a loop `for j < width: pb.val(vars j) = f j` writes. -/
@[simp] theorem targets_range (vars : ℕ → V) (f : ℕ → Assignment V → FieldT) (width : ℕ) :
    ((List.range width).map fun j => (vars j, f j)).map Prod.fst = (List.range width).map vars := by
  simp [Function.comp_def]

omit [DecidableEq V] in
theorem mem_range_writes {vars : ℕ → V} {f : ℕ → Assignment V → FieldT} {width : ℕ} {v : V}
    (h : v ∈ ((List.range width).map fun j => (vars j, f j)).map Prod.fst) :
    ∃ i < width, v = vars i := by
  rw [targets_range] at h
  simp only [List.mem_map, List.mem_range] at h
  obtain ⟨i, hi, rfl⟩ := h
  exact ⟨i, hi, rfl⟩

/-- The loop `for j < width: pb.val(vars j) = f j`, each `f j` reading none of the `vars`. -/
theorem run_range (vars : ℕ → V) (inj : Function.Injective vars) (f : ℕ → Assignment V → FieldT)
    (reads : ∀ j (σ σ' : Assignment V), (∀ x, x ∉ Set.range vars → σ x = σ' x) → f j σ = f j σ') :
    ∀ (width : ℕ) (σ : Assignment V) {i : ℕ}, i < width →
      run ((List.range width).map fun j => (vars j, f j)) σ (vars i) = f i σ
  | 0, _, _, h => absurd h (Nat.not_lt_zero _)
  | width + 1, σ, i, h => by
    rw [List.range_succ, List.map_append, run_append, List.map_singleton, run_cons, run_nil]
    by_cases last : i = width
    · subst last
      rw [Function.update_same]
      exact reads _ _ _ fun x outside => run_outside_range _ _ vars
        (fun v mem => let ⟨j, _, hj⟩ := mem_range_writes mem; ⟨j, hj.symm⟩) outside
    · rw [Function.update_noteq (inj.ne last)]
      exact run_range vars inj f reads width σ (by omega)

end Writes

/-! Booleans and bit arrays. -/

/-- `generate_boolean_r1cs_constraint`: the constraint `x * (1 - x) = 0`. -/
def IsBoolean (x : FieldT) : Prop := x * (1 - x) = 0

theorem isBoolean_iff {x : FieldT} : IsBoolean x ↔ x = 0 ∨ x = 1 := by
  rw [IsBoolean, mul_eq_zero, sub_eq_zero, @eq_comm _ (1 : FieldT)]

theorem IsBoolean.val_le_one {x : FieldT} (boolean : IsBoolean x) : x.val ≤ 1 := by
  rcases isBoolean_iff.mp boolean with rfl | rfl <;> simp [ZMod.val_one]

/-- `pb_packing_sum`: the little-endian value `Σ 2^i * bits[i]` of a bit array, in the field. -/
def packingSum : List FieldT → FieldT
  | [] => 0
  | b :: bs => b + 2 * packingSum bs

/-- The little-endian value of a bit array over the canonical representatives, in `ℕ`. -/
def bitsValue : List FieldT → ℕ
  | [] => 0
  | b :: bs => b.val + 2 * bitsValue bs

@[simp] theorem cast_bitsValue (bits : List FieldT) : (bitsValue bits : FieldT) = packingSum bits := by
  induction bits with
  | nil => rfl
  | cons b bs ih => simp [bitsValue, packingSum, ih]

theorem bitsValue_lt (bits : List FieldT) (boolean : ∀ b ∈ bits, IsBoolean b) :
    bitsValue bits < 2 ^ bits.length := by
  induction bits with
  | nil => simp [bitsValue]
  | cons b bs ih =>
    have head := (boolean b (List.mem_cons_self _ _)).val_le_one
    have tail := ih fun c hc => boolean c (List.mem_cons_of_mem _ hc)
    simp only [bitsValue, List.length_cons, pow_succ]
    omega

/-- A sum of at most 253 bits does not wrap modulo `r`. -/
theorem val_packingSum (bits : List FieldT) (boolean : ∀ b ∈ bits, IsBoolean b)
    (short : bits.length ≤ 253) : (packingSum bits).val = bitsValue bits := by
  have small : bitsValue bits < r :=
    (bitsValue_lt bits boolean).trans_le
      ((Nat.pow_le_pow_right (by norm_num) short).trans two_pow_253_lt_r.le)
  rw [← cast_bitsValue, ZMod.val_cast_of_lt small]

/-- Bit `i` of `n`, as a field element. -/
def bitOf (n i : ℕ) : FieldT := if n.testBit i then 1 else 0

theorem bitOf_isBoolean (n i : ℕ) : IsBoolean (bitOf n i) := by
  unfold bitOf; split <;> simp [isBoolean_iff]

theorem bitsValue_bitOf (n : ℕ) :
    ∀ width, bitsValue ((List.range width).map (bitOf n)) = n % 2 ^ width := by
  intro width
  induction width generalizing n with
  | zero => simp [bitsValue, Nat.mod_one]
  | succ width ih =>
    have low : (bitOf n 0).val = n % 2 := by
      unfold bitOf
      rcases Nat.mod_two_eq_zero_or_one n with h | h <;> simp [Nat.testBit_zero, h, ZMod.val_one]
    have shift : (List.range width).map (fun i => bitOf n (i + 1)) =
        (List.range width).map (bitOf (n / 2)) := by
      simp [bitOf, Nat.testBit_succ]
    rw [List.range_succ_eq_map, List.map_cons, List.map_map, bitsValue, low]
    simp only [Function.comp_def, shift, ih, pow_succ, mul_comm (2 ^ width) 2, Nat.mod_mul]

/-- A list of bits is the binary digits of its value, least significant first. -/
theorem eq_bitOf_bitsValue : ∀ bits : List FieldT, (∀ b ∈ bits, IsBoolean b) →
    bits = (List.range bits.length).map (bitOf (bitsValue bits))
  | [], _ => rfl
  | b :: bs, boolean => by
    have head := boolean b (List.mem_cons_self _ _)
    have tail := eq_bitOf_bitsValue bs fun c hc => boolean c (List.mem_cons_of_mem _ hc)
    have half : (b.val + 2 * bitsValue bs) / 2 = bitsValue bs := by
      have := head.val_le_one
      omega
    rw [List.length_cons, List.range_succ_eq_map, List.map_cons, List.map_map]
    congr 1
    · rcases isBoolean_iff.mp head with rfl | rfl <;>
        simp [bitOf, bitsValue, Nat.testBit_zero, ZMod.val_one]
    · conv_lhs => rw [tail]
      exact List.map_congr_left fun i _ => by
        simp only [Function.comp_apply, bitOf, bitsValue, Nat.testBit_succ, half]

/-! `dual_variable_gadget`: a value and its bit decomposition. -/

/-- The variables of a `dual_variable_gadget`: its bits, least significant first, and the
packed value. -/
inductive DualVar
  | bits (i : ℕ)
  | packed
  deriving DecidableEq

/-- The variables of a dual variable of `width` bits, in the order its witness writes them. -/
def DualVar.vars (width : ℕ) : List DualVar := (List.range width).map .bits ++ [.packed]

theorem DualVar.bits_mem_vars {width i : ℕ} (hi : i < width) : DualVar.bits i ∈ DualVar.vars width :=
  List.mem_append_left _ (List.mem_map_of_mem _ (List.mem_range.mpr hi))

theorem DualVar.packed_mem_vars (width : ℕ) : DualVar.packed ∈ DualVar.vars width :=
  List.mem_append_right _ (List.mem_singleton_self _)

/-- The value a dual variable holding `x` gives each of its variables. -/
def DualVar.value (x : FieldT) : DualVar → FieldT
  | .bits i => bitOf x.val i
  | .packed => x

theorem DualVar.value_zero : DualVar.value 0 = fun _ => 0 :=
  funext fun v => by cases v <;> simp [DualVar.value, bitOf]

/-- The bit array of a dual variable of `width` bits: its variables, or their values. -/
def DualVar.bitsOf {α : Type} (τ : DualVar → α) (width : ℕ) : List α :=
  (List.range width).map fun i => τ (.bits i)

@[simp] theorem DualVar.length_bitsOf {α : Type} (τ : DualVar → α) (width : ℕ) :
    (DualVar.bitsOf τ width).length = width := by simp [DualVar.bitsOf]

@[simp] theorem DualVar.map_bitsOf {α β : Type} (f : α → β) (τ : DualVar → α) (width : ℕ) :
    (DualVar.bitsOf τ width).map f = DualVar.bitsOf (f ∘ τ) width := by
  simp [DualVar.bitsOf, Function.comp_def]

/-- `dual_variable_gadget::generate_r1cs_constraints(true)`, the only form the circuit uses:
every bit is boolean and the packed value is their sum. -/
structure DualVariableGadget.Constraints (width : ℕ) (τ : DualVar → FieldT) : Prop where
  bitness : ∀ i < width, IsBoolean (τ (.bits i))
  packing : τ .packed = packingSum (DualVar.bitsOf τ width)

namespace DualVariableGadget.Constraints

variable {width : ℕ} {τ : DualVar → FieldT}

theorem boolean_bitsOf (h : Constraints width τ) : ∀ b ∈ DualVar.bitsOf τ width, IsBoolean b := by
  simp only [DualVar.bitsOf, List.mem_map, List.mem_range]
  rintro _ ⟨i, hi, rfl⟩
  exact h.bitness i hi

theorem val_packed (h : Constraints width τ) (short : width ≤ 253) :
    (τ .packed).val = bitsValue (DualVar.bitsOf τ width) := by
  rw [h.packing, val_packingSum _ h.boolean_bitsOf (by simpa using short)]

theorem val_packed_lt (h : Constraints width τ) (short : width ≤ 253) :
    (τ .packed).val < 2 ^ width := by
  rw [h.val_packed short]
  simpa using bitsValue_lt _ h.boolean_bitsOf

/-- The bits of a dual variable of at most 253 bits are the digits of its packed value. -/
theorem bitsOf_eq (h : Constraints width τ) (short : width ≤ 253) :
    DualVar.bitsOf τ width = (List.range width).map (bitOf (τ .packed).val) := by
  have digits := eq_bitOf_bitsValue _ h.boolean_bitsOf
  rwa [DualVar.length_bitsOf, ← h.val_packed short] at digits

end DualVariableGadget.Constraints

section DualWitness

variable {V : Type} [DecidableEq V]

/-- `bits.fill_with_bits_of_field_element(pb, x)` on the `width` variables `bits i`: bit `i` of
the canonical representative of `x`. -/
def fillWithBitsOfFieldElement (bits : ℕ → V) (width : ℕ) (x : FieldT) : List (Write V) :=
  (List.range width).map fun i => (bits i, fun _ => bitOf x.val i)

/-- `dual_variable_gadget::generate_r1cs_witness_from_bits`: the packed value from the bits. -/
def DualVariableGadget.generateR1csWitnessFromBits (name : DualVar → V) (width : ℕ) : Write V :=
  (name .packed, fun σ => packingSum ((List.range width).map fun i => σ (name (.bits i))))

/-- Filling a dual variable from `x` and packing it, as every dual variable of the circuit is
filled. -/
def DualVariableGadget.generateR1csWitness (name : DualVar → V) (width : ℕ) (x : FieldT) :
    List (Write V) :=
  fillWithBitsOfFieldElement (name ∘ .bits) width x ++
    [DualVariableGadget.generateR1csWitnessFromBits name width]

omit [DecidableEq V] in
@[simp] theorem targets_fillWithBitsOfFieldElement (bits : ℕ → V) (width : ℕ) (x : FieldT) :
    (fillWithBitsOfFieldElement bits width x).map Prod.fst = (List.range width).map bits :=
  targets_range _ _ _

omit [DecidableEq V] in
@[simp] theorem DualVariableGadget.targets_generateR1csWitness (name : DualVar → V) (width : ℕ)
    (x : FieldT) :
    (DualVariableGadget.generateR1csWitness name width x).map Prod.fst =
      (DualVar.vars width).map name := by
  simp [DualVariableGadget.generateR1csWitness, DualVariableGadget.generateR1csWitnessFromBits,
    DualVar.vars, Function.comp_def]

theorem packingSum_bitOf {width : ℕ} {x : FieldT} (fits : x.val < 2 ^ width) :
    packingSum ((List.range width).map (bitOf x.val)) = x := by
  rw [← cast_bitsValue, bitsValue_bitOf, Nat.mod_eq_of_lt fits, ZMod.natCast_zmod_val]

/-- Completeness of a dual variable filled from a value `x` of `width` bits. -/
theorem DualVariableGadget.generateR1csWitness_spec (name : DualVar → V)
    (inj : Function.Injective name) (width : ℕ) (x : FieldT) (σ : Assignment V) :
    (∀ i < width, run (DualVariableGadget.generateR1csWitness name width x) σ (name (.bits i)) =
      bitOf x.val i) ∧
    DualVariableGadget.Constraints width
      (run (DualVariableGadget.generateR1csWitness name width x) σ ∘ name) ∧
    (x.val < 2 ^ width →
      run (DualVariableGadget.generateR1csWitness name width x) σ (name .packed) = x) := by
  set σ₁ := run (fillWithBitsOfFieldElement (name ∘ .bits) width x) σ
  have bits₁ : ∀ i < width, σ₁ (name (.bits i)) = bitOf x.val i := fun i hi =>
    run_range (name ∘ .bits) (inj.comp fun _ _ h => DualVar.bits.inj h) (fun i _ => bitOf x.val i)
      (fun _ _ _ _ => rfl) width σ hi
  have unfold : run (DualVariableGadget.generateR1csWitness name width x) σ =
      Function.update σ₁ (name .packed)
        (packingSum ((List.range width).map fun i => σ₁ (name (.bits i)))) := by
    rw [DualVariableGadget.generateR1csWitness, run_append]
    rfl
  have bits : ∀ i < width, run (DualVariableGadget.generateR1csWitness name width x) σ
      (name (.bits i)) = bitOf x.val i := fun i hi => by
    rw [unfold, Function.update_noteq (inj.ne (by simp)), bits₁ i hi]
  have packed : run (DualVariableGadget.generateR1csWitness name width x) σ (name .packed) =
      packingSum ((List.range width).map (bitOf x.val)) := by
    rw [unfold, Function.update_same]
    exact congrArg packingSum (List.map_congr_left fun i hi => bits₁ i (List.mem_range.mp hi))
  refine ⟨bits, ⟨fun i hi => ?_, ?_⟩, fun fits => packed.trans (packingSum_bitOf fits)⟩
  · rw [Function.comp_apply, bits i hi]
    exact bitOf_isBoolean _ _
  · rw [Function.comp_apply, packed, DualVar.bitsOf]
    exact congrArg packingSum (List.map_congr_left fun i hi => (bits i (List.mem_range.mp hi)).symm)

theorem DualVariableGadget.run_value (name : DualVar → V) (inj : Function.Injective name)
    {width : ℕ} {x : FieldT} (fits : x.val < 2 ^ width) (σ : Assignment V) :
    ∀ v ∈ DualVar.vars width,
      run (DualVariableGadget.generateR1csWitness name width x) σ (name v) = DualVar.value x v := by
  obtain ⟨bits, -, packed⟩ := DualVariableGadget.generateR1csWitness_spec name inj width x σ
  simp only [DualVar.vars, List.mem_append, List.mem_map, List.mem_range, List.mem_singleton]
  rintro _ (⟨i, hi, rfl⟩ | rfl)
  · exact bits i hi
  · exact packed fits

theorem DualVariableGadget.run_block {W : Type} {name : W → V} (inj : Function.Injective name)
    (field : DualVar → W) (injField : Function.Injective field) {width : ℕ} {x : FieldT}
    (fits : x.val < 2 ^ width) {σ σ' : Assignment V}
    (block : run (DualVariableGadget.generateR1csWitness (name ∘ field) width x) σ = σ') :
    (∀ a ∈ DualVar.vars width, σ' (name (field a)) = DualVar.value x a) ∧
      ∀ u, u ∉ (DualVar.vars width).map field → σ' (name u) = σ (name u) :=
  block ▸ ⟨DualVariableGadget.run_value (name ∘ field) (inj.comp injField) fits σ,
    run_frame inj _ (by simp [List.map_map]) σ⟩

end DualWitness

theorem DualVariableGadget.Constraints.of_bitOf {width n : ℕ} {τ : DualVar → FieldT}
    (fits : n < 2 ^ width) (bits : ∀ i < width, τ (.bits i) = bitOf n i) (packed : τ .packed = n) :
    DualVariableGadget.Constraints width τ := by
  refine ⟨fun i hi => bits i hi ▸ bitOf_isBoolean _ _, ?_⟩
  rw [packed, DualVar.bitsOf, List.map_congr_left fun i hi => bits i (List.mem_range.mp hi),
    ← cast_bitsValue, bitsValue_bitOf, Nat.mod_eq_of_lt fits]

/-- A dual variable holding a value of `width` bits satisfies its constraints. -/
theorem DualVariableGadget.Constraints.of_values {width : ℕ} {x : FieldT} {τ : DualVar → FieldT}
    (fits : x.val < 2 ^ width) (values : ∀ v ∈ DualVar.vars width, τ v = DualVar.value x v) :
    DualVariableGadget.Constraints width τ :=
  .of_bitOf fits (fun _ hi => values _ (DualVar.bits_mem_vars hi))
    ((values _ (DualVar.packed_mem_vars width)).trans (ZMod.natCast_zmod_val x).symm)

/-! `flatten` and `flattenReverse` lay bit arrays out one after another. -/

section Flatten

variable {V : Type} [Inhabited V]

/-- ethsnarks' `flatten`: the arrays' variables, one array after another. -/
def flatten (inScalars : List (List V)) : List V := inScalars.flatten

omit [Inhabited V] in
/-- Arrays of the same sizes that flatten to the same array are the same arrays. -/
theorem flatten_inj : ∀ {inScalars inScalars' : List (List V)},
    inScalars.map List.length = inScalars'.map List.length →
      flatten inScalars = flatten inScalars' → inScalars = inScalars'
  | [], [], _, _ => rfl
  | scalar :: rest, scalar' :: rest', lengths, same => by
    simp only [List.map_cons, List.cons.injEq] at lengths
    obtain ⟨head, tail⟩ := List.append_inj same lengths.1
    rw [head, flatten_inj lengths.2 tail]

/-- The inner loop of `flattenReverse` over one array: for `i` from `size - 1` down to `0`,
`result[offset++] = scalar[i]`. Started with `i = size`, it writes `scalar[size - 1]` first. -/
def flattenReverseInner (scalar : List V) : ℕ → List V × ℕ → List V × ℕ
  | 0, state => state
  | i + 1, (result, offset) =>
      flattenReverseInner scalar i (result.set offset (scalar.getD i default), offset + 1)

/-- `flattenReverse`: `result` is resized to the total size (default variables), then every
array is copied from its last variable to its first, at a shared running `offset`. -/
def flattenReverse (inScalars : List (List V)) : List V :=
  let totalSz := (inScalars.map List.length).sum
  (inScalars.foldl (fun state scalar => flattenReverseInner scalar scalar.length state)
    (List.replicate totalSz default, 0)).1

theorem flattenReverseInner_eq (scalar : List V) :
    ∀ i (pre rest : List V), i ≤ scalar.length → i ≤ rest.length →
      flattenReverseInner scalar i (pre ++ rest, pre.length) =
        (pre ++ (scalar.take i).reverse ++ rest.drop i, pre.length + i)
  | 0, pre, rest, _, _ => by simp [flattenReverseInner]
  | i + 1, pre, x :: rest, inside, room => by
    have hi : i < scalar.length := by omega
    have step := flattenReverseInner_eq scalar i (pre ++ [scalar.getD i default]) rest
      (by omega) (by simpa using room)
    simp only [List.length_append, List.length_singleton, List.append_assoc,
      List.singleton_append] at step
    simp only [flattenReverseInner, List.set_append_right _ _ (le_refl _), Nat.sub_self,
      List.set_cons_zero]
    rw [step, List.take_succ, List.getElem?_eq_getElem hi, List.getD_eq_getElem _ _ hi]
    simp only [Option.toList_some, List.reverse_append, List.reverse_singleton,
      List.singleton_append, List.drop_succ_cons, List.append_assoc, List.cons_append,
      List.nil_append, Prod.mk.injEq, true_and]
    omega

/-- `flattenReverse` is the concatenation of the reversed arrays. -/
theorem flattenReverse_eq (inScalars : List (List V)) :
    flattenReverse inScalars = (inScalars.map List.reverse).flatten := by
  suffices loop : ∀ (done todo : List (List V)),
      todo.foldl (fun state scalar => flattenReverseInner scalar scalar.length state)
          ((done.map List.reverse).flatten ++
              List.replicate (todo.map List.length).sum default,
            (done.map List.reverse).flatten.length) =
        ((done ++ todo).map List.reverse |>.flatten,
          ((done ++ todo).map List.reverse).flatten.length) by
    simpa [flattenReverse] using congrArg Prod.fst (loop [] inScalars)
  intro done todo
  induction todo generalizing done with
  | nil => simp
  | cons scalar todo ih =>
    rw [List.foldl_cons, List.map_cons, List.sum_cons, List.replicate_add,
      flattenReverseInner_eq _ _ _ _ le_rfl (by simp)]
    have := ih (done ++ [scalar])
    simp only [List.map_append, List.map_cons, List.map_nil, List.flatten_append,
      List.flatten_cons, List.flatten_nil, List.append_nil, List.length_append,
      List.length_reverse, List.append_assoc] at this ⊢
    simpa [List.take_length, List.drop_left', List.length_replicate] using this

/-- The assignments `result[offset++] = scalar[i]` of the inner loop over one array, in the order
it makes them: the position written, then the variable written there. -/
def flattenReverseInnerWrites (scalar : List V) : ℕ → ℕ → List (ℕ × V)
  | 0, _ => []
  | i + 1, offset => (offset, scalar.getD i default) :: flattenReverseInnerWrites scalar i (offset + 1)

/-- One array of `flattenReverse`'s outer loop: its assignments follow those made so far, and
the offset moves past them. -/
def flattenReverseWritesStep (state : List (ℕ × V) × ℕ) (scalar : List V) : List (ℕ × V) × ℕ :=
  (state.1 ++ flattenReverseInnerWrites scalar scalar.length state.2, state.2 + scalar.length)

/-- The assignments of `flattenReverse`, array after array at the shared running `offset`, with
the offset the loop ends on. -/
def flattenReverseWrites (inScalars : List (List V)) : List (ℕ × V) × ℕ :=
  inScalars.foldl flattenReverseWritesStep ([], 0)

/-- Making a list of assignments `result[offset] = x` in order. -/
def setAll (result : List V) (writes : List (ℕ × V)) : List V :=
  writes.foldl (fun result w => result.set w.1 w.2) result

/-- The inner loop makes exactly its assignments and moves the offset past them. -/
theorem flattenReverseInner_setAll (scalar : List V) :
    ∀ i (result : List V) (offset : ℕ), flattenReverseInner scalar i (result, offset) =
      (setAll result (flattenReverseInnerWrites scalar i offset), offset + i)
  | 0, _, _ => rfl
  | i + 1, result, offset => by
    rw [flattenReverseInner, flattenReverseInner_setAll scalar i, flattenReverseInnerWrites]
    simp only [setAll, List.foldl_cons, Prod.mk.injEq, true_and]
    omega

theorem flattenReverseInnerWrites_positions (scalar : List V) :
    ∀ i offset, (flattenReverseInnerWrites scalar i offset).map Prod.fst = List.range' offset i
  | 0, _ => rfl
  | i + 1, offset => by
    rw [flattenReverseInnerWrites, List.map_cons, flattenReverseInnerWrites_positions scalar i,
      List.range'_succ]

/-- The outer loop from any state: its assignments, from the state's offset on. -/
theorem flattenReverse_loop (inScalars : List (List V)) :
    ∀ (result : List V) (writes : List (ℕ × V)) (offset : ℕ),
      inScalars.foldl (fun state scalar => flattenReverseInner scalar scalar.length state)
          (setAll result writes, offset) =
        (setAll result (inScalars.foldl flattenReverseWritesStep (writes, offset)).1,
          offset + (inScalars.map List.length).sum) ∧
      (inScalars.foldl flattenReverseWritesStep (writes, offset)).1.map Prod.fst =
        writes.map Prod.fst ++ List.range' offset (inScalars.map List.length).sum ∧
      (inScalars.foldl flattenReverseWritesStep (writes, offset)).2 =
        offset + (inScalars.map List.length).sum := by
  induction inScalars with
  | nil => simp
  | cons scalar rest ih =>
    intro result writes offset
    obtain ⟨loop, positions, final⟩ := ih result
      (writes ++ flattenReverseInnerWrites scalar scalar.length offset) (offset + scalar.length)
    rw [setAll, List.foldl_append, ← setAll, ← setAll] at loop
    simp only [List.foldl_cons, flattenReverseInner_setAll, flattenReverseWritesStep, List.map_cons,
      List.sum_cons]
    refine ⟨by rw [loop, Nat.add_assoc], ?_, by rw [final, Nat.add_assoc]⟩
    rw [positions, List.map_append, flattenReverseInnerWrites_positions, List.append_assoc,
      List.range'_append_1, Nat.add_comm]

/-- `flattenReverse` writes each position below the total size once, in increasing order. -/
theorem flattenReverse_writes_once (inScalars : List (List V)) :
    flattenReverse inScalars = (inScalars.map List.reverse).flatten ∧
      (flattenReverse inScalars).length = (inScalars.map List.length).sum ∧
      (flattenReverseWrites inScalars).1.map Prod.fst =
        List.range (inScalars.map List.length).sum ∧
      (flattenReverseWrites inScalars).2 = (inScalars.map List.length).sum ∧
      setAll (List.replicate (inScalars.map List.length).sum default)
          (flattenReverseWrites inScalars).1 = flattenReverse inScalars := by
  obtain ⟨loop, positions, final⟩ := flattenReverse_loop inScalars
    (List.replicate (inScalars.map List.length).sum default) [] 0
  refine ⟨flattenReverse_eq inScalars, ?_, ?_, ?_, ?_⟩
  · rw [flattenReverse_eq, List.length_flatten, List.map_map]
    simp [Function.comp_def]
  · rw [flattenReverseWrites, positions, List.range_eq_range']
    rfl
  · rw [flattenReverseWrites, final, Nat.zero_add]
  · exact (congrArg Prod.fst loop).symm

example : flattenReverse [[1, 2], [3]] = [2, 1, 3] := rfl

example : (flattenReverseWrites [[1, 2], [3]]).1 = [(0, 2), (1, 1), (2, 3)] := rfl

end Flatten

end Loopring
