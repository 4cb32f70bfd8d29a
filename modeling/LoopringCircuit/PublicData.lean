import LoopringCircuit.Circuit

set_option autoImplicit false

namespace Loopring

/-! The public data: its layout, the two trading-history root blocks and then one record of `568`
bits per ring, each field most significant bit first; and the remap of its SHA-256 digest onto the
single public input `publicDataHash`, as `generateWitness` computes it. -/

section Layout

theorem length_flatMap_range {α : Type} (f : ℕ → List α) {c : ℕ} (length : ∀ i, (f i).length = c) :
    ∀ n, ((List.range n).flatMap f).length = c * n
  | 0 => rfl
  | n + 1 => by
    rw [List.range_succ, List.flatMap_append, List.length_append, length_flatMap_range f length n]
    simp [length, Nat.mul_succ]

theorem drop_flatMap_range {α : Type} (f : ℕ → List α) {c : ℕ} (length : ∀ i, (f i).length = c) :
    ∀ {n j : ℕ}, j < n → ∃ rest, ((List.range n).flatMap f).drop (c * j) = f j ++ rest
  | n + 1, j, hj => by
    rw [List.range_succ, List.flatMap_append]
    rcases Nat.lt_succ_iff_lt_or_eq.mp hj with earlier | rfl
    · obtain ⟨rest, drop⟩ := drop_flatMap_range f length earlier
      have within : c * j ≤ ((List.range n).flatMap f).length := by
        rw [length_flatMap_range f length]
        exact Nat.mul_le_mul_left _ earlier.le
      exact ⟨rest ++ [n].flatMap f, by rw [List.drop_append_of_le_length within, drop, List.append_assoc]⟩
    · exact ⟨[], by simp [List.drop_left' (length_flatMap_range f length _)]⟩

theorem RingSettlementGadget.map_getPublicData {V W : Type} (f : V → W) (name : RingVar → V) :
    (RingSettlementGadget.getPublicData name).map (List.map f) =
      RingSettlementGadget.getPublicData (f ∘ name) := by
  simp only [RingSettlementGadget.getPublicData, List.map_cons, List.map_nil, DualVar.map_bitsOf]
  rfl

theorem RingSettlementGadget.length_getPublicData {V : Type} (name : RingVar → V) :
    ((RingSettlementGadget.getPublicData name).map List.reverse).flatten.length = 568 := by
  simp [RingSettlementGadget.getPublicData]

namespace CircuitGadget

/-- `flattenReverse(publicDataBits)`: the two roots, then every ring's fields, each reversed. -/
theorem publicData_eq (numRings : ℕ) : publicData numRings =
    (DualVar.bitsOf Var.tradingHistoryMerkleRootBefore 256).reverse ++
      (DualVar.bitsOf Var.tradingHistoryMerkleRootAfter 256).reverse ++
      (List.range numRings).flatMap fun j =>
        ((RingSettlementGadget.getPublicData (Var.ringSettlements j)).map List.reverse).flatten := by
  rw [publicData, flattenReverse_eq, publicDataBits, List.map_append, List.flatten_append,
    List.map_flatMap]
  simp only [List.flatMap_def, List.flatten_flatten, List.map_map, List.map_cons, List.map_nil,
    List.flatten_cons, List.flatten_nil, List.append_nil, List.append_assoc, Function.comp_def]

theorem length_publicData (numRings : ℕ) :
    (publicData numRings).length = 512 + 568 * numRings := by
  rw [publicData_eq, List.length_append, List.length_append,
    length_flatMap_range _ fun j => RingSettlementGadget.length_getPublicData _]
  simp

/-- The public data reads the roots' bits and the rings' variables, nothing the hasher writes. -/
theorem mem_publicData {numRings : ℕ} {v : Var} (mem : v ∈ publicData numRings) :
    (∃ i, v = .tradingHistoryMerkleRootBefore (.bits i)) ∨
      (∃ i, v = .tradingHistoryMerkleRootAfter (.bits i)) ∨ ∃ j u, v = .ringSettlements j u := by
  rw [publicData_eq] at mem
  simp only [List.mem_append, List.mem_reverse, DualVar.bitsOf, List.mem_map, List.mem_flatMap,
    List.mem_flatten] at mem
  rcases mem with (⟨i, -, rfl⟩ | ⟨i, -, rfl⟩) | ⟨j, -, l, ⟨l', field, rfl⟩, mem⟩
  · exact .inl ⟨i, rfl⟩
  · exact .inr (.inl ⟨i, rfl⟩)
  · rw [← Function.comp_id (Var.ringSettlements j), ← RingSettlementGadget.map_getPublicData] at field
    obtain ⟨l, -, rfl⟩ := List.mem_map.mp field
    obtain ⟨u, -, rfl⟩ := List.mem_map.mp (List.mem_reverse.mp mem)
    exact .inr (.inr ⟨j, u, rfl⟩)

/-- The two root blocks at the head of the public data, each most significant bit first. -/
theorem publicData_blocks (numRings : ℕ) (τ : Var → FieldT) :
    (((publicData numRings).map τ).take 256).reverse =
        DualVar.bitsOf (τ ∘ .tradingHistoryMerkleRootBefore) 256 ∧
      ((((publicData numRings).map τ).drop 256).take 256).reverse =
        DualVar.bitsOf (τ ∘ .tradingHistoryMerkleRootAfter) 256 := by
  have length (root : DualVar → Var) : ((DualVar.bitsOf root 256).reverse.map τ).length = 256 := by
    simp
  simp only [publicData_eq, List.map_append, List.append_assoc]
  rw [List.take_left' (length _), List.drop_left' (length _), List.take_left' (length _)]
  simp only [List.map_reverse, List.reverse_reverse, DualVar.map_bitsOf, and_self]

/-- Ring `j`'s record starts `512 + 568 * j` bits into the public data. -/
theorem publicData_drop_ring {numRings j : ℕ} (hj : j < numRings) (τ : Var → FieldT) :
    ∃ rest, ((publicData numRings).map τ).drop (512 + 568 * j) =
      ((RingSettlementGadget.getPublicData (τ ∘ .ringSettlements j)).map List.reverse).flatten ++
        rest := by
  have roots : (((DualVar.bitsOf Var.tradingHistoryMerkleRootBefore 256).reverse ++
      (DualVar.bitsOf Var.tradingHistoryMerkleRootAfter 256).reverse).map τ).length = 512 := by
    simp
  have chunk (i : ℕ) : (((RingSettlementGadget.getPublicData (Var.ringSettlements i)).map
      List.reverse).flatten.map τ) =
      ((RingSettlementGadget.getPublicData (τ ∘ .ringSettlements i)).map List.reverse).flatten := by
    rw [List.map_flatten, List.map_map, ← RingSettlementGadget.map_getPublicData, List.map_map]
    simp only [Function.comp_def, List.map_reverse]
  rw [publicData_eq, List.map_append, ← List.drop_drop, List.drop_left' roots, List.map_flatMap]
  obtain ⟨rest, drop⟩ := drop_flatMap_range _
    (fun i => (List.length_map _ τ).trans (RingSettlementGadget.length_getPublicData _)) hj
  exact ⟨rest, by rw [drop, chunk]⟩

end CircuitGadget

/-- The reading of a bit stream as consecutive fields of the given widths, each most significant
bit first. -/
def readFields : List ℕ → List FieldT → List ℕ
  | [], _ => []
  | width :: widths, bits => bitsValue (bits.take width).reverse :: readFields widths (bits.drop width)

theorem length_readFields : ∀ (widths : List ℕ) (bits : List FieldT),
    (readFields widths bits).length = widths.length
  | [], _ => rfl
  | _ :: widths, _ => congrArg (· + 1) (length_readFields widths _)

theorem readFields_take_sum : ∀ (widths : List ℕ) (bits : List FieldT),
    readFields widths (bits.take widths.sum) = readFields widths bits
  | [], _ => rfl
  | width :: widths, bits => by
    simp only [readFields, List.sum_cons, List.take_take, List.drop_take,
      Nat.min_eq_left (Nat.le_add_right _ _), Nat.add_sub_cancel_left, readFields_take_sum widths]

theorem readFields_take (widths : List ℕ) (bits : List FieldT) {total : ℕ}
    (sum : widths.sum = total) : readFields widths (bits.take total) = readFields widths bits :=
  sum ▸ readFields_take_sum widths bits

theorem readFields_append : ∀ (widths widths' : List ℕ) (bits : List FieldT),
    readFields (widths ++ widths') bits =
      readFields widths bits ++ readFields widths' (bits.drop widths.sum)
  | [], _, _ => rfl
  | width :: widths, widths', bits => by
    rw [List.cons_append, readFields, readFields, readFields_append widths widths', List.sum_cons,
      List.drop_drop, List.cons_append]

/-- Arrays laid out reversed, one after the other, read back as their values. -/
theorem readFields_flatten_reverse : ∀ (fields : List (List FieldT)) (rest : List FieldT),
    readFields (fields.map List.length) ((fields.map List.reverse).flatten ++ rest) =
      fields.map bitsValue
  | [], _ => rfl
  | field :: fields, rest => by
    have length : field.reverse.length = field.length := List.length_reverse _
    simp only [List.map_cons, List.flatten_cons, List.append_assoc, readFields]
    rw [List.take_left' length, List.drop_left' length, List.reverse_reverse,
      readFields_flatten_reverse fields rest]

variable (P : Primitives)

/-- A ring's fields in the public data hold the values its dual variables pack. -/
theorem RingSettlementGadget.Constraints.bitsValue_getPublicData {root accRoot : FieldT}
    {ρ : RingVar → FieldT} (h : RingSettlementGadget.Constraints P root accRoot ρ) :
    (RingSettlementGadget.getPublicData ρ).map bitsValue =
      [(ρ (.orderA (.dexID .packed))).val, (ρ (.orderA (.orderID .packed))).val,
          (ρ (.orderA (.accountS .packed))).val, (ρ (.orderB (.accountB .packed))).val,
          (ρ (.fillS_A .packed)).val, (ρ (.orderA (.accountF .packed))).val,
          (ρ (.fillF_A .packed)).val] ++
        [(ρ (.orderB (.dexID .packed))).val, (ρ (.orderB (.orderID .packed))).val,
          (ρ (.orderB (.accountS .packed))).val, (ρ (.orderA (.accountB .packed))).val,
          (ρ (.fillS_B .packed)).val, (ρ (.orderB (.accountF .packed))).val,
          (ρ (.fillF_B .packed)).val] := by
  rw [h.orderA.dexID.val_packed (by norm_num), h.orderA.orderID.val_packed (by norm_num),
    h.orderA.accountS.val_packed (by norm_num), h.orderB.accountB.val_packed (by norm_num),
    h.fillS_A.val_packed (by norm_num), h.orderA.accountF.val_packed (by norm_num),
    h.fillF_A.val_packed (by norm_num), h.orderB.dexID.val_packed (by norm_num),
    h.orderB.orderID.val_packed (by norm_num), h.orderB.accountS.val_packed (by norm_num),
    h.orderA.accountB.val_packed (by norm_num), h.fillS_B.val_packed (by norm_num),
    h.orderB.accountF.val_packed (by norm_num), h.fillF_B.val_packed (by norm_num)]
  rfl

end Layout

theorem IsBoolean.ite_toBit {x : FieldT} (boolean : IsBoolean x) : (if toBit x then 1 else 0) = x := by
  rcases isBoolean_iff.mp boolean with rfl | rfl <;> simp [toBit_zero, toBit_one]

namespace CircuitGadget

theorem testBit_foldl (digest : List Bool) : ∀ (acc i : ℕ),
    (digest.foldl (fun acc b => acc * 2 + if b then 1 else 0) acc).testBit i =
      if i < digest.length then digest.getD (digest.length - 1 - i) false
      else acc.testBit (i - digest.length) := by
  induction digest with
  | nil => simp
  | cons b rest ih =>
    intro acc i
    rw [List.foldl_cons, ih, List.length_cons]
    rcases Nat.lt_trichotomy i rest.length with before | rfl | past
    · rw [if_pos before, if_pos (show i < rest.length + 1 by omega),
        show rest.length + 1 - 1 - i = rest.length - 1 - i + 1 by omega, List.getD_cons_succ]
    · rw [if_neg (lt_irrefl _), if_pos (Nat.lt_succ_self _), Nat.sub_self, Nat.add_sub_cancel,
        Nat.sub_self, List.getD_cons_zero, Nat.testBit_zero]
      cases b
      · simp only [if_false, Bool.false_eq_true, decide_eq_false_iff_not]
        omega
      · simp only [if_true, decide_eq_true_eq]
        omega
    · obtain ⟨j, rfl⟩ : ∃ j, i = rest.length + 1 + j := ⟨i - rest.length - 1, by omega⟩
      have half : (acc * 2 + if b then 1 else 0) / 2 = acc := by split <;> omega
      rw [if_neg (show ¬ rest.length + 1 + j < rest.length by omega),
        if_neg (show ¬ rest.length + 1 + j < rest.length + 1 by omega),
        show rest.length + 1 + j - rest.length = j + 1 by omega, Nat.testBit_add_one, half,
        show rest.length + 1 + j - (rest.length + 1) = j by omega]

/-- Bit `i` of `publicDataHashDec` of a 256-bit digest is the digest's bit `255 - i`. -/
theorem testBit_publicDataHashDec {digest : List Bool} (length : digest.length = 256) {i : ℕ}
    (hi : i < 256) : (publicDataHashDec digest).testBit i = digest.getD (255 - i) false := by
  rw [publicDataHashDec, testBit_foldl, length, if_pos hi]

theorem publicDataHashDec_lt (digest : List Bool) :
    publicDataHashDec digest < 2 ^ digest.length :=
  Nat.lt_pow_two_of_testBit _ fun i hi => by
    rw [publicDataHashDec, testBit_foldl, if_neg (by omega), Nat.zero_testBit]

theorem foldl_eq_sum (digest : List Bool) : ∀ acc : ℕ,
    digest.foldl (fun acc b => acc * 2 + if b then 1 else 0) acc =
      acc * 2 ^ digest.length + ((List.range digest.length).map fun i =>
        (digest.getD i false).toNat * 2 ^ (digest.length - (i + 1))).sum := by
  induction digest with
  | nil => simp
  | cons b rest ih =>
    intro acc
    rw [List.foldl_cons, ih, List.length_cons, List.range_succ_eq_map, List.map_cons,
      List.sum_cons, List.map_map]
    simp only [Function.comp_def, List.getD_cons_succ, List.getD_cons_zero, Nat.add_sub_cancel,
      Nat.add_sub_add_right]
    cases b <;> simp only [Bool.toNat_false, Bool.toNat_true, if_true, if_false,
      Bool.false_eq_true] <;> ring

/-- The digest reads only the hasher's result. -/
theorem getDigest_congr {σ σ' : Assignment Var} (same : ∀ i, σ (.publicDataHasher i) = σ' (.publicDataHasher i)) :
    getDigest σ = getDigest σ' :=
  List.map_congr_left fun v mem => by
    obtain ⟨i, -, rfl⟩ := List.mem_map.mp mem
    rw [same]

theorem length_getDigest (σ : Assignment Var) : (getDigest σ).length = 256 := by
  simp [getDigest, hasherBits]

variable (P : Primitives) (numRings : ℕ)

/-- The last three steps of `generateWitness`, after any writes `pre`. -/
theorem run_publicDataHash (ws : List (Write Var)) (tail : ∃ pre, ws = pre ++ hasherWitness P numRings ++
      (List.range 256).map (fun i => (Var.publicDataHash (.bits i), fun σ =>
        if (publicDataHashDec (getDigest σ)).testBit i then 1 else 0)) ++
      [DualVariableGadget.generateR1csWitnessFromBits .publicDataHash 256]) (σ : Assignment Var) :
    let τ := run ws σ
    (∀ i < 256, IsBoolean (τ (.publicDataHasher i))) ∧
      (∀ i < 256, τ (.publicDataHash (.bits i)) = bitOf (publicDataHashDec (getDigest τ)) i) ∧
      τ (.publicDataHash .packed) = (publicDataHashDec (getDigest τ) : FieldT) := by
  intro τ
  obtain ⟨pre, rfl⟩ := tail
  obtain ⟨ρ, hρ⟩ := @exists_eq' _ (run (pre ++ hasherWitness P numRings) σ)
  obtain ⟨ρ', hρ'⟩ := @exists_eq' _ (run ((List.range 256).map (fun i => (Var.publicDataHash (.bits i),
    fun σ => if (publicDataHashDec (getDigest σ)).testBit i then 1 else 0))) ρ)
  have unfold : τ = Function.update ρ' (.publicDataHash .packed)
      (packingSum ((List.range 256).map fun i => ρ' (.publicDataHash (.bits i)))) := by
    simp only [τ, run_append, hρ, hρ', run_cons, run_nil, DualVariableGadget.generateR1csWitnessFromBits]
  -- the hasher's result, which the remap does not write
  have boolean : ∀ i < 256, IsBoolean (ρ (.publicDataHasher i)) := fun i hi => by
    rw [← hρ, run_append]
    refine run_of_written _ _ (by simpa [hasherWitness] using hi) (fun w mem _ σ' => ?_) _
    obtain ⟨j, -, rfl⟩ := List.mem_map.mp mem
    dsimp only
    split <;> simp [isBoolean_iff]
  have hasher : ∀ i, τ (.publicDataHasher i) = ρ (.publicDataHasher i) := fun i => by
    rw [unfold, Function.update_noteq (by simp), ← hρ']
    exact run_outside _ _ _ (by simp)
  have digest : getDigest τ = getDigest ρ := getDigest_congr hasher
  -- the remap, each bit read from the digest
  have remapped : ∀ i < 256, ρ' (.publicDataHash (.bits i)) =
      bitOf (publicDataHashDec (getDigest ρ)) i := fun i hi =>
    hρ' ▸ run_range (fun i => Var.publicDataHash (.bits i)) (fun _ _ h => by simpa using h) _
      (fun _ _ _ same => by rw [getDigest_congr fun i => same _ (by simp)]) 256 ρ hi
  have value : publicDataHashDec (getDigest ρ) < 2 ^ 256 :=
    length_getDigest ρ ▸ publicDataHashDec_lt _
  refine ⟨fun i hi => hasher i ▸ boolean i hi, fun i hi => ?_, ?_⟩
  · rw [digest, unfold, Function.update_noteq (by simp), remapped i hi]
  · rw [digest, unfold, Function.update_same,
      List.map_congr_left fun i hi => remapped i (List.mem_range.mp hi), ← cast_bitsValue,
      bitsValue_bitOf, Nat.mod_eq_of_lt value]

/-- After the hasher and the remap, the hasher's result is the digest of the public data. -/
theorem run_publicDataHasher (ws : List (Write Var)) (tail : ∃ pre, ws = pre ++ hasherWitness P numRings ++
      (List.range 256).map (fun i => (Var.publicDataHash (.bits i), fun σ =>
        if (publicDataHashDec (getDigest σ)).testBit i then 1 else 0)) ++
      [DualVariableGadget.generateR1csWitnessFromBits .publicDataHash 256]) (σ : Assignment Var) :
    let τ := run ws σ
    ∀ i < 256, τ (.publicDataHasher i) =
      if (P.sha256 ((publicData numRings).map τ)).getD i false then 1 else 0 := by
  intro τ i hi
  obtain ⟨pre, rfl⟩ := tail
  obtain ⟨ρ, hρ⟩ := @exists_eq' _ (run pre σ)
  have remap : ∀ x, (∀ w, x ≠ .publicDataHash w) → τ x = run (hasherWitness P numRings) ρ x :=
    fun x hash => by
      simp only [τ, run_append, hρ, run_cons, run_nil, DualVariableGadget.generateR1csWitnessFromBits]
      rw [Function.update_noteq (hash _),
        run_outside _ _ _ fun mem => (mem_range_writes mem).elim fun _ h => hash _ h.2]
  -- the public data holds neither the hasher's variables nor the remap's
  have outside : ∀ v ∈ publicData numRings, v ∉ Set.range Var.publicDataHasher ∧
      ∀ w, v ≠ .publicDataHash w := fun v mem => by
    rcases mem_publicData mem with ⟨_, rfl⟩ | ⟨_, rfl⟩ | ⟨_, _, rfl⟩ <;>
      exact ⟨fun ⟨_, h⟩ => (nomatch h), fun _ => nofun⟩
  have stream : (publicData numRings).map τ = (publicData numRings).map ρ :=
    List.map_congr_left fun v mem => (remap v (outside v mem).2).trans
      (run_outside_range _ _ _ (fun _ h => (mem_range_writes h).elim fun j hj => ⟨j, hj.2.symm⟩)
        (outside v mem).1)
  rw [stream, remap (.publicDataHasher i) fun _ => nofun]
  exact run_range _ (fun _ _ same => by injection same) _ (fun j σ σ' same => by
    rw [List.map_congr_left fun v mem => same v (outside v mem).1]) 256 ρ hi

theorem getD_getDigest (σ : Assignment Var) {j : ℕ} (hj : j < 256) :
    (getDigest σ).getD j false = toBit (σ (.publicDataHasher j)) := by
  simp [getDigest, hasherBits, hj]

/-- The hasher and the remap at the end of a pass meet their constraints. -/
theorem run_publicDataHash_constraints (ws : List (Write Var)) (tail : ∃ pre,
      ws = pre ++ hasherWitness P numRings ++
        (List.range 256).map (fun i => (Var.publicDataHash (.bits i), fun σ =>
          if (publicDataHashDec (getDigest σ)).testBit i then 1 else 0)) ++
        [DualVariableGadget.generateR1csWitnessFromBits .publicDataHash 256]) (σ : Assignment Var) :
    let τ := run ws σ
    DualVariableGadget.Constraints 256 (τ ∘ .publicDataHash) ∧
      (∀ i < 256, τ (.publicDataHasher i) =
        if (P.sha256 ((publicData numRings).map τ)).getD i false then 1 else 0) ∧
      ∀ i < 256, τ (.publicDataHasher (255 - i)) * 1 = τ (.publicDataHash (.bits i)) := by
  obtain ⟨boolean, bits, packed⟩ := run_publicDataHash P numRings ws tail σ
  refine ⟨.of_bitOf (length_getDigest _ ▸ publicDataHashDec_lt _) bits packed,
    run_publicDataHasher P numRings ws tail σ, fun i hi => ?_⟩
  rw [mul_one, bits i hi, bitOf, testBit_publicDataHashDec (length_getDigest _) hi,
    getD_getDigest _ (by omega)]
  exact ((boolean _ (by omega)).ite_toBit).symm

end CircuitGadget

/-- `generateWitness` sets `publicDataHash.bits[i]` to the digest's bit `255 - i`. -/
theorem publicDataHash_bits_reverse_digest :
    (∀ digest : List Bool, digest.length = 256 → ∀ i < 256,
      (CircuitGadget.publicDataHashDec digest).testBit i = digest.getD (255 - i) false) ∧
    ∀ (P : Primitives) (numRings : ℕ) (ringSettlementsData : List RingSettlement)
      (tradingHistoryMerkleRootBeforeValue tradingHistoryMerkleRootAfterValue
        accountsMerkleRootBeforeValue accountsMerkleRootAfterValue : FieldT) (σ : Assignment Var),
      let τ := run (CircuitGadget.generateWitness P numRings ringSettlementsData
        tradingHistoryMerkleRootBeforeValue tradingHistoryMerkleRootAfterValue
        accountsMerkleRootBeforeValue accountsMerkleRootAfterValue) σ
      let digest := CircuitGadget.getDigest τ
      (∀ i < 256, τ (.publicDataHash (.bits i)) = if digest.getD (255 - i) false then 1 else 0) ∧
        (∀ i < 256, τ (.publicDataHasher (255 - i)) * 1 = τ (.publicDataHash (.bits i))) ∧
        τ (.publicDataHash .packed) =
          (((List.range 256).map fun i => (digest.getD i false).toNat * 2 ^ (255 - i)).sum : ℕ) := by
  refine ⟨fun _ length _ hi => CircuitGadget.testBit_publicDataHashDec length hi, ?_⟩
  intro P numRings ringSettlementsData a b c d σ
  obtain ⟨boolean, bits, packed⟩ := CircuitGadget.run_publicDataHash P numRings
    (CircuitGadget.generateWitness P numRings ringSettlementsData a b c d) ⟨_, rfl⟩ σ
  generalize run (CircuitGadget.generateWitness P numRings ringSettlementsData a b c d) σ = τ
    at boolean bits packed ⊢
  dsimp only
  have remap : ∀ i < 256, τ (.publicDataHash (.bits i)) =
      if (CircuitGadget.getDigest τ).getD (255 - i) false then 1 else 0 := fun i hi => by
    rw [bits i hi, bitOf, CircuitGadget.testBit_publicDataHashDec (CircuitGadget.length_getDigest _) hi]
  refine ⟨remap, fun i hi => ?_, ?_⟩
  · rw [mul_one, remap i hi, CircuitGadget.getD_getDigest _ (by omega)]
    exact ((boolean _ (by omega)).ite_toBit).symm
  · rw [packed, CircuitGadget.publicDataHashDec, CircuitGadget.foldl_eq_sum,
      CircuitGadget.length_getDigest, zero_mul, zero_add]
    exact congrArg (fun n : ℕ => (n : FieldT)) (congrArg List.sum (List.map_congr_left fun i hi => by
      rw [show 256 - (i + 1) = 255 - i by omega]))

end Loopring
