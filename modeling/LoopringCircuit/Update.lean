import LoopringCircuit.Gadgets

set_option autoImplicit false

namespace Loopring

/-! What a Merkle update proves and what its witness satisfies: the leaf it reads is the tree's
leaf at the address, and the root it computes is that of the tree with the leaf rewritten. -/

variable (P : Primitives)

section Levels

variable (τ : MerkleUpdateVar → FieldT) (address : List FieldT)

@[simp] theorem length_levels : (MerkleUpdateVar.levels τ address).length = address.length := by
  simp [MerkleUpdateVar.levels]

theorem address_toPath_levels :
    (toPath (MerkleUpdateVar.levels τ address)).map Prod.fst = address.map toBit := by
  have fst : (MerkleUpdateVar.levels τ address).map Prod.fst = address :=
    List.map_fst_zip _ _ (by simp)
  rw [toPath, List.map_map]
  change List.map (toBit ∘ Prod.fst) _ = _
  rw [← List.map_map, fst]

theorem boolean_levels (boolean : ∀ x ∈ address, IsBoolean x) :
    ∀ l ∈ MerkleUpdateVar.levels τ address, IsBoolean l.1 :=
  fun _ mem => boolean _ (List.of_mem_zip mem).1

end Levels

/-- An honest path does not collide with the tree: each pair it compresses is the tree's own. -/
theorem collisionFreeAlong_siblings :
    ∀ (i : ℕ) (t : List Bool → FieldT) (a : List Bool),
      CollisionFreeAlong P i t (t a) (a.zip (siblings P i t a))
  | _, _, [] => trivial
  | i, t, b :: a => by
    have address : (List.zipWith Prod.mk a (siblings P (i + 1) (parents P i t) a)).map Prod.fst =
        a := List.map_fst_zip _ _ (by rw [length_siblings])
    refine ⟨fun _ => ?_, ?_⟩
    · simp only [List.map_cons, address]
      cases b <;> rfl
    · rw [compress_pathPair]
      exact collisionFreeAlong_siblings (i + 1) (parents P i t) a

/-- Soundness of the shared update: it reads `t`'s leaf and writes the after-leaf in its place. -/
theorem MerkleUpdate.Constraints.sound {root : FieldT} {address messageBefore messageAfter : List FieldT}
    {τ : MerkleUpdateVar → FieldT}
    (h : MerkleUpdate.Constraints P root address messageBefore messageAfter τ)
    (boolean : ∀ x ∈ address, IsBoolean x) (t : List Bool → FieldT)
    (committed : root = merkleRoot P 0 address.length t)
    (free : CollisionFreeAlong P 0 t (τ .leafBefore) (toPath (MerkleUpdateVar.levels τ address))) :
    τ .leafBefore = t (address.map toBit) ∧
      MerkleUpdate.result τ address =
        merkleRoot P 0 address.length (Function.update t (address.map toBit) (τ .leafAfter)) := by
  have levelsBoolean := boolean_levels τ address boolean
  have before := marklePathResult_eq P _ 0 _ _ levelsBoolean h.proofVerifierBefore
  have after := marklePathResult_eq P _ 0 _ _ levelsBoolean h.rootCalculatorAfter
  have opens : rootFromPath P 0 (τ .leafBefore) (toPath (MerkleUpdateVar.levels τ address)) =
      merkleRoot P 0 (toPath (MerkleUpdateVar.levels τ address)).length t := by
    rw [← before, length_toPath, length_levels, ← committed, ← mul_one (marklePathResult _ _ _ _)]
    exact h.expectedRoot
  obtain ⟨leaf, path⟩ := eq_of_rootFromPath P 0 t _ _ opens free
  rw [address_toPath_levels] at leaf path
  have unzipped : toPath (MerkleUpdateVar.levels τ address) =
      (address.map toBit).zip (siblings P 0 t (address.map toBit)) := by
    rw [← path, ← address_toPath_levels τ address, ← List.unzip_fst, ← List.unzip_snd,
      List.zip_unzip]
  refine ⟨leaf, ?_⟩
  rw [MerkleUpdate.result, after, unzipped, ← merkleRoot_update, List.length_map]

theorem MerkleUpdate.result_eq_var (τ : MerkleUpdateVar → FieldT) {address : List FieldT}
    (nonempty : address ≠ []) : MerkleUpdate.result τ address = τ (MerkleUpdateVar.result address.length) := by
  obtain ⟨l, levels, split⟩ := List.exists_cons_of_ne_nil
    (by simpa [← List.length_pos] using List.length_pos.mpr nonempty :
      MerkleUpdateVar.levels τ address ≠ [])
  have width : levels.length = address.length - 1 := by
    simpa using congrArg (fun l => l.length - 1) split.symm
  rw [MerkleUpdate.result, split, marklePathResult_cons, width, Nat.zero_add]
  rfl

section Leaves

variable {α : Type} (message : α → List FieldT)

/-- The leaf hashes of a tree of records. -/
def leafHashes (t : List Bool → α) (a : List Bool) : FieldT := P.compress 1 (message (t a))

theorem leafHashes_update (t : List Bool → α) (a : List Bool) (x : α) :
    leafHashes P message (Function.update t a x) =
      Function.update (leafHashes P message t) a (P.compress 1 (message x)) := by
  funext b
  by_cases same : b = a
  · subst same
    simp [leafHashes]
  · simp [leafHashes, Function.update_noteq same]

/-- Collision-freeness where reading a record needs it: at its leaf hash, and along its path. -/
def ReadCollisionFree (t : List Bool → α) (read : List FieldT) (path : List (Bool × FieldT)) :
    Prop :=
  (P.compress 1 read = P.compress 1 (message (t (path.map Prod.fst))) →
      read = message (t (path.map Prod.fst))) ∧
    CollisionFreeAlong P 0 (leafHashes P message t) (P.compress 1 read) path

theorem readCollisionFree_siblings (t : List Bool → α) (a : List Bool) :
    ReadCollisionFree P message t (message (t a))
      (a.zip (siblings P 0 (leafHashes P message t) a)) := by
  have address : (a.zip (siblings P 0 (leafHashes P message t) a)).map Prod.fst = a :=
    List.map_fst_zip _ _ (by rw [length_siblings])
  rw [ReadCollisionFree, address]
  exact ⟨fun _ => rfl, collisionFreeAlong_siblings P 0 (leafHashes P message t) a⟩

/-- Reading then writing a record: its message is read, and `written` takes its place. -/
theorem MerkleUpdate.Constraints.read {root : FieldT} {address messageBefore messageAfter : List FieldT}
    {τ : MerkleUpdateVar → FieldT}
    (h : MerkleUpdate.Constraints P root address messageBefore messageAfter τ)
    (boolean : ∀ x ∈ address, IsBoolean x) (t : List Bool → α) (written : α)
    (writes : message written = messageAfter)
    (committed : root = merkleRoot P 0 address.length (leafHashes P message t))
    (free : ReadCollisionFree P message t messageBefore (toPath (MerkleUpdateVar.levels τ address))) :
    messageBefore = message (t (address.map toBit)) ∧
      MerkleUpdate.result τ address = merkleRoot P 0 address.length
        (leafHashes P message (Function.update t (address.map toBit) written)) := by
  obtain ⟨leafFree, pathFree⟩ := free
  rw [address_toPath_levels] at leafFree
  rw [← h.leafBefore] at pathFree
  obtain ⟨leaf, result⟩ := h.sound P boolean _ committed pathFree
  rw [h.leafBefore] at leaf
  rw [leafHashes_update, writes, ← h.leafAfter]
  exact ⟨leafFree leaf, result⟩

/-- A change to a tree of records: when it applies, and the tree it leaves. -/
structure TreeChange (α : Type) where
  Valid : (List Bool → α) → Prop
  apply : (List Bool → α) → List Bool → α

/-- The tree after a sequence of changes, each made to the tree the previous one left. -/
def applyChanges : (List Bool → α) → List (TreeChange α) → List Bool → α
  | t, [] => t
  | t, change :: changes => applyChanges (change.apply t) changes

/-- Every change of a sequence applies to the tree the previous one left. -/
def ChangesValid : (List Bool → α) → List (TreeChange α) → Prop
  | _, [] => True
  | t, change :: changes => change.Valid t ∧ ChangesValid (change.apply t) changes

/-- Collision-freeness where a sequence of changes needs it: at each (message, path) read,
against the tree the previous changes left. -/
def ChangesCollisionFree :
    (List Bool → α) → List (TreeChange α) → List (List FieldT × List (Bool × FieldT)) → Prop
  | t, change :: changes, (read, path) :: reads =>
      ReadCollisionFree P message t read path ∧ ChangesCollisionFree (change.apply t) changes reads
  | _, _, _ => True

/-- Reads honest along a sequence of changes: each change applies to the tree the ones before it
left, and is given the value `read` finds at its address there and the leaf's siblings. -/
def HonestSteps (read : α → FieldT) :
    (List Bool → α) → List (TreeChange α × List Bool × FieldT × Proof) → Prop
  | _, [] => True
  | t, (change, a, value, proof) :: steps =>
      change.Valid t ∧ value = read (t a) ∧
        proof.data = siblings P 0 (leafHashes P message t) a ∧
          HonestSteps read (change.apply t) steps

theorem HonestSteps.valid {read : α → FieldT} :
    ∀ {t : List Bool → α} {steps : List (TreeChange α × List Bool × FieldT × Proof)},
      HonestSteps P message read t steps → ChangesValid t (steps.map Prod.fst)
  | _, [], _ => trivial
  | _, (_, _, _, _) :: _, ⟨valid, _, _, rest⟩ => ⟨valid, HonestSteps.valid rest⟩

/-- Update gadgets run one after another: each satisfies `holds` on the root the one before it
left, the first on `root`, and the last leaves `root'`. -/
def UpdateChain {B : Type} (holds : B → FieldT → Prop) (result : B → FieldT) :
    FieldT → List B → FieldT → Prop
  | root, [], root' => root = root'
  | root, b :: bs, root' => holds b root ∧ UpdateChain holds result (result b) bs root'

/-- Updates that each perform their honest step chain from the first tree's root to the last's. -/
theorem UpdateChain.of_honestSteps {B : Type} {read : α → FieldT} {holds : B → FieldT → Prop}
    {result : B → FieldT} (root : (List Bool → α) → FieldT) :
    ∀ {bs : List B} {steps : List (TreeChange α × List Bool × FieldT × Proof)},
      List.Forall₂ (fun b step => ∀ t, step.1.Valid t → step.2.2.1 = read (t step.2.1) →
        step.2.2.2.data = siblings P 0 (leafHashes P message t) step.2.1 →
          holds b (root t) ∧ result b = root (step.1.apply t)) bs steps →
      ∀ t, HonestSteps P message read t steps →
        UpdateChain holds result (root t) bs (root (applyChanges t (steps.map Prod.fst)))
  | _, _, .nil, _, _ => rfl
  | _, (_, _, _, _) :: _, .cons performs rest, t, ⟨valid, leaf, path, honest⟩ => by
    obtain ⟨holds, written⟩ := performs t valid leaf path
    refine ⟨holds, ?_⟩
    rw [written]
    exact UpdateChain.of_honestSteps root rest _ honest

variable (depth : ℕ) (Small : (List Bool → α) → Prop)

/-- An update from `root` to `root'` performs `change` at the read `read`: on every small tree
`root` commits to with no collision at the read, the change applies and `root'` commits to its
result, which is small again. -/
def Performs (change : TreeChange α) (read : List FieldT × List (Bool × FieldT))
    (root root' : FieldT) : Prop :=
  ∀ t, root = merkleRoot P 0 depth (leafHashes P message t) → Small t →
    ReadCollisionFree P message t read.1 read.2 →
      change.Valid t ∧ root' = merkleRoot P 0 depth (leafHashes P message (change.apply t)) ∧
        Small (change.apply t)

/-- A chain of updates from `root` to `root'`, each (change, read, root after it) performed on
the root the previous one left. -/
def PerformsAll :
    FieldT → List (TreeChange α × (List FieldT × List (Bool × FieldT)) × FieldT) → FieldT → Prop
  | root, [], root' => root' = root
  | root, (change, read, middle) :: steps, root' =>
      Performs P message depth Small change read root middle ∧ PerformsAll middle steps root'

theorem PerformsAll.append :
    ∀ {root middle root' : FieldT}
      (first : List (TreeChange α × (List FieldT × List (Bool × FieldT)) × FieldT))
      {second : List (TreeChange α × (List FieldT × List (Bool × FieldT)) × FieldT)},
      PerformsAll P message depth Small root first middle →
        PerformsAll P message depth Small middle second root' →
          PerformsAll P message depth Small root (first ++ second) root'
  | _, _, _, [], _, same, rest => same ▸ rest
  | _, _, _, (_, _, _) :: first, _, ⟨step, steps⟩, rest => ⟨step, PerformsAll.append first steps rest⟩

/-- A chain of updates performs its changes in order. -/
theorem PerformsAll.run :
    ∀ {root root' : FieldT} (steps : List (TreeChange α × (List FieldT × List (Bool × FieldT)) × FieldT))
      (t : List Bool → α), PerformsAll P message depth Small root steps root' →
      root = merkleRoot P 0 depth (leafHashes P message t) → Small t →
      ChangesCollisionFree P message t (steps.map Prod.fst) (steps.map fun s => s.2.1) →
        ChangesValid t (steps.map Prod.fst) ∧
          root' = merkleRoot P 0 depth (leafHashes P message (applyChanges t (steps.map Prod.fst))) ∧
          Small (applyChanges t (steps.map Prod.fst))
  | _, _, [], _, last, committed, small, _ => ⟨trivial, last.trans committed, small⟩
  | _, _, (_, _, _) :: steps, t, ⟨step, rest⟩, committed, small, ⟨free, frees⟩ => by
    obtain ⟨valid, committed', small'⟩ := step t committed small free
    obtain ⟨valids, last, smallLast⟩ := PerformsAll.run steps _ rest committed' small' frees
    exact ⟨⟨valid, valids⟩, last, smallLast⟩

end Leaves

section Witness

variable {V : Type} [DecidableEq V] (name : MerkleUpdateVar → V)

omit [DecidableEq V] in
theorem levels_map (address : List V) (ρ : Assignment V) :
    (address.zip ((List.range address.length).map (name ∘ .proof))).map
        (fun l => (ρ l.1, ρ l.2)) =
      MerkleUpdateVar.levels (ρ ∘ name) (address.map ρ) := by
  rw [MerkleUpdateVar.levels, List.length_map,
    show (List.range address.length).map (fun i => (ρ ∘ name) (.proof i)) =
      ((List.range address.length).map (name ∘ .proof)).map ρ from (List.map_map _ _ _).symm,
    List.zip_map]
  rfl

omit [DecidableEq V] in
theorem MerkleUpdate.generateR1csWitness_targets (address messageBefore messageAfter : List V)
    (proof : Proof) :
    ∀ v ∈ (MerkleUpdate.generateR1csWitness P name address messageBefore messageAfter proof).map
      Prod.fst, v ∈ Set.range name := by
  intro v mem
  simp only [MerkleUpdate.generateR1csWitness, List.map_append, List.mem_append] at mem
  rcases mem with ((mem | mem) | mem) | mem
  · simp only [List.map_cons, List.map_nil, List.mem_cons, List.not_mem_nil, or_false] at mem
    rcases mem with rfl | rfl <;> exact ⟨_, rfl⟩
  · obtain ⟨i, -, rfl⟩ := mem_range_writes mem
    exact ⟨_, rfl⟩
  · obtain ⟨u, rfl⟩ := marklePathWitness_targets P _ mem
    exact ⟨_, rfl⟩
  · obtain ⟨u, rfl⟩ := marklePathWitness_targets P _ mem
    exact ⟨_, rfl⟩

theorem getD_range_map (l : List FieldT) :
    (List.range l.length).map (fun i => l.getD i 0) = l :=
  List.ext_getElem (by simp) fun i h _ => by
    simp only [List.getElem_map, List.getElem_range]
    exact List.getD_eq_getElem _ _ (by simpa using h)

/-- Completeness of the shared update on an honest read of `t`. -/
theorem MerkleUpdate.generateR1csWitness_spec (inj : Function.Injective name)
    (address messageBefore messageAfter : List V) (proof : Proof) (σ : Assignment V)
    (t : List Bool → FieldT) (outside : ∀ x ∈ address, x ∉ Set.range name ∧ IsBoolean (σ x))
    (messages : ∀ x ∈ messageBefore ++ messageAfter, x ∉ Set.range name)
    (leaf : P.compress 1 (messageBefore.map σ) = t ((address.map σ).map toBit))
    (path : proof.data = siblings P 0 t ((address.map σ).map toBit)) :
    MerkleUpdate.Constraints P (merkleRoot P 0 address.length t) (address.map σ)
        (messageBefore.map σ) (messageAfter.map σ)
        (run (MerkleUpdate.generateR1csWitness P name address messageBefore messageAfter proof) σ ∘
          name) ∧
      MerkleUpdate.result
          (run (MerkleUpdate.generateR1csWitness P name address messageBefore messageAfter proof) σ ∘
            name) (address.map σ) =
        merkleRoot P 0 address.length
          (Function.update t ((address.map σ).map toBit) (P.compress 1 (messageAfter.map σ))) := by
  set a := (address.map σ).map toBit
  set levelsV := address.zip ((List.range address.length).map (name ∘ .proof))
  set σ₁ := run [(name .leafBefore, fun σ => P.compress 1 (messageBefore.map σ)),
    (name .leafAfter, fun σ => P.compress 1 (messageAfter.map σ))] σ
  set σ₂ := run (fillWithFieldElements (name ∘ .proof) address.length proof) σ₁
  set σ₃ := run (marklePathWitness P (name ∘ .proofVerifierBefore) 0 (name .leafBefore) levelsV) σ₂
  set σ₄ := run (marklePathWitness P (name ∘ .rootCalculatorAfter) 0 (name .leafAfter) levelsV) σ₃
  have unfold : run (MerkleUpdate.generateR1csWitness P name address messageBefore messageAfter
      proof) σ = σ₄ := by
    simp only [MerkleUpdate.generateR1csWitness, run_append, σ₁, σ₂, σ₃, σ₄, levelsV]
  rw [unfold]
  have notIn : ∀ {W : Type} (c : W → MerkleUpdateVar) (u : MerkleUpdateVar), (∀ w, c w ≠ u) →
      name u ∉ Set.range (name ∘ c) := fun c u h ⟨w, hw⟩ => h w (inj hw)
  have wider : ∀ {W : Type} (c : W → MerkleUpdateVar) (x : V), x ∉ Set.range name →
      x ∉ Set.range (name ∘ c) := fun _ _ hx ⟨w, hw⟩ => hx ⟨_, hw⟩
  -- what each stage leaves alone
  have keepL : ∀ x, x ≠ name .leafBefore → x ≠ name .leafAfter → σ₁ x = σ x := fun x h1 h2 => by
    simp only [σ₁, run_cons, run_nil, Function.update_noteq h1, Function.update_noteq h2]
  have keepF : ∀ x, x ∉ Set.range (name ∘ .proof) → σ₂ x = σ₁ x := fun x hx =>
    run_outside_range _ _ _ (fun v h => by
      obtain ⟨i, -, rfl⟩ := mem_range_writes h
      exact ⟨i, rfl⟩) hx
  have keepB : ∀ x, x ∉ Set.range (name ∘ .proofVerifierBefore) → σ₃ x = σ₂ x := fun x hx =>
    run_outside_range _ _ _ (fun _ h => marklePathWitness_targets P _ h) hx
  have keepA : ∀ x, x ∉ Set.range (name ∘ .rootCalculatorAfter) → σ₄ x = σ₃ x := fun x hx =>
    run_outside_range _ _ _ (fun _ h => marklePathWitness_targets P _ h) hx
  have address₂ : ∀ x ∈ address, σ₂ x = σ x := fun x hx => by
    have out := (outside x hx).1
    rw [keepF _ (wider _ _ out), keepL _ (fun h => out ⟨_, h.symm⟩) (fun h => out ⟨_, h.symm⟩)]
  have address₃ : ∀ x ∈ address, σ₃ x = σ x := fun x hx => by
    rw [keepB _ (wider _ _ (outside x hx).1), address₂ x hx]
  have address₄ : ∀ x ∈ address, σ₄ x = σ x := fun x hx => by
    rw [keepA _ (wider _ _ (outside x hx).1), address₃ x hx]
  -- the values the leaves and the proof get
  have leafBefore₂ : σ₂ (name .leafBefore) = P.compress 1 (messageBefore.map σ) := by
    rw [keepF _ (notIn _ _ (by simp))]
    simp [σ₁, inj.eq_iff]
  have leafAfter₃ : σ₃ (name .leafAfter) = P.compress 1 (messageAfter.map σ) := by
    rw [keepB _ (notIn _ _ (by simp)), keepF _ (notIn _ _ (by simp))]
    have same : messageAfter.map (Function.update σ (name .leafBefore)
        (P.compress 1 (messageBefore.map σ))) = messageAfter.map σ :=
      List.map_congr_left fun x hx => Function.update_noteq
        (fun h => messages x (List.mem_append_right _ hx) ⟨_, h.symm⟩) _ _
    simp [σ₁, same]
  have width : proof.data.length = address.length := by rw [path]; simp [a]
  have proof₂ : ∀ i < address.length, σ₂ (name (.proof i)) = proof.data.getD i 0 :=
    fun i hi => run_range (name ∘ .proof) (inj.comp fun _ _ h => MerkleUpdateVar.proof.inj h)
      (fun i _ => proof.data.getD i 0) (fun _ _ _ _ => rfl) _ σ₁ (by rwa [width, min_self])
  -- the levels every stage reads are the address and the siblings
  have levelsOf : ∀ ρ : Assignment V, (∀ x ∈ address, ρ x = σ x) →
      (∀ i < address.length, ρ (name (.proof i)) = σ₂ (name (.proof i))) →
        MerkleUpdateVar.levels (ρ ∘ name) (address.map σ) = (address.map σ).zip proof.data := by
    intro ρ _ proofs
    rw [MerkleUpdateVar.levels, List.length_map, ← getD_range_map proof.data, width]
    congr 1
    exact List.map_congr_left fun i hi => by
      rw [Function.comp_apply, proofs i (List.mem_range.mp hi), proof₂ i (List.mem_range.mp hi)]
  have stage : ∀ ρ : Assignment V, (∀ x ∈ address, ρ x = σ x) →
      (∀ i < address.length, ρ (name (.proof i)) = σ₂ (name (.proof i))) →
        levelsV.map (fun l => (ρ l.1, ρ l.2)) = (address.map σ).zip proof.data := by
    intro ρ addr proofs
    rw [levels_map, List.map_congr_left addr, levelsOf ρ addr proofs]
  have toPathStage : ∀ ρ : Assignment V, (∀ x ∈ address, ρ x = σ x) →
      (∀ i < address.length, ρ (name (.proof i)) = σ₂ (name (.proof i))) →
        levelsV.map (fun l => (toBit (ρ l.1), ρ l.2)) = a.zip (siblings P 0 t a) := by
    intro ρ addr proofs
    rw [← path, List.zip_map_left, ← stage ρ addr proofs, List.map_map]
    rfl
  have levelsOk : ∀ ρ : Assignment V, (∀ x ∈ address, ρ x = σ x) →
      ∀ (c : PathVar → MerkleUpdateVar), (∀ v i, c v ≠ .proof i) →
        ∀ l ∈ levelsV, l.1 ∉ Set.range (name ∘ c) ∧ l.2 ∉ Set.range (name ∘ c) ∧
          IsBoolean (ρ l.1) := by
    intro ρ addr c distinct l mem
    obtain ⟨first, second⟩ := List.of_mem_zip mem
    obtain ⟨i, -, hi⟩ := List.mem_map.mp second
    refine ⟨wider _ _ (outside _ first).1, ?_, by rw [addr _ first]; exact (outside _ first).2⟩
    rw [← hi]
    exact notIn _ _ fun v => distinct v i
  obtain ⟨computeB, resultB⟩ := marklePathWitness_spec P (name ∘ .proofVerifierBefore)
    (inj.comp fun _ _ h => MerkleUpdateVar.proofVerifierBefore.inj h) 0 (name .leafBefore) levelsV
    σ₂ (levelsOk σ₂ address₂ _ (by simp)) (fun k _ => by simp [inj.eq_iff])
  obtain ⟨computeA, resultA⟩ := marklePathWitness_spec P (name ∘ .rootCalculatorAfter)
    (inj.comp fun _ _ h => MerkleUpdateVar.rootCalculatorAfter.inj h) 0 (name .leafAfter) levelsV
    σ₃ (levelsOk σ₃ address₃ _ (by simp)) (fun k _ => by simp [inj.eq_iff])
  have proofs₃ : ∀ i < address.length, σ₃ (name (.proof i)) = σ₂ (name (.proof i)) :=
    fun i _ => keepB _ (notIn _ _ (by simp))
  have proofs₄ : ∀ i < address.length, σ₄ (name (.proof i)) = σ₂ (name (.proof i)) :=
    fun i hi => by rw [keepA _ (notIn _ _ (by simp)), proofs₃ i hi]
  have pathB : (fun v => (σ₄ ∘ name) (.proofVerifierBefore v)) =
      σ₃ ∘ (name ∘ .proofVerifierBefore) := funext fun v => keepA _ (notIn _ _ (by simp))
  have leafBefore₄ : σ₄ (name .leafBefore) = σ₂ (name .leafBefore) := by
    rw [keepA _ (notIn _ _ (by simp)), keepB _ (notIn _ _ (by simp))]
  have leafAfter₄ : σ₄ (name .leafAfter) = σ₃ (name .leafAfter) := keepA _ (notIn _ _ (by simp))
  rw [stage σ₂ address₂ fun _ _ => rfl] at computeB resultB
  rw [toPathStage σ₂ address₂ fun _ _ => rfl] at resultB
  rw [stage σ₃ address₃ proofs₃] at computeA resultA
  rw [toPathStage σ₃ address₃ proofs₃] at resultA
  have levels₄ := levelsOf σ₄ address₄ proofs₄
  have length_a : a.length = address.length := by simp [a]
  refine ⟨⟨?_, ?_, ?_, ?_, ?_⟩, ?_⟩
  · rw [Function.comp_apply, leafBefore₄, leafBefore₂]
  · rw [Function.comp_apply, leafAfter₄, leafAfter₃]
  · rw [levels₄, pathB, Function.comp_apply, leafBefore₄]
    exact computeB
  · rw [levels₄, pathB, Function.comp_apply, leafBefore₄, mul_one, resultB, leafBefore₂, leaf,
      rootFromPath_siblings, length_a]
  · rw [levels₄, Function.comp_apply, leafAfter₄]
    exact computeA
  · rw [MerkleUpdate.result, levels₄, Function.comp_apply, leafAfter₄]
    change marklePathResult (σ₄ ∘ (name ∘ .rootCalculatorAfter)) _ _ _ = _
    rw [resultA, leafAfter₃, ← length_a, merkleRoot_update]

/-- `UpdateFilledGadget`'s witness: the update's, and `filledAfter = filled + fill`. -/
theorem UpdateFilledGadget.generateR1csWitness_spec (name : UpdateFilledVar → V)
    (inj : Function.Injective name) (address : List V) (fill : V) (filled : FieldT) (proof : Proof)
    (σ : Assignment V) (t : List Bool → FieldT)
    (outside : ∀ x ∈ address, x ∉ Set.range name ∧ IsBoolean (σ x)) (fillOutside : fill ∉ Set.range name)
    (leaf : P.compress 1 [filled, filled] = t ((address.map σ).map toBit))
    (path : proof.data = siblings P 0 t ((address.map σ).map toBit)) :
    UpdateFilledGadget.Constraints P (merkleRoot P 0 address.length t) (address.map σ) (σ fill)
        (run (UpdateFilledGadget.generateR1csWitness P name address fill filled proof) σ ∘ name) ∧
      run (UpdateFilledGadget.generateR1csWitness P name address fill filled proof) σ
          (name .filledAfter) = filled + σ fill ∧
      MerkleUpdate.result
          (fun v => run (UpdateFilledGadget.generateR1csWitness P name address fill filled proof) σ
            (name (.update v))) (address.map σ) =
        merkleRoot P 0 address.length (Function.update t ((address.map σ).map toBit)
          (P.compress 1 [filled + σ fill, filled + σ fill])) := by
  set σ₁ := run [(name .filledBefore, fun _ => filled),
    (name .filledAfter, fun σ => σ (name .filledBefore) + σ fill)] σ
  have injU : Function.Injective (name ∘ .update) := inj.comp fun _ _ h => UpdateFilledVar.update.inj h
  have notUpdate : ∀ u, (∀ v, u ≠ .update v) → name u ∉ Set.range (name ∘ .update) :=
    fun u hu ⟨v, hv⟩ => hu v (inj hv).symm
  have keep : ∀ x, x ∉ Set.range name → σ₁ x = σ x := fun x hx => by
    simp only [σ₁, run_cons, run_nil, Function.update_apply]
    rw [if_neg fun h => hx ⟨_, h.symm⟩, if_neg fun h => hx ⟨_, h.symm⟩]
  have sameAddress : address.map σ₁ = address.map σ :=
    List.map_congr_left fun x hx => keep x (outside x hx).1
  have filledBefore₁ : σ₁ (name .filledBefore) = filled := by simp [σ₁, inj.eq_iff]
  have filledAfter₁ : σ₁ (name .filledAfter) = filled + σ fill := by
    simp [σ₁, inj.eq_iff, Function.update_noteq fun h => fillOutside ⟨_, h.symm⟩]
  have outside₁ : ∀ x ∈ address, x ∉ Set.range (name ∘ .update) ∧ IsBoolean (σ₁ x) :=
    fun x hx => ⟨fun ⟨v, hv⟩ => (outside x hx).1 ⟨_, hv⟩, keep x (outside x hx).1 ▸ (outside x hx).2⟩
  have messages : ∀ x ∈ [name .filledBefore, name .filledBefore] ++
      [name .filledAfter, name .filledAfter], x ∉ Set.range (name ∘ .update) := by
    intro x hx
    simp only [List.mem_append, List.mem_cons, List.not_mem_nil, or_false, or_self] at hx
    rcases hx with rfl | rfl <;> exact notUpdate _ (by simp)
  obtain ⟨update, result⟩ := MerkleUpdate.generateR1csWitness_spec P (name ∘ .update) injU address
    [name .filledBefore, name .filledBefore] [name .filledAfter, name .filledAfter] proof σ₁ t
    outside₁ messages (by simpa [sameAddress, filledBefore₁] using leaf)
    (by rw [sameAddress]; exact path)
  have unfold : run (UpdateFilledGadget.generateR1csWitness P name address fill filled proof) σ =
      run (MerkleUpdate.generateR1csWitness P (name ∘ .update) address
        [name .filledBefore, name .filledBefore] [name .filledAfter, name .filledAfter] proof) σ₁ := by
    rw [UpdateFilledGadget.generateR1csWitness, run_append]
  have keepOwn : ∀ u, (∀ v, u ≠ .update v) →
      run (UpdateFilledGadget.generateR1csWitness P name address fill filled proof) σ (name u) =
        σ₁ (name u) := fun u hu => by
    rw [unfold]
    exact run_outside_range _ _ _ (MerkleUpdate.generateR1csWitness_targets P _ _ _ _ _) (notUpdate u hu)
  simp only [sameAddress, List.map_cons, List.map_nil, filledBefore₁, filledAfter₁] at result update
  refine ⟨⟨?_, ?_⟩, by rw [keepOwn _ (by simp), filledAfter₁], ?_⟩
  · simp only [Function.comp_apply]
    rw [keepOwn _ (by simp), keepOwn _ (by simp), filledBefore₁, filledAfter₁, mul_one]
  · simp only [Function.comp_apply]
    rw [keepOwn _ (by simp), keepOwn _ (by simp), filledBefore₁, filledAfter₁, unfold]
    exact update
  · rw [unfold]
    exact result

/-- `UpdateBalanceGadget`'s witness: the update's. -/
theorem UpdateBalanceGadget.generateR1csWitness_spec (name : UpdateBalanceVar → V)
    (inj : Function.Injective name) (address : List V)
    (publicKeyX publicKeyY token balanceBefore balanceAfter : V) (proof : Proof)
    (σ : Assignment V) (t : List Bool → FieldT)
    (outside : ∀ x ∈ address, x ∉ Set.range name ∧ IsBoolean (σ x))
    (inputs : ∀ x ∈ [publicKeyX, publicKeyY, token, balanceBefore, balanceAfter],
      x ∉ Set.range name)
    (leaf : P.compress 1 [σ publicKeyX, σ publicKeyY, σ token, σ balanceBefore] =
      t ((address.map σ).map toBit))
    (path : proof.data = siblings P 0 t ((address.map σ).map toBit)) :
    UpdateBalanceGadget.Constraints P (merkleRoot P 0 address.length t) (address.map σ)
        (σ publicKeyX) (σ publicKeyY) (σ token) (σ balanceBefore) (σ balanceAfter)
        (run (UpdateBalanceGadget.generateR1csWitness P name address publicKeyX publicKeyY token
          balanceBefore balanceAfter proof) σ ∘ name) ∧
      MerkleUpdate.result
          (fun v => run (UpdateBalanceGadget.generateR1csWitness P name address publicKeyX publicKeyY
            token balanceBefore balanceAfter proof) σ (name (.update v))) (address.map σ) =
        merkleRoot P 0 address.length (Function.update t ((address.map σ).map toBit)
          (P.compress 1 [σ publicKeyX, σ publicKeyY, σ token, σ balanceAfter])) := by
  have messages : ∀ x ∈ [publicKeyX, publicKeyY, token, balanceBefore] ++
      [publicKeyX, publicKeyY, token, balanceAfter], x ∉ Set.range (name ∘ .update) := by
    intro x hx ⟨v, hv⟩
    refine inputs x ?_ ⟨_, hv⟩
    simp only [List.mem_append, List.mem_cons, List.not_mem_nil, or_false] at hx ⊢
    rcases hx with (rfl | rfl | rfl | rfl) | (rfl | rfl | rfl | rfl) <;> simp
  exact MerkleUpdate.generateR1csWitness_spec P (name ∘ .update)
    (inj.comp fun _ _ h => UpdateBalanceVar.update.inj h) address
    [publicKeyX, publicKeyY, token, balanceBefore] [publicKeyX, publicKeyY, token, balanceAfter]
    proof σ t (fun x hx => ⟨fun ⟨v, hv⟩ => (outside x hx).1 ⟨_, hv⟩, (outside x hx).2⟩)
    messages leaf path

end Witness

/-- A Merkle update reads one leaf and writes one leaf, and its witness satisfies it. -/
theorem update_reads_then_writes :
    (∀ (root fill : FieldT) (address : List FieldT) (τ : UpdateFilledVar → FieldT)
        (t : List Bool → FieldT),
      UpdateFilledGadget.Constraints P root address fill τ → (∀ x ∈ address, IsBoolean x) →
        root = merkleRoot P 0 address.length t →
        CollisionFreeAlong P 0 t (τ (.update .leafBefore))
          (toPath (MerkleUpdateVar.levels (fun v => τ (.update v)) address)) →
        τ (.update .leafBefore) = t (address.map toBit) ∧
          MerkleUpdate.result (fun v => τ (.update v)) address =
            merkleRoot P 0 address.length
              (Function.update t (address.map toBit) (τ (.update .leafAfter)))) ∧
    (∀ (root : FieldT) (address : List FieldT)
        (publicKeyX publicKeyY token balanceBefore balanceAfter : FieldT)
        (τ : UpdateBalanceVar → FieldT) (t : List Bool → FieldT),
      UpdateBalanceGadget.Constraints P root address publicKeyX publicKeyY token balanceBefore
          balanceAfter τ → (∀ x ∈ address, IsBoolean x) →
        root = merkleRoot P 0 address.length t →
        CollisionFreeAlong P 0 t (τ (.update .leafBefore))
          (toPath (MerkleUpdateVar.levels (fun v => τ (.update v)) address)) →
        τ (.update .leafBefore) = t (address.map toBit) ∧
          MerkleUpdate.result (fun v => τ (.update v)) address =
            merkleRoot P 0 address.length
              (Function.update t (address.map toBit) (τ (.update .leafAfter)))) ∧
    (∀ (V : Type) [DecidableEq V] (name : UpdateFilledVar → V) (address : List V) (fill : V)
        (filled : FieldT) (proof : Proof) (σ : Assignment V) (t : List Bool → FieldT),
      Function.Injective name → (∀ x ∈ address, x ∉ Set.range name ∧ IsBoolean (σ x)) →
        fill ∉ Set.range name → P.compress 1 [filled, filled] = t ((address.map σ).map toBit) →
        proof.data = siblings P 0 t ((address.map σ).map toBit) →
        UpdateFilledGadget.Constraints P (merkleRoot P 0 address.length t) (address.map σ) (σ fill)
          (run (UpdateFilledGadget.generateR1csWitness P name address fill filled proof) σ ∘
            name)) ∧
    (∀ (V : Type) [DecidableEq V] (name : UpdateBalanceVar → V) (address : List V)
        (publicKeyX publicKeyY token balanceBefore balanceAfter : V) (proof : Proof)
        (σ : Assignment V) (t : List Bool → FieldT),
      Function.Injective name → (∀ x ∈ address, x ∉ Set.range name ∧ IsBoolean (σ x)) →
        (∀ x ∈ [publicKeyX, publicKeyY, token, balanceBefore, balanceAfter],
          x ∉ Set.range name) →
        P.compress 1 [σ publicKeyX, σ publicKeyY, σ token, σ balanceBefore] =
          t ((address.map σ).map toBit) →
        proof.data = siblings P 0 t ((address.map σ).map toBit) →
        UpdateBalanceGadget.Constraints P (merkleRoot P 0 address.length t) (address.map σ)
          (σ publicKeyX) (σ publicKeyY) (σ token) (σ balanceBefore) (σ balanceAfter)
          (run (UpdateBalanceGadget.generateR1csWitness P name address publicKeyX publicKeyY token
            balanceBefore balanceAfter proof) σ ∘ name)) :=
  ⟨fun _ _ _ _ t h boolean committed free => h.update.sound P boolean t committed free,
    fun _ _ _ _ _ _ _ _ t h boolean committed free => MerkleUpdate.Constraints.sound P h boolean t
      committed free,
    fun _ _ name address fill filled proof σ t inj outside fillOutside leaf path =>
      (UpdateFilledGadget.generateR1csWitness_spec P name inj address fill filled proof σ t outside
        fillOutside leaf path).1,
    fun _ _ name address _ _ _ _ _ proof σ t inj outside inputs leaf path =>
      (UpdateBalanceGadget.generateR1csWitness_spec P name inj address _ _ _ _ _ proof σ t outside
        inputs leaf path).1⟩

/-- Primitives whose compression adds the IV to the sum of the messages: no node of a tree of
nonzero leaves is zero. -/
def sumPrimitives : Primitives where
  compress iv xs := iv + xs.sum
  merkleIV i := i + 2
  verify _ _ _ _ := true
  sha256 _ := List.replicate 256 false

/-- A tree of depth `2` whose leaf at `[true, false]` is `7`, the hash of the filled amount `3`
and of the account of key `(1, 2)`, token `0` and balance `3`; every other leaf is `1`. -/
def sumTree (a : List Bool) : FieldT := if a = [true, false] then 7 else 1

/-- The inputs of the updates at that leaf: the address bits `1, 0` and the fill `5`, then the
key, the token and the balances `3` before and `4` after. -/
def sumInputs (n : ℕ) : FieldT := [1, 0, 5, 1, 2, 0, 3, 4].getD n 0

/-- The trading-history update of `sumTree`'s leaf, as its witness leaves it. -/
def sumFilled : UpdateFilledVar → FieldT :=
  run (UpdateFilledGadget.generateR1csWitness sumPrimitives Sum.inl [.inr 0, .inr 1] (.inr 2) 3
    ⟨siblings sumPrimitives 0 sumTree [true, false]⟩) (Sum.elim (fun _ => 0) sumInputs) ∘ Sum.inl

/-- The balance update of `sumTree`'s leaf, as its witness leaves it. -/
def sumBalance : UpdateBalanceVar → FieldT :=
  run (UpdateBalanceGadget.generateR1csWitness sumPrimitives Sum.inl [.inr 0, .inr 1] (.inr 3)
    (.inr 4) (.inr 5) (.inr 6) (.inr 7) ⟨siblings sumPrimitives 0 sumTree [true, false]⟩)
    (Sum.elim (fun _ => 0) sumInputs) ∘ Sum.inl

theorem update_reads_then_writes_on_sum_tree :
    UpdateFilledGadget.Constraints sumPrimitives (merkleRoot sumPrimitives 0 2 sumTree) [1, 0] 5
        sumFilled ∧
      sumFilled (.update .leafBefore) = sumTree [true, false] ∧
      MerkleUpdate.result (fun v => sumFilled (.update v)) [1, 0] =
        merkleRoot sumPrimitives 0 2
          (Function.update sumTree [true, false] (sumFilled (.update .leafAfter))) ∧
      UpdateBalanceGadget.Constraints sumPrimitives (merkleRoot sumPrimitives 0 2 sumTree) [1, 0] 1 2
        0 3 4 sumBalance ∧
      sumBalance (.update .leafBefore) = sumTree [true, false] ∧
      MerkleUpdate.result (fun v => sumBalance (.update v)) [1, 0] =
        merkleRoot sumPrimitives 0 2
          (Function.update sumTree [true, false] (sumBalance (.update .leafAfter))) := by
  obtain ⟨filledSound, balanceSound, filledComplete, balanceComplete⟩ :=
    update_reads_then_writes sumPrimitives
  have outside (W : Type) : ∀ x ∈ [(.inr 0 : W ⊕ ℕ), .inr 1],
      x ∉ Set.range Sum.inl ∧ IsBoolean (Sum.elim (fun _ => 0) sumInputs x) := by
    simp only [List.mem_cons, List.not_mem_nil, or_false]
    rintro _ (rfl | rfl)
    exacts [⟨fun ⟨_, h⟩ => Sum.inl_ne_inr h, isBoolean_iff.mpr (.inr rfl)⟩,
      ⟨fun ⟨_, h⟩ => Sum.inl_ne_inr h, isBoolean_iff.mpr (.inl rfl)⟩]
  have boolean : ∀ x ∈ [(1 : FieldT), 0], IsBoolean x := fun x mem => by
    simp only [List.mem_cons, List.not_mem_nil, or_false] at mem
    exact isBoolean_iff.mpr (mem.elim .inr .inl)
  have filled : UpdateFilledGadget.Constraints sumPrimitives (merkleRoot sumPrimitives 0 2 sumTree)
      [1, 0] 5 sumFilled :=
    filledComplete _ Sum.inl [.inr 0, .inr 1] (.inr 2) 3 _ _ sumTree Sum.inl_injective (outside _)
      (fun ⟨_, h⟩ => Sum.inl_ne_inr h) (by decide) rfl
  have balance : UpdateBalanceGadget.Constraints sumPrimitives
      (merkleRoot sumPrimitives 0 2 sumTree) [1, 0] 1 2 0 3 4 sumBalance :=
    balanceComplete _ Sum.inl [.inr 0, .inr 1] (.inr 3) (.inr 4) (.inr 5) (.inr 6) (.inr 7) _ _
      sumTree Sum.inl_injective (outside _) (by simp) (by decide) rfl
  -- the paths the two witnesses computed are the leaf's own: no collision along them
  have leafFilled : sumFilled (.update .leafBefore) = sumTree [true, false] := by decide
  have pathFilled : toPath (MerkleUpdateVar.levels (fun v => sumFilled (.update v)) [1, 0]) =
      [true, false].zip (siblings sumPrimitives 0 sumTree [true, false]) := by decide
  have leafBalance : sumBalance (.update .leafBefore) = sumTree [true, false] := by decide
  have pathBalance : toPath (MerkleUpdateVar.levels (fun v => sumBalance (.update v)) [1, 0]) =
      [true, false].zip (siblings sumPrimitives 0 sumTree [true, false]) := by decide
  obtain ⟨leafF, resultF⟩ := filledSound _ _ _ _ sumTree filled boolean rfl
    (by rw [leafFilled, pathFilled]; exact collisionFreeAlong_siblings _ 0 sumTree _)
  obtain ⟨leafB, resultB⟩ := balanceSound _ _ _ _ _ _ _ _ sumTree balance boolean rfl
    (by rw [leafBalance, pathBalance]; exact collisionFreeAlong_siblings _ 0 sumTree _)
  exact ⟨filled, leafF, resultF, balance, leafB, resultB⟩

end Loopring
