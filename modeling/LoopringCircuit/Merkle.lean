import LoopringCircuit.Protoboard

set_option autoImplicit false

namespace Loopring

/-- The library primitives the circuit instantiates. None of them is in this repository, and the
circuit is modelled for every choice of them. -/
structure Primitives where
  /-- `LongsightL12p5_MP_gadget`: Miyaguchi–Preneel compression of the messages under an IV. -/
  compress : FieldT → List FieldT → FieldT
  /-- `merkle_tree_IVs`: the IV of each level of a Merkle path. -/
  merkleIV : ℕ → FieldT
  /-- `PureEdDSA_Verify` over the curve's base point: public key, `R`, bits of `s`, message. -/
  verify : FieldT × FieldT → FieldT × FieldT → List FieldT → List FieldT → Bool
  /-- `sha256_many`: the digest bits of a bit stream, in the order of its result. -/
  sha256 : List FieldT → List Bool

/-- The primitives of the trivial instance: the compression is zero, every signature verifies
and the digest is all zeros. -/
def Primitives.zero : Primitives where
  compress _ _ := 0
  merkleIV _ := 0
  verify _ _ _ _ := true
  sha256 _ := List.replicate 256 false

/-- The bit a boolean wire holds. -/
def toBit (x : FieldT) : Bool := decide (x = 1)

variable (P : Primitives)

/-! The library's Merkle path gadgets, as the update gadgets of the circuit use them. -/

/-- The variables of a `markle_path_compute`, level by level: the selector's two outputs and the
hasher's result. -/
inductive PathVar
  | left (i : ℕ)
  | right (i : ℕ)
  | hash (i : ℕ)
  deriving DecidableEq

/-- `merkle_path_selector`'s constraints: for a boolean `isRight`, `(left, right)` is
`(input, pathvar)`, or `(pathvar, input)` when `isRight = 1`. -/
def merklePathSelector (isRight input pathvar left right : FieldT) : Prop :=
  isRight * (pathvar - input) = left - input ∧ isRight * (input - pathvar) = right - pathvar

/-- `markle_path_compute::generate_r1cs_constraints` from level `i` up, over the (address bit,
sibling) pair of each level: the selector orders the running value and the sibling, and the
hasher compresses them under the level's IV. -/
def marklePathCompute (τ : PathVar → FieldT) : ℕ → FieldT → List (FieldT × FieldT) → Prop
  | _, _, [] => True
  | i, input, (isRight, pathvar) :: levels =>
      merklePathSelector isRight input pathvar (τ (.left i)) (τ (.right i)) ∧
        τ (.hash i) = P.compress (P.merkleIV i) [τ (.left i), τ (.right i)] ∧
        marklePathCompute τ (i + 1) (τ (.hash i)) levels

/-- `markle_path_compute::result()`: the last hasher's output. -/
def marklePathResult (τ : PathVar → FieldT) : ℕ → FieldT → List (FieldT × FieldT) → FieldT
  | _, input, [] => input
  | i, _, _ :: levels => marklePathResult τ (i + 1) (τ (.hash i)) levels

section Witness

variable {V : Type} [DecidableEq V]

/-- `markle_path_compute::generate_r1cs_witness`: per level, the selector's outputs by the
address bit, then the hasher's result. -/
def marklePathWitness (name : PathVar → V) : ℕ → V → List (V × V) → List (Write V)
  | _, _, [] => []
  | i, input, (isRight, pathvar) :: levels =>
      (name (.left i), fun σ => if σ isRight = 1 then σ pathvar else σ input) ::
        (name (.right i), fun σ => if σ isRight = 1 then σ input else σ pathvar) ::
        (name (.hash i), fun σ =>
          P.compress (P.merkleIV i) [σ (name (.left i)), σ (name (.right i))]) ::
        marklePathWitness name (i + 1) (name (.hash i)) levels

/-- The variables of the levels `i, i + 1, …` of a path of `n` levels, in the order its witness
writes them. -/
def PathVar.vars : ℕ → ℕ → List PathVar
  | _, 0 => []
  | i, n + 1 => .left i :: .right i :: .hash i :: PathVar.vars (i + 1) n

omit [DecidableEq V] in
@[simp] theorem targets_marklePathWitness (name : PathVar → V) :
    ∀ (i : ℕ) (input : V) (levels : List (V × V)),
      (marklePathWitness P name i input levels).map Prod.fst =
        (PathVar.vars i levels.length).map name
  | _, _, [] => rfl
  | i, _, _ :: levels => by
    simp [marklePathWitness, PathVar.vars, targets_marklePathWitness name (i + 1) _ levels]

end Witness

/-! The tree a root commits to. Addresses are bit lists, the lowest level's bit first; `t` gives
the nodes of one level, so that level `0` holds the leaves' hashes. -/

/-- The nodes of level `i + 1` above the nodes `t` of level `i`. -/
def parents (i : ℕ) (t : List Bool → FieldT) (u : List Bool) : FieldT :=
  P.compress (P.merkleIV i) [t (false :: u), t (true :: u)]

/-- The root above the nodes `t` of level `i`, `d` levels below it. -/
def merkleRoot : ℕ → ℕ → (List Bool → FieldT) → FieldT
  | _, 0, t => t []
  | i, d + 1, t => merkleRoot (i + 1) d (parents P i t)

/-- The pair compressed at one level of a path: the running node and its sibling, ordered by
the address bit. -/
def pathPair (b : Bool) (node sibling : FieldT) : List FieldT :=
  if b then [sibling, node] else [node, sibling]

/-- The root recomputed from a node of level `i` and the (bit, sibling) pairs above it. -/
def rootFromPath : ℕ → FieldT → List (Bool × FieldT) → FieldT
  | _, node, [] => node
  | i, node, (b, s) :: path => rootFromPath (i + 1) (P.compress (P.merkleIV i) (pathPair b node s)) path

/-- The siblings of the nodes on the path from address `a` at level `i` to the root. -/
def siblings : ℕ → (List Bool → FieldT) → List Bool → List FieldT
  | _, _, [] => []
  | i, t, b :: a => t ((!b) :: a) :: siblings (i + 1) (parents P i t) a

@[simp] theorem length_siblings :
    ∀ (i : ℕ) (t : List Bool → FieldT) (a : List Bool), (siblings P i t a).length = a.length
  | _, _, [] => rfl
  | i, t, _ :: a => congrArg Nat.succ (length_siblings (i + 1) (parents P i t) a)

/-- Collision-freeness where a path needs it: each pair it compresses to the tree's node is the
tree's own pair there, the form in which a compression into one field element is idealised. -/
def CollisionFreeAlong : ℕ → (List Bool → FieldT) → FieldT → List (Bool × FieldT) → Prop
  | _, _, _, [] => True
  | i, t, node, (b, s) :: path =>
      (P.compress (P.merkleIV i) (pathPair b node s) = parents P i t (path.map Prod.fst) →
          pathPair b node s = [t (false :: path.map Prod.fst), t (true :: path.map Prod.fst)]) ∧
        CollisionFreeAlong (i + 1) (parents P i t) (P.compress (P.merkleIV i) (pathPair b node s)) path

theorem compress_pathPair (i : ℕ) (t : List Bool → FieldT) (b : Bool) (a : List Bool) :
    P.compress (P.merkleIV i) (pathPair b (t (b :: a)) (t ((!b) :: a))) = parents P i t a := by
  cases b <;> rfl

/-- An honest opening: the leaf and its siblings recompute the root. -/
theorem rootFromPath_siblings :
    ∀ (i : ℕ) (t : List Bool → FieldT) (a : List Bool),
      rootFromPath P i (t a) (a.zip (siblings P i t a)) = merkleRoot P i a.length t
  | _, _, [] => rfl
  | i, t, b :: a => by
    simp only [siblings, List.zip_cons_cons, rootFromPath, compress_pathPair, List.length_cons,
      merkleRoot]
    exact rootFromPath_siblings (i + 1) (parents P i t) a

theorem parents_update (i : ℕ) (t : List Bool → FieldT) (b : Bool) (a : List Bool) (v : FieldT) :
    parents P i (Function.update t (b :: a) v) =
      Function.update (parents P i t) a
        (P.compress (P.merkleIV i) (pathPair b v (t ((!b) :: a)))) := by
  funext u
  by_cases same : u = a
  · subst same
    cases b <;> simp [parents, pathPair]
  · have other : ∀ c : Bool, c :: u ≠ b :: a := fun c h => same (List.cons.inj h).2
    simp [parents, Function.update_noteq same, Function.update_noteq (other _)]

/-- The siblings of a leaf do not depend on the leaf. -/
theorem siblings_update :
    ∀ (i : ℕ) (t : List Bool → FieldT) (a : List Bool) (v : FieldT),
      siblings P i (Function.update t a v) a = siblings P i t a
  | _, _, [], _ => rfl
  | i, t, b :: a, v => by
    have other : (!b) :: a ≠ b :: a := by cases b <;> simp
    simp only [siblings, Function.update_noteq other, parents_update, siblings_update]

/-- Writing a leaf: the new root is recomputed from the new leaf along the old siblings. -/
theorem merkleRoot_update (i : ℕ) (t : List Bool → FieldT) (a : List Bool) (v : FieldT) :
    merkleRoot P i a.length (Function.update t a v) = rootFromPath P i v (a.zip (siblings P i t a)) := by
  rw [← rootFromPath_siblings, siblings_update, Function.update_same]

/-- Binding of a path: a leaf and siblings recomputing the root without collision are the tree's. -/
theorem eq_of_rootFromPath :
    ∀ (i : ℕ) (t : List Bool → FieldT) (node : FieldT) (path : List (Bool × FieldT)),
      rootFromPath P i node path = merkleRoot P i path.length t →
        CollisionFreeAlong P i t node path →
          node = t (path.map Prod.fst) ∧ path.map Prod.snd = siblings P i t (path.map Prod.fst)
  | _, _, _, [], same, _ => ⟨same, rfl⟩
  | i, t, node, (b, s) :: path, same, free => by
    obtain ⟨here, above⟩ := free
    obtain ⟨parent, rest⟩ := eq_of_rootFromPath (i + 1) (parents P i t) _ path same above
    have pair := here parent
    cases b <;>
      simp_all [pathPair, siblings]


/-! The path gadgets compute the abstract path when the address bits are boolean. -/

/-- The abstract path of a gadget's (address bit, sibling) levels. -/
def toPath (levels : List (FieldT × FieldT)) : List (Bool × FieldT) :=
  levels.map fun l => (toBit l.1, l.2)

@[simp] theorem toPath_nil : toPath [] = [] := rfl

@[simp] theorem toPath_cons (x s : FieldT) (levels : List (FieldT × FieldT)) :
    toPath ((x, s) :: levels) = (toBit x, s) :: toPath levels := rfl

@[simp] theorem length_toPath (levels : List (FieldT × FieldT)) :
    (toPath levels).length = levels.length := List.length_map _ _

theorem toBit_zero : toBit 0 = false := by simp [toBit]

theorem toBit_one : toBit 1 = true := by simp [toBit]

theorem merklePathSelector_pair {isRight input pathvar left right : FieldT}
    (boolean : IsBoolean isRight) (h : merklePathSelector isRight input pathvar left right) :
    [left, right] = pathPair (toBit isRight) input pathvar := by
  obtain ⟨hl, hr⟩ := h
  rcases isBoolean_iff.mp boolean with rfl | rfl
  · simp only [zero_mul, @eq_comm _ (0 : FieldT), sub_eq_zero] at hl hr
    simp [toBit_zero, pathPair, hl, hr]
  · simp only [one_mul, sub_left_inj] at hl hr
    simp [toBit_one, pathPair, hl, hr]

/-- On boolean address bits the gadget's result is the root recomputed along the path. -/
theorem marklePathResult_eq (τ : PathVar → FieldT) :
    ∀ (i : ℕ) (input : FieldT) (levels : List (FieldT × FieldT)),
      (∀ l ∈ levels, IsBoolean l.1) → marklePathCompute P τ i input levels →
        marklePathResult τ i input levels = rootFromPath P i input (toPath levels)
  | _, _, [], _, _ => rfl
  | i, input, (x, s) :: levels, boolean, ⟨selector, hash, rest⟩ => by
    have pair := merklePathSelector_pair (boolean _ (List.mem_cons_self _ _)) selector
    rw [marklePathResult, toPath_cons, rootFromPath, ← pair, ← hash]
    exact marklePathResult_eq τ (i + 1) _ levels
      (fun l hl => boolean l (List.mem_cons_of_mem _ hl)) rest

section WitnessSpec

variable {V : Type} (name : PathVar → V)

theorem mem_marklePathWitness :
    ∀ (i : ℕ) (input : V) (levels : List (V × V)) (v : V),
      v ∈ (marklePathWitness P name i input levels).map Prod.fst →
        ∃ k, i ≤ k ∧ (v = name (.left k) ∨ v = name (.right k) ∨ v = name (.hash k))
  | _, _, [], _, h => by simp [marklePathWitness] at h
  | i, input, (x, s) :: levels, v, h => by
    simp only [marklePathWitness, List.map_cons, List.mem_cons] at h
    rcases h with rfl | rfl | rfl | h
    · exact ⟨i, le_rfl, by simp⟩
    · exact ⟨i, le_rfl, by simp⟩
    · exact ⟨i, le_rfl, by simp⟩
    · obtain ⟨k, hk, hv⟩ := mem_marklePathWitness (i + 1) _ levels v h
      exact ⟨k, by omega, hv⟩

theorem marklePathWitness_targets {i : ℕ} {input : V} {levels : List (V × V)} {v : V}
    (h : v ∈ (marklePathWitness P name i input levels).map Prod.fst) : v ∈ Set.range name := by
  obtain ⟨k, -, h | h | h⟩ := mem_marklePathWitness P name i input levels v h <;> exact ⟨_, h.symm⟩

theorem marklePathResult_cons (τ : PathVar → FieldT) :
    ∀ (i : ℕ) (input : FieldT) (l : FieldT × FieldT) (levels : List (FieldT × FieldT)),
      marklePathResult τ i input (l :: levels) = τ (.hash (i + levels.length))
  | _, _, _, [] => rfl
  | i, _, _, l :: levels => by
    rw [marklePathResult, marklePathResult_cons τ (i + 1) _ l levels, List.length_cons,
      Nat.add_assoc, Nat.add_comm 1]

/-- Completeness of the path gadget on boolean address bits outside it. -/
theorem marklePathWitness_spec [DecidableEq V] (inj : Function.Injective name) :
    ∀ (i : ℕ) (input : V) (levels : List (V × V)) (σ : Assignment V),
      (∀ l ∈ levels, l.1 ∉ Set.range name ∧ l.2 ∉ Set.range name ∧ IsBoolean (σ l.1)) →
        (∀ k, i ≤ k → input ≠ name (.left k) ∧ input ≠ name (.right k) ∧
          input ≠ name (.hash k)) →
        marklePathCompute P (run (marklePathWitness P name i input levels) σ ∘ name) i (σ input)
            (levels.map fun l => (σ l.1, σ l.2)) ∧
          marklePathResult (run (marklePathWitness P name i input levels) σ ∘ name) i (σ input)
              (levels.map fun l => (σ l.1, σ l.2)) =
            rootFromPath P i (σ input) (levels.map fun l => (toBit (σ l.1), σ l.2))
  | _, _, [], _, _, _ => ⟨trivial, rfl⟩
  | i, input, (x, s) :: levels, σ, outside, fresh => by
    obtain ⟨⟨xOut, sOut, xBool⟩, rest⟩ := List.forall_mem_cons.mp outside
    have xNe : ∀ u, x ≠ name u := fun u h => xOut ⟨u, h.symm⟩
    have sNe : ∀ u, s ≠ name u := fun u h => sOut ⟨u, h.symm⟩
    obtain ⟨inL, inR, inH⟩ := fresh i le_rfl
    set L := if σ x = 1 then σ s else σ input
    set R := if σ x = 1 then σ input else σ s
    set σ₁ := Function.update (Function.update (Function.update σ (name (.left i)) L)
      (name (.right i)) R) (name (.hash i)) (P.compress (P.merkleIV i) [L, R]) with hσ₁
    have keep : ∀ v, (∀ u, v ≠ name u) → σ₁ v = σ v := fun v hv => by
      simp only [hσ₁, Function.update_noteq (hv _)]
    have restOut : ∀ l ∈ levels, l.1 ∉ Set.range name ∧ l.2 ∉ Set.range name ∧
        IsBoolean (σ₁ l.1) := fun l hl => by
      obtain ⟨o1, o2, b⟩ := rest l hl
      refine ⟨o1, o2, ?_⟩
      rwa [keep l.1 fun u h => o1 ⟨u, h.symm⟩]
    have step := marklePathWitness_spec inj (i + 1) (name (.hash i)) levels σ₁ restOut
      (fun k hk => by simp [inj.eq_iff]; omega)
    have later : ∀ u, u = .left i ∨ u = .right i ∨ u = .hash i →
        run (marklePathWitness P name (i + 1) (name (.hash i)) levels) σ₁ (name u) = σ₁ (name u) :=
      fun u hu => run_outside _ _ _ fun mem => by
        obtain ⟨k, hk, hv⟩ := mem_marklePathWitness P name _ _ _ _ mem
        rcases hu with rfl | rfl | rfl <;> simp [inj.eq_iff] at hv <;> omega
    have same : levels.map (fun l => (σ₁ l.1, σ₁ l.2)) = levels.map fun l => (σ l.1, σ l.2) :=
      List.map_congr_left fun l hl => by
        obtain ⟨o1, o2, -⟩ := rest l hl
        rw [keep _ fun u h => o1 ⟨u, h.symm⟩, keep _ fun u h => o2 ⟨u, h.symm⟩]
    have same' : levels.map (fun l => (toBit (σ₁ l.1), σ₁ l.2)) =
        levels.map fun l => (toBit (σ l.1), σ l.2) :=
      List.map_congr_left fun l hl => by
        obtain ⟨o1, o2, -⟩ := rest l hl
        rw [keep _ fun u h => o1 ⟨u, h.symm⟩, keep _ fun u h => o2 ⟨u, h.symm⟩]
    have vL : σ₁ (name (.left i)) = L := by simp [hσ₁, inj.eq_iff]
    have vR : σ₁ (name (.right i)) = R := by simp [hσ₁, inj.eq_iff]
    have vH : σ₁ (name (.hash i)) = P.compress (P.merkleIV i) [L, R] := by simp [hσ₁]
    have pair : [L, R] = pathPair (toBit (σ x)) (σ input) (σ s) := by
      rcases isBoolean_iff.mp xBool with h | h <;> simp [L, R, h, pathPair, toBit]
    rw [same, same', vH] at step
    have unfold : run (marklePathWitness P name i input ((x, s) :: levels)) σ =
        run (marklePathWitness P name (i + 1) (name (.hash i)) levels) σ₁ := by
      simp only [marklePathWitness, run_cons]
      funext v
      simp [hσ₁, L, R, Function.update_apply, xNe, sNe, inL, inR, inH, inj.eq_iff]
    simp only [unfold, List.map_cons, marklePathCompute, marklePathResult, rootFromPath,
      Function.comp_apply]
    rw [later _ (Or.inl rfl), later _ (Or.inr (Or.inl rfl)), later _ (Or.inr (Or.inr rfl)),
      vL, vR, vH, ← pair]
    refine ⟨⟨?_, rfl, step.1⟩, step.2⟩
    rcases isBoolean_iff.mp xBool with h | h <;> simp [L, R, h, merklePathSelector]

end WitnessSpec

end Loopring
