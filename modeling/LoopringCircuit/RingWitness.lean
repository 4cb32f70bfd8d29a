import LoopringCircuit.History
import LoopringCircuit.Accounts

set_option autoImplicit false

namespace Loopring

/-! Completeness of a ring settlement: on a ring whose data is valid and whose reads are the true
leaves and paths of the trees it settles on, `RingSettlementGadget::generate_r1cs_witness`
satisfies every constraint of the ring. The witness is taken in the four parts the source
separates: the data, the trading-history update, the account updates and the matching. -/

/-- The `width` lowest bits of the canonical representative of `x`, lowest first: the address a
field of `width` bits selects. -/
def addressOf (x : FieldT) (width : ℕ) : List Bool := (List.range width).map x.val.testBit

theorem map_toBit_bitOf (n width : ℕ) :
    ((List.range width).map (bitOf n)).map toBit = (List.range width).map n.testBit := by
  simp only [List.map_map]
  exact List.map_congr_left fun i _ => by
    by_cases set : n.testBit i <;> simp [bitOf, set, toBit_zero, toBit_one]

/-- The slot of an order in the trading history: the bits of `orderID ∥ accountS`. -/
def Order.filledSlot (order : Order) : List Bool :=
  addressOf order.orderID 4 ++ addressOf order.accountS 24

namespace RingSettlement

variable (rs : RingSettlement)

/-- The two fills of the ring the data describes, `A`'s then `B`'s. -/
def fills : List Fill :=
  [⟨rs.ring.orderA.filledSlot, rs.ring.fillS_A, rs.ring.orderA.amountS⟩,
    ⟨rs.ring.orderB.filledSlot, rs.ring.fillS_B, rs.ring.orderB.amountS⟩]

/-- A leg of the ring the data describes, on an account of `order`, with its key and `token`. -/
def leg (order : Order) (account token amount : FieldT) (credit : Bool) : Leg :=
  ⟨addressOf account 24, order.publicKeyX, order.publicKeyY, token, amount, credit⟩

/-- The six legs of the ring the data describes, in the order of its balance updates. -/
def legs : List Leg :=
  let A := rs.ring.orderA
  let B := rs.ring.orderB
  [leg A A.accountS A.tokenS rs.ring.fillS_A false, leg A A.accountB A.tokenB rs.ring.fillS_B true,
    leg A A.accountF A.tokenF rs.ring.fillF_A false, leg B B.accountS B.tokenS rs.ring.fillS_B false,
    leg B B.accountB B.tokenB rs.ring.fillS_A true, leg B B.accountF B.tokenF rs.ring.fillF_B false]

/-- The reads of the two trading-history updates: each fill, at its slot, with the filled amount
and the proof the data gives it. -/
def historySteps : List (TreeChange FieldT × List Bool × FieldT × Proof) :=
  (fills rs).zipWith (fun f read => (f.change, f.slot, read))
    [(rs.filledA, rs.proofFilledA), (rs.filledB, rs.proofFilledB)]

/-- The reads of the six balance updates: each leg, at its account, with the balance before and
the proof the data gives it. -/
def accountSteps : List (TreeChange Account × List Bool × FieldT × Proof) :=
  (legs rs).zipWith (fun leg read => (leg.change, leg.account, read))
    [(rs.accountS_A_before.balance, rs.accountS_A_proof),
      (rs.accountB_A_before.balance, rs.accountB_A_proof),
      (rs.accountF_A_before.balance, rs.accountF_A_proof),
      (rs.accountS_B_before.balance, rs.accountS_B_proof),
      (rs.accountB_B_before.balance, rs.accountB_B_proof),
      (rs.accountF_B_before.balance, rs.accountF_B_proof)]

end RingSettlement

/-- Every order field and fill of a ring has the width its dual variable is declared with. -/
structure Ring.Fits (ring : Ring) : Prop where
  orderA : ring.orderA.Fits
  orderB : ring.orderB.Fits
  fillS_A : ring.fillS_A.val < 2 ^ 96
  fillB_A : ring.fillB_A.val < 2 ^ 96
  fillF_A : ring.fillF_A.val < 2 ^ 96
  fillS_B : ring.fillS_B.val < 2 ^ 96
  fillB_B : ring.fillB_B.val < 2 ^ 96
  fillF_B : ring.fillF_B.val < 2 ^ 96

variable (P : Primitives)

/-- The checks between a ring's two orders, as the ring's checkers are wired: the four rates,
the two matches and the two tokens. -/
structure Ring.Matched (ring : Ring) : Prop where
  rateA : ring.orderA.amountB * ring.fillS_A = ring.orderA.amountS * ring.fillB_A
  rateB : ring.orderB.amountB * ring.fillS_B = ring.orderA.amountB * ring.fillB_B
  rateFeeA : ring.orderA.amountS * ring.fillF_A = ring.orderA.amountF * ring.fillS_A
  rateFeeB : ring.orderB.amountS * ring.fillF_B = ring.orderA.amountF * ring.fillS_B
  matchA : ring.fillB_B.val ≤ ring.fillS_A.val
  matchB : ring.fillB_A.val ≤ ring.fillS_B.val
  tokenS : ring.orderA.tokenS = ring.orderB.tokenB
  tokenB : ring.orderA.tokenB = ring.orderB.tokenS

/-- What the witness of a ring needs of its data on the trees `slots` and `accounts`: widths,
signatures, matched orders, and every read the true one of the tree the updates before it left. -/
structure RingSettlement.Valid (rs : RingSettlement) (slots : List Bool → FieldT)
    (accounts : List Bool → Account) : Prop where
  fits : rs.ring.Fits
  signatureA : rs.ring.orderA.SignatureValid P
  signatureB : rs.ring.orderB.SignatureValid P
  matched : rs.ring.Matched
  tradingHistoryMerkleRoot : rs.tradingHistoryMerkleRoot = historyRoot P slots
  history : HonestSteps P filledMessage id slots rs.historySteps
  accounts : HonestSteps P Account.message Account.balance accounts rs.accountSteps

section Updates

variable {V : Type} [DecidableEq V]

/-- A balance update's witness on an honest read performs its leg. -/
theorem Leg.generateR1csWitness_spec (leg : Leg) (name : UpdateBalanceVar → V)
    (inj : Function.Injective name) (address : List V)
    (publicKeyX publicKeyY token balanceBefore balanceAfter : V) (proof : Proof)
    (σ : Assignment V) (accounts : List Bool → Account)
    (outside : ∀ x ∈ address, x ∉ Set.range name ∧ IsBoolean (σ x))
    (inputs : ∀ x ∈ [publicKeyX, publicKeyY, token, balanceBefore, balanceAfter],
      x ∉ Set.range name)
    (width : address.length = TREE_DEPTH_ACCOUNTS) (account : (address.map σ).map toBit = leg.account)
    (keyX : σ publicKeyX = leg.publicKeyX) (keyY : σ publicKeyY = leg.publicKeyY)
    (tokenValue : σ token = leg.token) (valid : leg.Valid accounts)
    (balance : σ balanceBefore = (accounts leg.account).balance)
    (after : σ balanceAfter = leg.balanceAfter (σ balanceBefore))
    (path : proof.data = siblings P 0 (leafHashes P Account.message accounts) leg.account) :
    UpdateBalanceGadget.Constraints P (accountsRoot P accounts) (address.map σ) (σ publicKeyX)
        (σ publicKeyY) (σ token) (σ balanceBefore) (σ balanceAfter)
        (run (UpdateBalanceGadget.generateR1csWitness P name address publicKeyX publicKeyY token
          balanceBefore balanceAfter proof) σ ∘ name) ∧
      run (UpdateBalanceGadget.generateR1csWitness P name address publicKeyX publicKeyY token
          balanceBefore balanceAfter proof) σ (name UpdateBalanceVar.result) =
        accountsRoot P (leg.apply accounts) := by
  have leaf : P.compress 1 [σ publicKeyX, σ publicKeyY, σ token, σ balanceBefore] =
      leafHashes P Account.message accounts ((address.map σ).map toBit) := by
    rw [account, leafHashes, Account.message, keyX, keyY, tokenValue, balance, valid.publicKeyX,
      valid.publicKeyY, valid.token]
  obtain ⟨constraints, result⟩ := UpdateBalanceGadget.generateR1csWitness_spec P name inj address
    publicKeyX publicKeyY token balanceBefore balanceAfter proof σ _ outside inputs leaf
    (account ▸ path)
  have nonempty : address.map σ ≠ [] := by
    rw [← List.length_pos, List.length_map, width]
    decide
  rw [width] at constraints result
  rw [MerkleUpdate.result_eq_var _ nonempty, List.length_map, width] at result
  refine ⟨constraints, ?_⟩
  rw [UpdateBalanceVar.result, result, accountsRoot, Leg.apply, leafHashes_update, account, after, balance, keyX, keyY,
    tokenValue, ← valid.publicKeyX, ← valid.publicKeyY, ← valid.token]
  rfl

/-- A trading-history update's witness on an honest read performs its fill. -/
theorem Fill.generateR1csWitness_spec (f : Fill) (name : UpdateFilledVar → V)
    (inj : Function.Injective name) (address : List V) (fill : V) (filled : FieldT)
    (proof : Proof) (σ : Assignment V) (slots : List Bool → FieldT)
    (outside : ∀ x ∈ address, x ∉ Set.range name ∧ IsBoolean (σ x))
    (fillOutside : fill ∉ Set.range name) (width : address.length = TREE_DEPTH_FILLED)
    (slot : (address.map σ).map toBit = f.slot) (amount : σ fill = f.fill)
    (filledValue : filled = slots f.slot)
    (path : proof.data = siblings P 0 (leafHashes P filledMessage slots) f.slot) :
    UpdateFilledGadget.Constraints P (historyRoot P slots) (address.map σ) f.fill
        (run (UpdateFilledGadget.generateR1csWitness P name address fill filled proof) σ ∘ name) ∧
      run (UpdateFilledGadget.generateR1csWitness P name address fill filled proof) σ
          (name .filledAfter) = slots f.slot + f.fill ∧
      run (UpdateFilledGadget.generateR1csWitness P name address fill filled proof) σ
          (name UpdateFilledVar.result) = historyRoot P (f.apply slots) := by
  obtain ⟨constraints, filledAfter, result⟩ := UpdateFilledGadget.generateR1csWitness_spec P name
    inj address fill filled proof σ (leafHashes P filledMessage slots) outside fillOutside
    (by rw [slot, filledValue]; rfl) (slot ▸ path)
  have nonempty : address.map σ ≠ [] := by
    rw [← List.length_pos, List.length_map, width]
    decide
  rw [width, amount] at constraints
  rw [width, MerkleUpdate.result_eq_var _ nonempty, List.length_map, width] at result
  refine ⟨constraints, by rw [filledAfter, amount, filledValue], ?_⟩
  rw [UpdateFilledVar.result, result, historyRoot, Fill.apply, leafHashes_update, slot, amount,
    filledValue]
  rfl

end Updates

/-- The member of a `RingSettlementGadget` a variable belongs to, numbered in the order the witness
writes them. -/
def RingVar.member : RingVar → ℕ
  | .orderA _ => 0
  | .orderB _ => 1
  | .fillS_A _ => 2
  | .fillB_A _ => 3
  | .fillF_A _ => 4
  | .fillS_B _ => 5
  | .fillB_B _ => 6
  | .fillF_B _ => 7
  | .balanceS_A_before | .balanceB_A_before | .balanceF_A_before | .balanceF_W_A_before
  | .balanceS_B_before | .balanceB_B_before | .balanceF_B_before | .balanceF_W_B_before => 8
  | .balanceSB_A _ => 9
  | .balanceSB_B _ => 10
  | .balanceF_A _ => 11
  | .balanceF_B _ => 12
  | .updateFilledA _ => 13
  | .updateFilledB _ => 14
  | .filledLeqA _ => 15
  | .filledLeqB _ => 16
  | .updateBalanceS_A _ => 17
  | .updateBalanceB_A _ => 18
  | .updateBalanceF_A _ => 19
  | .updateBalanceS_B _ => 20
  | .updateBalanceB_B _ => 21
  | .updateBalanceF_B _ => 22
  | .rateCheckerA _ => 23
  | .rateCheckerB _ => 24
  | .rateCheckerFeeA _ => 25
  | .rateCheckerFeeB _ => 26
  | .matchLeqA _ => 27
  | .matchLeqB _ => 28

/-- What the data part of a ring's witness leaves on the ring's variables. -/
structure RingSettlement.DataWritten (rs : RingSettlement) (τ : RingVar → FieldT) : Prop where
  orderA : ∀ v ∈ OrderVar.vars, τ (.orderA v) = rs.ring.orderA.values v
  orderB : ∀ v ∈ OrderVar.vars, τ (.orderB v) = rs.ring.orderB.values v
  fillS_A : ∀ v ∈ DualVar.vars 96, τ (.fillS_A v) = DualVar.value rs.ring.fillS_A v
  fillB_A : ∀ v ∈ DualVar.vars 96, τ (.fillB_A v) = DualVar.value rs.ring.fillB_A v
  fillF_A : ∀ v ∈ DualVar.vars 96, τ (.fillF_A v) = DualVar.value rs.ring.fillF_A v
  fillS_B : ∀ v ∈ DualVar.vars 96, τ (.fillS_B v) = DualVar.value rs.ring.fillS_B v
  fillB_B : ∀ v ∈ DualVar.vars 96, τ (.fillB_B v) = DualVar.value rs.ring.fillB_B v
  fillF_B : ∀ v ∈ DualVar.vars 96, τ (.fillF_B v) = DualVar.value rs.ring.fillF_B v
  balanceS_A_before : τ .balanceS_A_before = rs.accountS_A_before.balance
  balanceB_A_before : τ .balanceB_A_before = rs.accountB_A_before.balance
  balanceF_A_before : τ .balanceF_A_before = rs.accountF_A_before.balance
  balanceF_W_A_before : τ .balanceF_W_A_before = 0
  balanceS_B_before : τ .balanceS_B_before = rs.accountS_B_before.balance
  balanceB_B_before : τ .balanceB_B_before = rs.accountB_B_before.balance
  balanceF_B_before : τ .balanceF_B_before = rs.accountF_B_before.balance
  balanceF_W_B_before : τ .balanceF_W_B_before = 0
  balanceSB_A : τ (.balanceSB_A .X) = rs.accountS_A_before.balance - rs.ring.fillS_A ∧
    τ (.balanceSB_A .Y) = rs.accountB_B_before.balance + rs.ring.fillS_A
  balanceSB_B : τ (.balanceSB_B .X) = rs.accountS_B_before.balance - rs.ring.fillS_B ∧
    τ (.balanceSB_B .Y) = rs.accountB_A_before.balance + rs.ring.fillS_B
  balanceF_A : τ (.balanceF_A .X) = rs.accountF_A_before.balance - rs.ring.fillF_A ∧
    τ (.balanceF_A .Y) = 0 + rs.ring.fillF_A
  balanceF_B : τ (.balanceF_B .X) = rs.accountF_B_before.balance - rs.ring.fillF_B ∧
    τ (.balanceF_B .Y) = 0 + rs.ring.fillF_B

theorem OrderVar.bitsOf_values {τ : OrderVar → FieldT} {order : Order}
    (values : ∀ v ∈ OrderVar.vars, τ v = order.values v) (field : DualVar → OrderVar) (x : FieldT)
    (value : ∀ d, order.values (field d) = DualVar.value x d) {width : ℕ}
    (mem : ∀ i < width, field (.bits i) ∈ OrderVar.vars) :
    OrderVar.bitsOf τ field width = (List.range width).map (bitOf x.val) :=
  List.map_congr_left fun i hi => (values _ (mem i (List.mem_range.mp hi))).trans (value _)

theorem boolean_range_bitOf (n width : ℕ) : ∀ x ∈ (List.range width).map (bitOf n), IsBoolean x := by
  simp only [List.mem_map]
  rintro _ ⟨i, -, rfl⟩
  exact bitOf_isBoolean _ _

theorem RingVar.filledAddress_values {τ : RingVar → FieldT} {order : OrderVar → RingVar}
    {o : Order} (values : ∀ v ∈ OrderVar.vars, τ (order v) = o.values v) :
    RingVar.filledAddress τ order =
      (List.range 4).map (bitOf o.orderID.val) ++ (List.range 24).map (bitOf o.accountS.val) := by
  simp only [RingVar.filledAddress, flatten, List.flatten, List.append_nil]
  rw [OrderVar.bitsOf_values values .orderID o.orderID (fun _ => rfl)
      (fun i hi => OrderVar.mem_vars.mpr (DualVar.bits_mem_vars hi)),
    OrderVar.bitsOf_values values .accountS o.accountS (fun _ => rfl)
      (fun i hi => OrderVar.mem_vars.mpr (DualVar.bits_mem_vars hi))]

theorem Order.filledSlot_eq (o : Order) :
    ((List.range 4).map (bitOf o.orderID.val) ++ (List.range 24).map (bitOf o.accountS.val)).map
      toBit = o.filledSlot := by
  rw [List.map_append, map_toBit_bitOf, map_toBit_bitOf]
  rfl

section Address

variable {V : Type} (name : RingVar → V)

theorem RingVar.filledAddressVars_map (σ : Assignment V) (order : OrderVar → RingVar) :
    (RingVar.filledAddressVars name order).map σ = RingVar.filledAddress (σ ∘ name) order := by
  simp only [RingVar.filledAddressVars, RingVar.filledAddress, flatten, List.flatten,
    List.append_nil, List.map_append, DualVar.map_bitsOf, OrderVar.bitsOf]
  rfl

theorem RingVar.mem_filledAddressVars {order : OrderVar → RingVar} {x : V}
    (mem : x ∈ RingVar.filledAddressVars name order) : ∃ v, x = name (order v) := by
  simp only [RingVar.filledAddressVars, flatten, List.flatten, List.append_nil, List.mem_append,
    DualVar.bitsOf, List.mem_map] at mem
  rcases mem with ⟨i, -, rfl⟩ | ⟨i, -, rfl⟩ <;> exact ⟨_, rfl⟩

theorem RingVar.length_filledAddressVars (order : OrderVar → RingVar) :
    (RingVar.filledAddressVars name order).length = TREE_DEPTH_FILLED := by
  simp [RingVar.filledAddressVars, flatten, TREE_DEPTH_FILLED]

end Address

/-! A ring's witness as runs of blocks. Each block of `RingSettlementGadget::generate_r1cs_witness`
fills one member of the gadget, in the order `RingVar.member` numbers them, and reads only the
members before its own; so each block's spec holds at any assignment that agrees with the run's
result. -/

section Blocks

variable {V : Type} [DecidableEq V] {name : RingVar → V}

omit [DecidableEq V] in
/-- A run of blocks filling the members `k`, `k + 1`, … writes only those members. -/
theorem RingVar.writesOnly_blocks {D : Type} {block : D → List (Write V)} (member : D → ℕ)
    {ds : List D} {k : ℕ} (members : ds.map member = List.range' k ds.length)
    (writes : ∀ d ∈ ds, WritesOnly name (fun u => u.member = member d) (block d)) :
    WritesOnly name (fun u => k ≤ u.member ∧ u.member < k + ds.length) (ds.flatMap block) :=
  .flatMap fun d listed => (writes d listed).mono fun u same => by
    have mem := List.mem_map_of_mem member listed
    rw [members, List.mem_range'_1] at mem
    omega

/-- Each block of a run meets its spec on any assignment that agrees with the run's result. -/
theorem RingVar.run_blocks (inj : Function.Injective name) {D : Type}
    (block : D → List (Write V)) (member : D → ℕ) (τ : RingVar → FieldT) (Good : D → Prop) :
    ∀ (ds : List D) (k : ℕ) (σ : Assignment V), ds.map member = List.range' k ds.length →
      (∀ d ∈ ds, WritesOnly name (fun u => u.member = member d) (block d)) →
      (∀ d ∈ ds, ∀ σ : Assignment V, (∀ u, u.member < member d → τ u = σ (name u)) →
        (∀ u, u.member = member d → τ u = run (block d) σ (name u)) → Good d) →
      (∀ u, u.member < k + ds.length → τ u = run (ds.flatMap block) σ (name u)) →
      ∀ d ∈ ds, Good d
  | [], _, _, _, _, _, _ => fun _ absent => absurd absent (List.not_mem_nil _)
  | d :: ds, k, σ, members, writes, step, agree => by
    rw [List.map_cons, List.length_cons, List.range'_succ, List.cons.injEq] at members
    obtain ⟨first, rest⟩ := members
    rw [List.length_cons] at agree
    have later : WritesOnly name (fun u => k < u.member) (ds.flatMap block) :=
      (RingVar.writesOnly_blocks member rest fun d' h => writes d' (List.mem_cons_of_mem _ h)).mono
        fun u h => by omega
    have after : ∀ u, u.member ≤ k → τ u = run (block d) σ (name u) := fun u hu => by
      rw [agree u (by omega), List.flatMap_cons, run_append]
      exact later.run_name inj _ u (by omega)
    rintro d' (_ | ⟨_, listed⟩)
    · exact step d (List.mem_cons_self _ _) σ
        (fun u hu => (after u (by omega)).trans
          ((writes d (List.mem_cons_self _ _)).run_name inj σ u (by omega)))
        fun u hu => after u (by omega)
    · refine RingVar.run_blocks inj block member τ Good ds (k + 1) (run (block d) σ) rest
        (fun d' h => writes d' (List.mem_cons_of_mem _ h))
        (fun d' h => step d' (List.mem_cons_of_mem _ h)) (fun u hu => ?_) d' listed
      rw [agree u (by omega), List.flatMap_cons, run_append]

theorem RingVar.agree_append (inj : Function.Injective name) {ws ws' : List (Write V)} {m : ℕ}
    (later : WritesOnly name (fun u => m ≤ u.member) ws') {τ : RingVar → FieldT}
    {σ : Assignment V} (agree : ∀ u, u.member < m → τ u = run (ws ++ ws') σ (name u)) :
    ∀ u, u.member < m → τ u = run ws σ (name u) := fun u hu => by
  rw [agree u hu, run_append]
  exact later.run_name inj _ u (by omega)

end Blocks

/-- A block of the data part of a ring's witness: an order, a fill of 96 bits, the balances
before, or a sub-add. -/
inductive DataBlock
  | order (vars : OrderVar → RingVar) (o : Order)
  | fill (vars : DualVar → RingVar) (x : FieldT)
  | balances (values : List (RingVar × FieldT))
  | subadd (vars : SubaddVar → RingVar) (A B N : RingVar)

namespace DataBlock

/-- The member a block fills. -/
def member : DataBlock → ℕ
  | order vars _ => (vars .publicKeyX).member
  | fill vars _ => (vars .packed).member
  | balances [] => 0
  | balances (p :: _) => p.1.member
  | subadd vars .. => (vars .X).member

/-- Its writes, as `RingSettlementGadget::generate_r1cs_witness` makes them. -/
def witness {V : Type} (name : RingVar → V) : DataBlock → List (Write V)
  | order vars o => OrderGadget.generateR1csWitness (name ∘ vars) o
  | fill vars x => DualVariableGadget.generateR1csWitness (name ∘ vars) 96 x
  | balances values => values.map fun p => (name p.1, fun _ => p.2)
  | subadd vars A B N => SubaddGadget.generateR1csWitness (name ∘ vars) (name A) (name B) (name N)

/-- What it leaves on the values `τ` reads. -/
def Holds (τ : RingVar → FieldT) : DataBlock → Prop
  | order vars o => ∀ v ∈ OrderVar.vars, τ (vars v) = o.values v
  | fill vars x => ∀ v ∈ DualVar.vars 96, τ (vars v) = DualVar.value x v
  | balances values => ∀ p ∈ values, τ p.1 = p.2
  | subadd vars A B N => τ (vars .X) = τ A - τ N ∧ τ (vars .Y) = τ B + τ N

/-- Its variables are distinct and all of its member, and a sub-add's inputs lie below it. -/
def WellFormed (d : DataBlock) : Prop :=
  match d with
  | order vars _ => Function.Injective vars ∧ ∀ v, (vars v).member = d.member
  | fill vars _ => Function.Injective vars ∧ ∀ v, (vars v).member = d.member
  | balances values => (values.map Prod.fst).Nodup ∧ ∀ u ∈ values.map Prod.fst, u.member = d.member
  | subadd vars A B N => Function.Injective vars ∧ (∀ v, (vars v).member = d.member) ∧
      A.member < d.member ∧ B.member < d.member ∧ N.member < d.member

/-- An order or a fill has the width its variables are declared with. -/
def Fits : DataBlock → Prop
  | order _ o => o.Fits
  | fill _ x => x.val < 2 ^ 96
  | _ => True

variable {V : Type} [DecidableEq V] {name : RingVar → V}

omit [DecidableEq V] in
theorem writesOnly (d : DataBlock) (wf : d.WellFormed) :
    WritesOnly name (fun u => u.member = d.member) (d.witness name) := by
  cases d with
  | order vars o =>
    exact .of_targets vars _ (fun v _ => wf.2 v) (OrderGadget.targets_generateR1csWitness _ _)
  | fill vars x =>
    exact .of_targets vars _ (fun v _ => wf.2 v)
      (DualVariableGadget.targets_generateR1csWitness _ _ _)
  | balances values =>
    exact .of_targets id _ wf.2 (by simp only [witness, List.map_map]; rfl)
  | subadd vars A B N => exact .of_targets vars [.X, .Y] (fun v _ => wf.2.1 v) rfl

/-- One block of the data part: what it writes, read on `τ`. -/
theorem witness_spec (inj : Function.Injective name) (d : DataBlock) (wf : d.WellFormed)
    (fits : d.Fits) {τ : RingVar → FieldT} {σ : Assignment V}
    (before : ∀ u, u.member < d.member → τ u = σ (name u))
    (after : ∀ u, u.member = d.member → τ u = run (d.witness name) σ (name u)) : d.Holds τ := by
  cases d with
  | order vars o =>
    obtain ⟨varsInj, own⟩ := wf
    exact fun v listed => (after _ (own v)).trans
      (OrderGadget.run_generateR1csWitness _ (inj.comp varsInj) o fits σ v listed)
  | fill vars x =>
    obtain ⟨varsInj, own⟩ := wf
    exact fun v listed => (after _ (own v)).trans
      (DualVariableGadget.run_value _ (inj.comp varsInj) fits σ v listed)
  | balances values =>
    obtain ⟨distinct, own⟩ := wf
    intro p listed
    rw [after _ (own _ (List.mem_map_of_mem _ listed))]
    refine @run_of_written V _ (· = p.2) _ _
      (List.mem_map_of_mem _ (List.mem_map_of_mem _ listed)) (fun w written same _ => ?_) σ
    obtain ⟨q, other, rfl⟩ := List.mem_map.mp written
    exact congrArg Prod.snd (List.inj_on_of_nodup_map distinct other listed (inj same))
  | subadd vars A B N =>
    obtain ⟨varsInj, own, hA, hB, hN⟩ := wf
    have outside : ∀ u, u.member < (vars .X).member → name u ∉ Set.range (name ∘ vars) :=
      fun u hu ⟨w, hw⟩ => hu.ne (by rw [← inj hw]; exact own w)
    obtain ⟨X, Y⟩ := SubaddGadget.run_generateR1csWitness _ (inj.comp varsInj) (name A) (name B)
      (name N) ⟨outside B hB, outside N hN⟩ σ
    refine ⟨(after _ (own .X)).trans ?_, (after _ (own .Y)).trans ?_⟩
    · rw [before A hA, before N hN]
      exact X
    · rw [before B hB, before N hN]
      exact Y

end DataBlock

/-- A check of a ring's witness: a rate checker on `(fillS, fillB, amountS, amountB)`, or a
comparison `A ≤ B`. -/
inductive Check
  | rate (checker : RateVar → RingVar) (fillS fillB amountS amountB : RingVar)
  | leq (vars : LeqVar → RingVar) (A B : RingVar)

namespace Check

/-- The member a check fills. -/
def member : Check → ℕ
  | rate checker .. => (checker .invariant).member
  | leq vars .. => (vars .leq).member

/-- Its writes: `RateCheckerGadget::generate_r1cs_witness` or `LeqGadget::generate_r1cs_witness`. -/
def witness {V : Type} (name : RingVar → V) : Check → List (Write V)
  | rate checker _ fillB amountS _ =>
      RateCheckerGadget.generateR1csWitness (name ∘ checker) (name amountS) (name fillB)
  | leq vars A B => LeqGadget.generateR1csWitness (name ∘ vars) (name A) (name B)

/-- Its constraints, on the values `τ` reads. -/
def Holds (τ : RingVar → FieldT) : Check → Prop
  | rate checker fillS fillB amountS amountB =>
      RateCheckerGadget.Constraints (τ fillS) (τ fillB) (τ amountS) (τ amountB) fun v => τ (checker v)
  | leq vars A B => LeqGadget.Constraints (τ A) (τ B) fun v => τ (vars v)

/-- What its witness needs of the operands `τ` reads: rates that agree, or `A ≤ B` on 128 bits. -/
def Feasible (τ : RingVar → FieldT) : Check → Prop
  | rate _ fillS fillB amountS amountB => τ amountB * τ fillS = τ amountS * τ fillB
  | leq _ A B => (τ A).val < 2 ^ 128 ∧ (τ B).val < 2 ^ 128 ∧ (τ A).val ≤ (τ B).val

/-- Its variables are distinct and all of its member, and its operands lie below it. -/
def WellFormed (c : Check) : Prop :=
  match c with
  | rate _ fillS fillB amountS amountB => fillS.member < c.member ∧ fillB.member < c.member ∧
      amountS.member < c.member ∧ amountB.member < c.member
  | leq vars A B => Function.Injective vars ∧ (∀ v, (vars v).member = c.member) ∧
      A.member < c.member ∧ B.member < c.member

variable {V : Type} [DecidableEq V] {name : RingVar → V}

omit [DecidableEq V] in
theorem writesOnly (c : Check) (wf : c.WellFormed) :
    WritesOnly name (fun u => u.member = c.member) (c.witness name) := by
  cases c with
  | rate checker fillS fillB amountS amountB =>
    exact .of_targets checker [.invariant] (fun _ _ => rfl) rfl
  | leq vars A B =>
    exact .of_targets vars _ (fun v _ => wf.2.1 v) (LeqGadget.targets_generateR1csWitness _ _ _)

/-- One check: on feasible operands, its witness satisfies it, read on `τ`. -/
theorem witness_spec (inj : Function.Injective name) (c : Check) (wf : c.WellFormed)
    {τ : RingVar → FieldT} {σ : Assignment V} (before : ∀ u, u.member < c.member → τ u = σ (name u))
    (after : ∀ u, u.member = c.member → τ u = run (c.witness name) σ (name u))
    (feasible : c.Feasible τ) : c.Holds τ := by
  cases c with
  | rate checker fillS fillB amountS amountB =>
    obtain ⟨hS, hB, aS, aB⟩ := wf
    have spec := RateCheckerGadget.generateR1csWitness_spec (name ∘ checker) (name fillS)
      (name fillB) (name amountS) (name amountB) σ
      (by rw [← before _ hS, ← before _ hB, ← before _ aS, ← before _ aB]; exact feasible)
    have written : run (RateCheckerGadget.generateR1csWitness (name ∘ checker) (name amountS)
        (name fillB)) σ ∘ (name ∘ checker) = fun v => τ (checker v) :=
      funext fun v => by cases v; exact Function.comp_apply.trans (after _ rfl).symm
    rwa [← before _ hS, ← before _ hB, ← before _ aS, ← before _ aB, written] at spec
  | leq vars A B =>
    obtain ⟨varsInj, own, hA, hB⟩ := wf
    obtain ⟨rangeA, rangeB, le⟩ := feasible
    have spec := LeqGadget.generateR1csWitness_spec (name ∘ vars) (inj.comp varsInj) (name A)
      (name B) σ (before A hA ▸ rangeA) (before B hB ▸ rangeB) (before A hA ▸ before B hB ▸ le)
    have written : run (LeqGadget.generateR1csWitness (name ∘ vars) (name A) (name B)) σ ∘
        (name ∘ vars) = fun v => τ (vars v) :=
      funext fun v => Function.comp_apply.trans (after _ (own v)).symm
    rwa [← before A hA, ← before B hB, written] at spec

end Check

/-- A trading-history update of a ring's witness: the update's variables, the order whose slot it
updates, the fill it adds, and the filled amount and proof the data gives it. -/
structure FillUpdate where
  update : UpdateFilledVar → RingVar
  order : OrderVar → RingVar
  fill : DualVar → RingVar
  filled : FieldT
  proof : Proof

namespace FillUpdate

/-- The member it fills. -/
def member (f : FillUpdate) : ℕ := (f.update .filledAfter).member

/-- Its writes: `UpdateFilledGadget::generate_r1cs_witness` at its order's slot. -/
def witness {V : Type} (name : RingVar → V) (f : FillUpdate) : List (Write V) :=
  UpdateFilledGadget.generateR1csWitness P (name ∘ f.update) (RingVar.filledAddressVars name f.order)
    (name (f.fill .packed)) f.filled f.proof

/-- Its constraints on the root `root`, and its order's cap on the filled amount it leaves. -/
def Capped (τ : RingVar → FieldT) (f : FillUpdate) (root : FieldT) : Prop :=
  UpdateFilledGadget.Constraints P root (RingVar.filledAddress τ f.order) (τ (f.fill .packed))
      (fun v => τ (f.update v)) ∧
    (τ (f.update .filledAfter)).val ≤ (τ (f.order (.amountS .packed))).val

structure WellFormed (f : FillUpdate) : Prop where
  inj : Function.Injective f.update
  own : ∀ w, (f.update w).member = f.member
  order : ∀ v, (f.order v).member < f.member
  fill : (f.fill .packed).member < f.member

/-- What an update reads that makes it perform the fill `fl`: its order's slot, in boolean bits,
`fl`'s fill and `fl`'s cap. -/
structure Reads (τ : RingVar → FieldT) (f : FillUpdate) (fl : Fill) : Prop where
  slot : (RingVar.filledAddress τ f.order).map toBit = fl.slot
  boolean : ∀ x ∈ RingVar.filledAddress τ f.order, IsBoolean x
  fill : τ (f.fill .packed) = fl.fill
  amountS : τ (f.order (.amountS .packed)) = fl.amountS

theorem reads_of_values {τ : RingVar → FieldT} {f : FillUpdate} {o : Order} {x : FieldT}
    (values : ∀ v ∈ OrderVar.vars, τ (f.order v) = o.values v) (fill : τ (f.fill .packed) = x) :
    f.Reads τ ⟨o.filledSlot, x, o.amountS⟩ := by
  have address := RingVar.filledAddress_values values
  refine ⟨by rw [address, Order.filledSlot_eq], fun y mem => ?_, fill,
    values _ (OrderVar.mem_vars.mpr (DualVar.packed_mem_vars _))⟩
  rw [address] at mem
  rcases List.mem_append.mp mem with h | h <;> exact boolean_range_bitOf _ _ y h

variable {V : Type} [DecidableEq V] {name : RingVar → V}

omit [DecidableEq V] in
theorem writesOnly (f : FillUpdate) (wf : f.WellFormed) :
    WritesOnly name (fun u => u.member = f.member) (f.witness P name) :=
  .of_targets f.update _ (fun w _ => wf.own w) (UpdateFilledGadget.targets_generateR1csWitness _ _ _ _ _ _)

/-- One trading-history update on an honest read of `slots`. -/
theorem witness_spec (inj : Function.Injective name) (f : FillUpdate) (wf : f.WellFormed)
    {τ : RingVar → FieldT} {σ : Assignment V} (before : ∀ u, u.member < f.member → τ u = σ (name u))
    (after : ∀ u, u.member = f.member → τ u = run (f.witness P name) σ (name u)) {fl : Fill}
    (reads : f.Reads τ fl) (slots : List Bool → FieldT) (valid : fl.Valid slots)
    (filled : f.filled = slots fl.slot)
    (path : f.proof.data = siblings P 0 (leafHashes P filledMessage slots) fl.slot) :
    f.Capped P τ (historyRoot P slots) ∧
      τ (f.update UpdateFilledVar.result) = historyRoot P (fl.apply slots) := by
  unfold witness at after
  have outside : ∀ u, u.member < f.member → name u ∉ Set.range (name ∘ f.update) :=
    fun u hu ⟨w, hw⟩ => hu.ne (by rw [← inj hw]; exact wf.own w)
  have address : (RingVar.filledAddressVars name f.order).map σ = RingVar.filledAddress τ f.order := by
    rw [RingVar.filledAddressVars_map]
    simp only [RingVar.filledAddress, OrderVar.bitsOf, Function.comp_apply,
      fun v => (before (f.order v) (wf.order v)).symm]
  obtain ⟨constraints, filledAfter, result⟩ := Fill.generateR1csWitness_spec P fl (name ∘ f.update)
    (inj.comp wf.inj) _ _ _ _ σ slots
    (fun x mem => by
      have read := List.mem_map_of_mem σ mem
      obtain ⟨v, rfl⟩ := RingVar.mem_filledAddressVars name mem
      rw [address] at read
      exact ⟨outside _ (wf.order v), reads.boolean _ read⟩)
    (outside _ wf.fill) (RingVar.length_filledAddressVars name f.order)
    (by rw [address, reads.slot]) ((before _ wf.fill).symm.trans reads.fill) filled path
  have written : run (UpdateFilledGadget.generateR1csWitness P (name ∘ f.update)
      (RingVar.filledAddressVars name f.order) (name (f.fill .packed)) f.filled f.proof) σ ∘
        (name ∘ f.update) = fun w => τ (f.update w) :=
    funext fun w => Function.comp_apply.trans (after _ (wf.own w)).symm
  rw [address, ← reads.fill, written] at constraints
  have filledAfter : τ (f.update .filledAfter) = slots fl.slot + fl.fill :=
    (after _ (wf.own _)).trans filledAfter
  refine ⟨⟨constraints, ?_⟩, (after _ (wf.own _)).trans result⟩
  rw [filledAfter, reads.amountS]
  exact valid.cap

end FillUpdate

/-- A balance update of a ring's witness: the update's variables, the order whose account it
updates, the account's and the token's field, the balances before and after, and the proof. -/
structure BalanceUpdate where
  update : UpdateBalanceVar → RingVar
  order : OrderVar → RingVar
  account : DualVar → OrderVar
  token : OrderVar
  before : RingVar
  after : RingVar
  proof : Proof

namespace BalanceUpdate

/-- The member it fills. -/
def member (b : BalanceUpdate) : ℕ := (b.update UpdateBalanceVar.result).member

/-- Its writes: `UpdateBalanceGadget::generate_r1cs_witness` at its order's account. -/
def witness {V : Type} (name : RingVar → V) (b : BalanceUpdate) : List (Write V) :=
  UpdateBalanceGadget.generateR1csWitness P (name ∘ b.update)
    (DualVar.bitsOf (name ∘ b.order ∘ b.account) 24) (name (b.order .publicKeyX))
    (name (b.order .publicKeyY)) (name (b.order b.token)) (name b.before) (name b.after) b.proof

/-- Its constraints on the root `root`. -/
def Constraints (τ : RingVar → FieldT) (b : BalanceUpdate) (root : FieldT) : Prop :=
  UpdateBalanceGadget.Constraints P root (OrderVar.bitsOf (fun v => τ (b.order v)) b.account 24)
    (τ (b.order .publicKeyX)) (τ (b.order .publicKeyY)) (τ (b.order b.token)) (τ b.before)
    (τ b.after) fun v => τ (b.update v)

structure WellFormed (b : BalanceUpdate) : Prop where
  inj : Function.Injective b.update
  own : ∀ w, (b.update w).member = b.member
  order : ∀ v, (b.order v).member < b.member
  before : b.before.member < b.member
  after : b.after.member < b.member

/-- What an update reads that makes it perform the leg `leg`: its order's account, in boolean
bits, its key and token, and the balance after `leg` moves its amount. -/
structure Reads (τ : RingVar → FieldT) (b : BalanceUpdate) (leg : Leg) : Prop where
  account : (OrderVar.bitsOf (fun v => τ (b.order v)) b.account 24).map toBit = leg.account
  boolean : ∀ x ∈ OrderVar.bitsOf (fun v => τ (b.order v)) b.account 24, IsBoolean x
  publicKeyX : τ (b.order .publicKeyX) = leg.publicKeyX
  publicKeyY : τ (b.order .publicKeyY) = leg.publicKeyY
  token : τ (b.order b.token) = leg.token
  balanceAfter : τ b.after = leg.balanceAfter (τ b.before)

theorem reads_of_values {τ : RingVar → FieldT} {b : BalanceUpdate} {o : Order}
    (values : ∀ v ∈ OrderVar.vars, τ (b.order v) = o.values v) (x : FieldT)
    (account : ∀ d, o.values (b.account d) = DualVar.value x d)
    (accountMem : ∀ i < 24, b.account (.bits i) ∈ OrderVar.vars) (tokenMem : b.token ∈ OrderVar.vars)
    {amount : FieldT} {credit : Bool}
    (balanceAfter : τ b.after =
      (RingSettlement.leg o x (o.values b.token) amount credit).balanceAfter (τ b.before)) :
    b.Reads τ (RingSettlement.leg o x (o.values b.token) amount credit) := by
  have bits := OrderVar.bitsOf_values values b.account x account accountMem
  refine ⟨by rw [bits, map_toBit_bitOf]; rfl, bits ▸ boolean_range_bitOf _ _,
    values _ (OrderVar.mem_vars.mpr trivial), values _ (OrderVar.mem_vars.mpr trivial),
    values _ tokenMem, balanceAfter⟩

variable {V : Type} [DecidableEq V] {name : RingVar → V}

omit [DecidableEq V] in
theorem writesOnly (b : BalanceUpdate) (wf : b.WellFormed) :
    WritesOnly name (fun u => u.member = b.member) (b.witness P name) :=
  .of_targets b.update _ (fun w _ => wf.own w)
    (UpdateBalanceGadget.targets_generateR1csWitness _ _ _ _ _ _ _ _ _)

/-- One balance update on an honest read of `accounts`. -/
theorem witness_spec (inj : Function.Injective name) (b : BalanceUpdate) (wf : b.WellFormed)
    {τ : RingVar → FieldT} {σ : Assignment V} (before : ∀ u, u.member < b.member → τ u = σ (name u))
    (after : ∀ u, u.member = b.member → τ u = run (b.witness P name) σ (name u)) {leg : Leg}
    (reads : b.Reads τ leg) (accounts : List Bool → Account) (valid : leg.Valid accounts)
    (balance : τ b.before = (accounts leg.account).balance)
    (path : b.proof.data = siblings P 0 (leafHashes P Account.message accounts) leg.account) :
    b.Constraints P τ (accountsRoot P accounts) ∧
      τ (b.update UpdateBalanceVar.result) = accountsRoot P (leg.apply accounts) := by
  unfold witness at after
  have outside : ∀ u, u.member < b.member → name u ∉ Set.range (name ∘ b.update) :=
    fun u hu ⟨w, hw⟩ => hu.ne (by rw [← inj hw]; exact wf.own w)
  have keyX := before _ (wf.order .publicKeyX)
  have keyY := before _ (wf.order .publicKeyY)
  have token := before _ (wf.order b.token)
  have address : (DualVar.bitsOf (name ∘ b.order ∘ b.account) 24).map σ =
      OrderVar.bitsOf (fun v => τ (b.order v)) b.account 24 := by
    simp only [DualVar.map_bitsOf, OrderVar.bitsOf, Function.comp_def,
      fun v => (before (b.order v) (wf.order v)).symm]
  obtain ⟨constraints, result⟩ := Leg.generateR1csWitness_spec P leg (name ∘ b.update)
    (inj.comp wf.inj) (DualVar.bitsOf (name ∘ b.order ∘ b.account) 24) (name (b.order .publicKeyX))
    (name (b.order .publicKeyY)) (name (b.order b.token)) (name b.before) (name b.after) b.proof σ
    accounts
    (fun x mem => by
      have read := List.mem_map_of_mem σ mem
      obtain ⟨i, -, rfl⟩ := List.mem_map.mp mem
      rw [address] at read
      exact ⟨outside _ (wf.order _), reads.boolean _ read⟩)
    (by
      simp only [List.mem_cons, List.not_mem_nil, or_false]
      rintro _ (rfl | rfl | rfl | rfl | rfl)
      exacts [outside _ (wf.order _), outside _ (wf.order _), outside _ (wf.order _),
        outside _ wf.before, outside _ wf.after])
    (DualVar.length_bitsOf _ _) (by rw [address, reads.account])
    (keyX.symm.trans reads.publicKeyX) (keyY.symm.trans reads.publicKeyY)
    (token.symm.trans reads.token) valid ((before _ wf.before).symm.trans balance)
    (by rw [← before _ wf.after, ← before _ wf.before]; exact reads.balanceAfter) path
  have written : run (UpdateBalanceGadget.generateR1csWitness P (name ∘ b.update)
      (DualVar.bitsOf (name ∘ b.order ∘ b.account) 24) (name (b.order .publicKeyX))
      (name (b.order .publicKeyY)) (name (b.order b.token)) (name b.before) (name b.after)
      b.proof) σ ∘ (name ∘ b.update) = fun w => τ (b.update w) :=
    funext fun w => Function.comp_apply.trans (after _ (wf.own w)).symm
  rw [← keyX, ← keyY, ← token, ← before _ wf.before, ← before _ wf.after, address, written]
    at constraints
  exact ⟨constraints, (after _ (wf.own _)).trans result⟩

end BalanceUpdate

namespace RingSettlement

variable (rs : RingSettlement)

/-- The blocks of the data part, in the order `generate_r1cs_witness` runs them: both orders, the
six fills, the balances before (the fee wallets' zero) and the four sub-adds. -/
def dataBlocks : List DataBlock :=
  [.order .orderA rs.ring.orderA, .order .orderB rs.ring.orderB, .fill .fillS_A rs.ring.fillS_A,
    .fill .fillB_A rs.ring.fillB_A, .fill .fillF_A rs.ring.fillF_A, .fill .fillS_B rs.ring.fillS_B,
    .fill .fillB_B rs.ring.fillB_B, .fill .fillF_B rs.ring.fillF_B,
    .balances [(.balanceS_A_before, rs.accountS_A_before.balance),
      (.balanceB_A_before, rs.accountB_A_before.balance),
      (.balanceF_A_before, rs.accountF_A_before.balance), (.balanceF_W_A_before, 0),
      (.balanceS_B_before, rs.accountS_B_before.balance),
      (.balanceB_B_before, rs.accountB_B_before.balance),
      (.balanceF_B_before, rs.accountF_B_before.balance), (.balanceF_W_B_before, 0)],
    .subadd .balanceSB_A .balanceS_A_before .balanceB_B_before (.fillS_A .packed),
    .subadd .balanceSB_B .balanceS_B_before .balanceB_A_before (.fillS_B .packed),
    .subadd .balanceF_A .balanceF_A_before .balanceF_W_A_before (.fillF_A .packed),
    .subadd .balanceF_B .balanceF_B_before .balanceF_W_B_before (.fillF_B .packed)]

/-- The two trading-history updates, `A`'s then `B`'s. -/
def fillUpdates : List FillUpdate :=
  [⟨.updateFilledA, .orderA, .fillS_A, rs.filledA, rs.proofFilledA⟩,
    ⟨.updateFilledB, .orderB, .fillS_B, rs.filledB, rs.proofFilledB⟩]

/-- The six balance updates, one per leg and in the legs' order. -/
def balanceUpdates : List BalanceUpdate :=
  [⟨.updateBalanceS_A, .orderA, .accountS, .tokenS, .balanceS_A_before, .balanceSB_A .X,
      rs.accountS_A_proof⟩,
    ⟨.updateBalanceB_A, .orderA, .accountB, .tokenB, .balanceB_A_before, .balanceSB_B .Y,
      rs.accountB_A_proof⟩,
    ⟨.updateBalanceF_A, .orderA, .accountF, .tokenF, .balanceF_A_before, .balanceF_A .X,
      rs.accountF_A_proof⟩,
    ⟨.updateBalanceS_B, .orderB, .accountS, .tokenS, .balanceS_B_before, .balanceSB_B .X,
      rs.accountS_B_proof⟩,
    ⟨.updateBalanceB_B, .orderB, .accountB, .tokenB, .balanceB_B_before, .balanceSB_A .Y,
      rs.accountB_B_proof⟩,
    ⟨.updateBalanceF_B, .orderB, .accountF, .tokenF, .balanceF_B_before, .balanceF_B .X,
      rs.accountF_B_proof⟩]

end RingSettlement

/-- The caps on the two trading-history updates: each slot's filled amount after is at most its
order's `amountS`. -/
def RingSettlementGadget.fillCaps : List Check :=
  [.leq .filledLeqA (.updateFilledA .filledAfter) (.orderA (.amountS .packed)),
    .leq .filledLeqB (.updateFilledB .filledAfter) (.orderB (.amountS .packed))]

/-- The matching checks: the four rates and the two matches. -/
def RingSettlementGadget.matchingChecks : List Check :=
  [.rate .rateCheckerA (.fillS_A .packed) (.fillB_A .packed) (.orderA (.amountS .packed))
      (.orderA (.amountB .packed)),
    .rate .rateCheckerB (.fillS_B .packed) (.fillB_B .packed) (.orderA (.amountB .packed))
      (.orderB (.amountB .packed)),
    .rate .rateCheckerFeeA (.fillF_A .packed) (.fillS_A .packed) (.orderA (.amountF .packed))
      (.orderA (.amountS .packed)),
    .rate .rateCheckerFeeB (.fillF_B .packed) (.fillS_B .packed) (.orderA (.amountF .packed))
      (.orderB (.amountS .packed)),
    .leq .matchLeqA (.fillB_B .packed) (.fillS_A .packed),
    .leq .matchLeqB (.fillB_A .packed) (.fillS_B .packed)]

section Witness

variable {V : Type} [DecidableEq V] (name : RingVar → V)

/-- The data part of `RingSettlementGadget::generate_r1cs_witness`. -/
def RingSettlementGadget.dataWitness (ringSettlement : RingSettlement) : List (Write V) :=
  ringSettlement.dataBlocks.flatMap (DataBlock.witness name)

/-- The trading-history part: the root the ring was built on, then both fills and their caps. -/
def RingSettlementGadget.tradingHistoryWitness (tradingHistoryMerkleRoot : V)
    (ringSettlement : RingSettlement) : List (Write V) :=
  [(tradingHistoryMerkleRoot, fun _ => ringSettlement.tradingHistoryMerkleRoot)] ++
    ringSettlement.fillUpdates.flatMap (FillUpdate.witness P name) ++
    RingSettlementGadget.fillCaps.flatMap (Check.witness name)

/-- The accounts part: the six balance updates. -/
def RingSettlementGadget.accountsWitness (ringSettlement : RingSettlement) : List (Write V) :=
  ringSettlement.balanceUpdates.flatMap (BalanceUpdate.witness P name)

/-- The matching part: the four rate checkers and the two matches. -/
def RingSettlementGadget.matchingWitness : List (Write V) :=
  RingSettlementGadget.matchingChecks.flatMap (Check.witness name)

omit [DecidableEq V] in
/-- The witness of a ring is its four parts, one after another. -/
theorem RingSettlementGadget.generateR1csWitness_eq (tradingHistoryMerkleRoot : V)
    (ringSettlement : RingSettlement) :
    RingSettlementGadget.generateR1csWitness P name tradingHistoryMerkleRoot ringSettlement =
      RingSettlementGadget.dataWitness name ringSettlement ++
        (RingSettlementGadget.tradingHistoryWitness P name tradingHistoryMerkleRoot ringSettlement ++
          (RingSettlementGadget.accountsWitness P name ringSettlement ++
            RingSettlementGadget.matchingWitness name)) := by
  simp only [RingSettlementGadget.generateR1csWitness, RingSettlementGadget.dataWitness,
    RingSettlementGadget.tradingHistoryWitness, RingSettlementGadget.accountsWitness,
    RingSettlementGadget.matchingWitness, RingSettlement.dataBlocks, RingSettlement.fillUpdates,
    RingSettlement.balanceUpdates, RingSettlementGadget.fillCaps,
    RingSettlementGadget.matchingChecks, List.flatMap_cons, List.flatMap_nil, DataBlock.witness,
    FillUpdate.witness, BalanceUpdate.witness, Check.witness, List.map_cons, List.map_nil,
    List.append_nil, List.append_assoc, List.cons_append, List.nil_append, Function.comp_apply]

end Witness

section Phases

variable {V : Type} [DecidableEq V] {name : RingVar → V}

theorem RingSettlement.dataBlocks_wellFormed (rs : RingSettlement) :
    ∀ d ∈ rs.dataBlocks, d.WellFormed := by
  have below : ∀ {m n : ℕ}, Nat.ble (m + 1) n = true → m < n := Nat.le_of_ble_eq_true
  simp only [RingSettlement.dataBlocks, List.forall_mem_cons]
  refine ⟨?_, ?_, ?_, ?_, ?_, ?_, ?_, ?_,
    ⟨by simp, by simp only [List.map_cons, List.map_nil, DataBlock.member, List.forall_mem_cons]; decide⟩,
    ?_, ?_, ?_, ?_, List.forall_mem_nil _⟩
  all_goals first
    | exact ⟨fun _ _ h => RingVar.noConfusion h id, fun _ => rfl⟩
    | exact ⟨fun _ _ h => RingVar.noConfusion h id, fun _ => rfl, below rfl, below rfl, below rfl⟩

theorem RingSettlement.dataBlocks_fit {rs : RingSettlement} (fits : rs.ring.Fits) :
    ∀ d ∈ rs.dataBlocks, d.Fits := by
  simp only [RingSettlement.dataBlocks, List.forall_mem_cons]
  exact ⟨fits.orderA, fits.orderB, fits.fillS_A, fits.fillB_A, fits.fillF_A, fits.fillS_B,
    fits.fillB_B, fits.fillF_B, trivial, trivial, trivial, trivial, trivial, List.forall_mem_nil _⟩

/-- The data part of a ring's witness writes what `DataWritten` says. -/
theorem RingSettlementGadget.dataWitness_spec (inj : Function.Injective name)
    (rs : RingSettlement) (fits : rs.ring.Fits) (σ : Assignment V) (τ : RingVar → FieldT)
    (agree : ∀ u, u.member < 13 → τ u = run (RingSettlementGadget.dataWitness name rs) σ (name u)) :
    rs.DataWritten τ := by
  have wf := rs.dataBlocks_wellFormed
  have holds := RingVar.run_blocks inj (DataBlock.witness name) DataBlock.member τ (DataBlock.Holds τ)
    rs.dataBlocks 0 σ rfl (fun d listed => d.writesOnly (wf d listed))
    (fun d listed _ before after =>
      d.witness_spec inj (wf d listed) (RingSettlement.dataBlocks_fit fits d listed) before after)
    agree
  simp only [RingSettlement.dataBlocks, List.forall_mem_cons, DataBlock.Holds] at holds
  obtain ⟨orderA, orderB, fillS_A, fillB_A, fillF_A, fillS_B, fillB_B, fillF_B,
    ⟨bSA, bBA, bFA, bFWA, bSB, bBB, bFB, bFWB, -⟩, subaddSB_A, subaddSB_B, subaddF_A, subaddF_B,
    -⟩ := holds
  have packed := DualVar.packed_mem_vars 96
  refine ⟨orderA, orderB, fillS_A, fillB_A, fillF_A, fillS_B, fillB_B, fillF_B, bSA, bBA, bFA, bFWA,
    bSB, bBB, bFB, bFWB, ?_, ?_, ?_, ?_⟩
  · rw [subaddSB_A.1, subaddSB_A.2, bSA, bBB, fillS_A _ packed]
    exact ⟨rfl, rfl⟩
  · rw [subaddSB_B.1, subaddSB_B.2, bSB, bBA, fillS_B _ packed]
    exact ⟨rfl, rfl⟩
  · rw [subaddF_A.1, subaddF_A.2, bFA, bFWA, fillF_A _ packed]
    exact ⟨rfl, rfl⟩
  · rw [subaddF_B.1, subaddF_B.2, bFB, bFWB, fillF_B _ packed]
    exact ⟨rfl, rfl⟩

theorem RingSettlement.fillUpdates_wellFormed (rs : RingSettlement) :
    ∀ f ∈ rs.fillUpdates, f.WellFormed := by
  have below : ∀ {m n : ℕ}, Nat.ble (m + 1) n = true → m < n := Nat.le_of_ble_eq_true
  simp only [RingSettlement.fillUpdates, List.forall_mem_cons]
  exact ⟨⟨fun _ _ => RingVar.updateFilledA.inj, fun _ => rfl, fun _ => below rfl, below rfl⟩,
    ⟨fun _ _ => RingVar.updateFilledB.inj, fun _ => rfl, fun _ => below rfl, below rfl⟩,
    List.forall_mem_nil _⟩

theorem RingSettlementGadget.fillCaps_wellFormed :
    ∀ c ∈ RingSettlementGadget.fillCaps, c.WellFormed := by
  have below : ∀ {m n : ℕ}, Nat.ble (m + 1) n = true → m < n := Nat.le_of_ble_eq_true
  simp only [RingSettlementGadget.fillCaps, List.forall_mem_cons]
  exact ⟨⟨fun _ _ => RingVar.filledLeqA.inj, fun _ => rfl, below rfl, below rfl⟩,
    ⟨fun _ _ => RingVar.filledLeqB.inj, fun _ => rfl, below rfl, below rfl⟩, List.forall_mem_nil _⟩

omit [DecidableEq V] in
theorem RingSettlement.writesOnly_dataBlocks (rs : RingSettlement) :
    WritesOnly name (fun u => 0 ≤ u.member ∧ u.member < 13)
      (rs.dataBlocks.flatMap (DataBlock.witness name)) :=
  RingVar.writesOnly_blocks DataBlock.member rfl fun d listed =>
    d.writesOnly (rs.dataBlocks_wellFormed d listed)

omit [DecidableEq V] in
theorem RingSettlement.writesOnly_fillUpdates (rs : RingSettlement) :
    WritesOnly name (fun u => 13 ≤ u.member ∧ u.member < 15)
      (rs.fillUpdates.flatMap (FillUpdate.witness P name)) :=
  RingVar.writesOnly_blocks FillUpdate.member rfl fun f listed =>
    f.writesOnly P (rs.fillUpdates_wellFormed f listed)

omit [DecidableEq V] in
theorem RingSettlementGadget.writesOnly_fillCaps :
    WritesOnly name (fun u => 15 ≤ u.member ∧ u.member < 17)
      (RingSettlementGadget.fillCaps.flatMap (Check.witness name)) :=
  RingVar.writesOnly_blocks Check.member rfl fun c listed =>
    c.writesOnly (RingSettlementGadget.fillCaps_wellFormed c listed)

/-- The trading-history part of a ring's witness on honest reads of `slots`. -/
theorem RingSettlementGadget.tradingHistoryWitness_spec (inj : Function.Injective name)
    (root : V) (rootOutside : root ∉ Set.range name) (rs : RingSettlement)
    (slots : List Bool → FieldT) (fits : rs.ring.Fits)
    (honest : HonestSteps P filledMessage id slots rs.historySteps) (σ : Assignment V)
    (τ : RingVar → FieldT) (data : rs.DataWritten τ)
    (agree : ∀ u, u.member < 17 →
      τ u = run (RingSettlementGadget.tradingHistoryWitness P name root rs) σ (name u)) :
    run (RingSettlementGadget.tradingHistoryWitness P name root rs) σ root =
        rs.tradingHistoryMerkleRoot ∧
      UpdateChain (FillUpdate.Capped P τ) (fun f => τ (f.update UpdateFilledVar.result))
        (historyRoot P slots) rs.fillUpdates (historyRoot P (applyFills slots rs.fills)) ∧
      ∀ c ∈ RingSettlementGadget.fillCaps, c.Holds τ := by
  have updatesWf := rs.fillUpdates_wellFormed
  have capsWf := RingSettlementGadget.fillCaps_wellFormed
  have updates : WritesOnly name _ _ := rs.writesOnly_fillUpdates P
  have caps : WritesOnly name _ _ := RingSettlementGadget.writesOnly_fillCaps
  -- the root, then the updates from the state it leaves, then the caps
  obtain ⟨σ₁, h₁⟩ := @exists_eq' _ (run [(root, fun _ => rs.tradingHistoryMerkleRoot)] σ)
  have split : run (RingSettlementGadget.tradingHistoryWitness P name root rs) σ =
      run (rs.fillUpdates.flatMap (FillUpdate.witness P name) ++
        RingSettlementGadget.fillCaps.flatMap (Check.witness name)) σ₁ := by
    rw [RingSettlementGadget.tradingHistoryWitness, List.append_assoc, run_append, h₁]
  rw [split] at agree ⊢
  have performs := RingVar.run_blocks inj (FillUpdate.witness P name) FillUpdate.member τ
    (fun f => ∀ fl, f.Reads τ fl → ∀ t, fl.Valid t → f.filled = t fl.slot →
      f.proof.data = siblings P 0 (leafHashes P filledMessage t) fl.slot →
        f.Capped P τ (historyRoot P t) ∧
          τ (f.update UpdateFilledVar.result) = historyRoot P (fl.apply t))
    rs.fillUpdates 13 σ₁ rfl (fun f listed => f.writesOnly P (updatesWf f listed))
    (fun f listed _ before after _ reads t valid filled path =>
      f.witness_spec P inj (updatesWf f listed) before after reads t valid filled path)
    (RingVar.agree_append inj (caps.mono fun _ h => h.1) fun u hu => agree u (by omega))
  simp only [RingSettlement.fillUpdates, List.forall_mem_cons] at performs
  obtain ⟨performsA, performsB, -⟩ := performs
  have packed := DualVar.packed_mem_vars 96
  have readsA : FillUpdate.Reads τ ⟨.updateFilledA, .orderA, .fillS_A, rs.filledA, rs.proofFilledA⟩
      ⟨rs.ring.orderA.filledSlot, rs.ring.fillS_A, rs.ring.orderA.amountS⟩ :=
    FillUpdate.reads_of_values data.orderA (data.fillS_A _ packed)
  have readsB : FillUpdate.Reads τ ⟨.updateFilledB, .orderB, .fillS_B, rs.filledB, rs.proofFilledB⟩
      ⟨rs.ring.orderB.filledSlot, rs.ring.fillS_B, rs.ring.orderB.amountS⟩ :=
    FillUpdate.reads_of_values data.orderB (data.fillS_B _ packed)
  have forall2 : List.Forall₂ (fun f (step : TreeChange FieldT × List Bool × FieldT × Proof) =>
      ∀ t, step.1.Valid t → step.2.2.1 = id (t step.2.1) →
        step.2.2.2.data = siblings P 0 (leafHashes P filledMessage t) step.2.1 →
          FillUpdate.Capped P τ f (historyRoot P t) ∧
            τ (f.update UpdateFilledVar.result) = historyRoot P (step.1.apply t))
      rs.fillUpdates rs.historySteps := by
    simp only [RingSettlement.fillUpdates, RingSettlement.historySteps, RingSettlement.fills,
      List.zipWith_cons_cons, List.zipWith_nil_left, List.forall₂_cons, Fill.change_valid,
      Fill.change_apply, id]
    exact ⟨performsA _ readsA, performsB _ readsB, .nil⟩
  have chain := UpdateChain.of_honestSteps P filledMessage (historyRoot P) forall2 slots honest
  have fills : rs.historySteps.map Prod.fst = rs.fills.map Fill.change := rfl
  rw [fills] at chain
  rw [← applyFills] at chain
  refine ⟨?_, chain, fun c listed => RingVar.run_blocks inj (Check.witness name) Check.member τ
    (fun c => c.Feasible τ → c.Holds τ) RingSettlementGadget.fillCaps 15
    (run (rs.fillUpdates.flatMap (FillUpdate.witness P name)) σ₁) rfl (fun c listed => c.writesOnly (capsWf c listed))
    (fun c listed _ before after => c.witness_spec inj (capsWf c listed) before after)
    (fun u hu => by rw [agree u hu, run_append]) c listed ?_⟩
  · rw [run_append, caps.run_other _ rootOutside, updates.run_other _ rootOutside, ← h₁]
    exact Function.update_same _ _ _
  -- each cap reads its update's filled amount after, within its order's `amountS`
  simp only [RingSettlement.fillUpdates, UpdateChain, FillUpdate.Capped] at chain
  obtain ⟨⟨-, capA⟩, ⟨-, capB⟩, -⟩ := chain
  have amountS : OrderVar.amountS .packed ∈ OrderVar.vars :=
    OrderVar.mem_vars.mpr (DualVar.packed_mem_vars _)
  have amountSA : τ (.orderA (.amountS .packed)) = rs.ring.orderA.amountS := data.orderA _ amountS
  have amountSB : τ (.orderB (.amountS .packed)) = rs.ring.orderB.amountS := data.orderB _ amountS
  have rangeA := fits.orderA.amountS
  have rangeB := fits.orderB.amountS
  rw [amountSA] at capA
  rw [amountSB] at capB
  simp only [RingSettlementGadget.fillCaps, List.mem_cons, List.not_mem_nil, or_false] at listed
  rcases listed with rfl | rfl <;> simp only [Check.Feasible]
  · rw [amountSA]
    exact ⟨by omega, by omega, capA⟩
  · rw [amountSB]
    exact ⟨by omega, by omega, capB⟩

theorem RingSettlement.balanceUpdates_wellFormed (rs : RingSettlement) :
    ∀ b ∈ rs.balanceUpdates, b.WellFormed := by
  have below : ∀ {m n : ℕ}, Nat.ble (m + 1) n = true → m < n := Nat.le_of_ble_eq_true
  simp only [RingSettlement.balanceUpdates, List.forall_mem_cons]
  refine ⟨?_, ?_, ?_, ?_, ?_, ?_, List.forall_mem_nil _⟩
  all_goals exact ⟨fun _ _ h => RingVar.noConfusion h id, fun _ => rfl, fun _ => below rfl,
    below rfl, below rfl⟩

omit [DecidableEq V] in
theorem RingSettlement.writesOnly_balanceUpdates (rs : RingSettlement) :
    WritesOnly name (fun u => 17 ≤ u.member ∧ u.member < 23)
      (rs.balanceUpdates.flatMap (BalanceUpdate.witness P name)) :=
  RingVar.writesOnly_blocks BalanceUpdate.member rfl fun b listed =>
    b.writesOnly P (rs.balanceUpdates_wellFormed b listed)

/-- The accounts part of a ring's witness on honest reads of `accounts`. -/
theorem RingSettlementGadget.accountsWitness_spec (inj : Function.Injective name)
    (rs : RingSettlement) (accounts : List Bool → Account)
    (honest : HonestSteps P Account.message Account.balance accounts rs.accountSteps)
    (σ : Assignment V) (τ : RingVar → FieldT) (data : rs.DataWritten τ)
    (agree : ∀ u, u.member < 23 →
      τ u = run (RingSettlementGadget.accountsWitness P name rs) σ (name u)) :
    UpdateChain (BalanceUpdate.Constraints P τ) (fun b => τ (b.update UpdateBalanceVar.result))
      (accountsRoot P accounts) rs.balanceUpdates (accountsRoot P (applyLegs accounts rs.legs)) := by
  have wf := rs.balanceUpdates_wellFormed
  have performs := RingVar.run_blocks inj (BalanceUpdate.witness P name) BalanceUpdate.member τ
    (fun b => ∀ leg, b.Reads τ leg → ∀ t, leg.Valid t → τ b.before = (t leg.account).balance →
      b.proof.data = siblings P 0 (leafHashes P Account.message t) leg.account →
        b.Constraints P τ (accountsRoot P t) ∧
          τ (b.update UpdateBalanceVar.result) = accountsRoot P (leg.apply t))
    rs.balanceUpdates 17 σ rfl (fun b listed => b.writesOnly P (wf b listed))
    (fun b listed _ before after _ reads t valid balance path =>
      b.witness_spec P inj (wf b listed) before after reads t valid balance path) agree
  simp only [RingSettlement.balanceUpdates, List.forall_mem_cons] at performs
  obtain ⟨performsS_A, performsB_A, performsF_A, performsS_B, performsB_B, performsF_B, -⟩ := performs
  have bits : ∀ i < 24, DualVar.bits i ∈ DualVar.vars 24 := fun _ => DualVar.bits_mem_vars
  have forall2 : List.Forall₂ (fun b (step : TreeChange Account × List Bool × FieldT × Proof) =>
      ∀ t, step.1.Valid t → step.2.2.1 = Account.balance (t step.2.1) →
        step.2.2.2.data = siblings P 0 (leafHashes P Account.message t) step.2.1 →
          BalanceUpdate.Constraints P τ b (accountsRoot P t) ∧
            τ (b.update UpdateBalanceVar.result) = accountsRoot P (step.1.apply t))
      rs.balanceUpdates rs.accountSteps := by
    simp only [RingSettlement.balanceUpdates, RingSettlement.accountSteps, RingSettlement.legs,
      List.zipWith_cons_cons, List.zipWith_nil_left, List.forall₂_cons, Leg.change_valid,
      Leg.change_apply]
    refine ⟨fun t valid balance path => performsS_A _ (BalanceUpdate.reads_of_values data.orderA
      rs.ring.orderA.accountS (fun _ => by rfl) (fun i hi => OrderVar.mem_vars.mpr (bits i hi))
      (OrderVar.mem_vars.mpr trivial) ?_) t valid (data.balanceS_A_before.trans balance) path,
      fun t valid balance path => performsB_A _ (BalanceUpdate.reads_of_values data.orderA
      rs.ring.orderA.accountB (fun _ => by rfl) (fun i hi => OrderVar.mem_vars.mpr (bits i hi))
      (OrderVar.mem_vars.mpr trivial) ?_) t valid (data.balanceB_A_before.trans balance) path,
      fun t valid balance path => performsF_A _ (BalanceUpdate.reads_of_values data.orderA
      rs.ring.orderA.accountF (fun _ => by rfl) (fun i hi => OrderVar.mem_vars.mpr (bits i hi))
      (OrderVar.mem_vars.mpr trivial) ?_) t valid (data.balanceF_A_before.trans balance) path,
      fun t valid balance path => performsS_B _ (BalanceUpdate.reads_of_values data.orderB
      rs.ring.orderB.accountS (fun _ => by rfl) (fun i hi => OrderVar.mem_vars.mpr (bits i hi))
      (OrderVar.mem_vars.mpr trivial) ?_) t valid (data.balanceS_B_before.trans balance) path,
      fun t valid balance path => performsB_B _ (BalanceUpdate.reads_of_values data.orderB
      rs.ring.orderB.accountB (fun _ => by rfl) (fun i hi => OrderVar.mem_vars.mpr (bits i hi))
      (OrderVar.mem_vars.mpr trivial) ?_) t valid (data.balanceB_B_before.trans balance) path,
      fun t valid balance path => performsF_B _ (BalanceUpdate.reads_of_values data.orderB
      rs.ring.orderB.accountF (fun _ => by rfl) (fun i hi => OrderVar.mem_vars.mpr (bits i hi))
      (OrderVar.mem_vars.mpr trivial) ?_) t valid (data.balanceF_B_before.trans balance) path, .nil⟩
    · rw [data.balanceSB_A.1, data.balanceS_A_before]; rfl
    · rw [data.balanceSB_B.2, data.balanceB_A_before]; rfl
    · rw [data.balanceF_A.1, data.balanceF_A_before]; rfl
    · rw [data.balanceSB_B.1, data.balanceS_B_before]; rfl
    · rw [data.balanceSB_A.2, data.balanceB_B_before]; rfl
    · rw [data.balanceF_B.1, data.balanceF_B_before]; rfl
  have chain := UpdateChain.of_honestSteps P Account.message (accountsRoot P) forall2 accounts honest
  have legs : rs.accountSteps.map Prod.fst = rs.legs.map Leg.change := rfl
  rwa [legs, ← applyLegs] at chain

theorem RingSettlementGadget.matchingChecks_wellFormed :
    ∀ c ∈ RingSettlementGadget.matchingChecks, c.WellFormed := by
  have below : ∀ {m n : ℕ}, Nat.ble (m + 1) n = true → m < n := Nat.le_of_ble_eq_true
  simp only [RingSettlementGadget.matchingChecks, List.forall_mem_cons]
  refine ⟨?_, ?_, ?_, ?_, ⟨fun _ _ => RingVar.matchLeqA.inj, fun _ => rfl, below rfl, below rfl⟩,
    ⟨fun _ _ => RingVar.matchLeqB.inj, fun _ => rfl, below rfl, below rfl⟩, List.forall_mem_nil _⟩
  all_goals exact ⟨below rfl, below rfl, below rfl, below rfl⟩

omit [DecidableEq V] in
theorem RingSettlementGadget.writesOnly_matchingChecks :
    WritesOnly name (fun u => 23 ≤ u.member ∧ u.member < 29)
      (RingSettlementGadget.matchingChecks.flatMap (Check.witness name)) :=
  RingVar.writesOnly_blocks Check.member rfl fun c listed =>
    c.writesOnly (RingSettlementGadget.matchingChecks_wellFormed c listed)

/-- The matching part of a ring's witness meets its checks on a matched ring. -/
theorem RingSettlementGadget.matchingWitness_spec (inj : Function.Injective name)
    (rs : RingSettlement) (fits : rs.ring.Fits) (matched : rs.ring.Matched) (σ : Assignment V)
    (τ : RingVar → FieldT) (data : rs.DataWritten τ)
    (agree : ∀ u, u.member < 29 → τ u = run (RingSettlementGadget.matchingWitness name) σ (name u)) :
    ∀ c ∈ RingSettlementGadget.matchingChecks, c.Holds τ := by
  have wf := RingSettlementGadget.matchingChecks_wellFormed
  have packed := DualVar.packed_mem_vars 96
  have feasible : ∀ c ∈ RingSettlementGadget.matchingChecks, c.Feasible τ := by
    have := fits.fillS_A
    have := fits.fillB_A
    have := fits.fillS_B
    have := fits.fillB_B
    simp only [RingSettlementGadget.matchingChecks, List.forall_mem_cons, Check.Feasible, DualVar.value,
      data.fillS_A _ packed, data.fillB_A _ packed, data.fillF_A _ packed, data.fillS_B _ packed,
      data.fillB_B _ packed, data.fillF_B _ packed,
      data.orderA (.amountS .packed) (OrderVar.mem_vars.mpr packed),
      data.orderA (.amountB .packed) (OrderVar.mem_vars.mpr packed),
      data.orderA (.amountF .packed) (OrderVar.mem_vars.mpr packed),
      data.orderB (.amountS .packed) (OrderVar.mem_vars.mpr packed),
      data.orderB (.amountB .packed) (OrderVar.mem_vars.mpr packed)]
    exact ⟨matched.rateA, matched.rateB, matched.rateFeeA, matched.rateFeeB,
      ⟨by omega, by omega, matched.matchA⟩, ⟨by omega, by omega, matched.matchB⟩,
      List.forall_mem_nil _⟩
  exact fun c listed => RingVar.run_blocks inj (Check.witness name) Check.member τ
    (fun c => c.Feasible τ → c.Holds τ) RingSettlementGadget.matchingChecks 23 σ rfl (fun c listed => c.writesOnly (wf c listed))
    (fun c listed _ before after => c.witness_spec inj (wf c listed) before after) agree c listed
    (feasible c listed)

end Phases

end Loopring
