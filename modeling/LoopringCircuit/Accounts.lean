import LoopringCircuit.Update
import LoopringCircuit.Ring

set_option autoImplicit false

namespace Loopring

/-! The accounts tree a ring settles on, and the six balance updates the spec gives a ring: each
order debits its `fillS` from its sell account, is credited the other order's `fillS` in its buy
account, and pays its `fillF` from its fee account. -/

/-- The message an account's leaf hashes: `(publicKey.x, publicKey.y, token, balance)`. -/
def Account.message (account : Account) : List FieldT :=
  [account.publicKeyX, account.publicKeyY, account.token, account.balance]

/-- One balance update: the account it touches, the public key and token its leaf must hold, and
the amount it credits or debits. -/
structure Leg where
  account : List Bool
  publicKeyX : FieldT
  publicKeyY : FieldT
  token : FieldT
  amount : FieldT
  credit : Bool

namespace Leg

variable (leg : Leg) (accounts : List Bool → Account)

/-- The balance a leg leaves. -/
def balanceAfter (balance : FieldT) : FieldT :=
  if leg.credit then balance + leg.amount else balance - leg.amount

/-- The tree after the leg: its account's balance changes, and nothing else. -/
def apply : List Bool → Account :=
  Function.update accounts leg.account
    { accounts leg.account with balance := leg.balanceAfter (accounts leg.account).balance }

/-- When a leg applies: its leaf holds its key and token, a debit is covered, and the new balance
has 96 bits. -/
structure Valid : Prop where
  publicKeyX : (accounts leg.account).publicKeyX = leg.publicKeyX
  publicKeyY : (accounts leg.account).publicKeyY = leg.publicKeyY
  token : (accounts leg.account).token = leg.token
  covered : leg.credit = false → leg.amount.val ≤ (accounts leg.account).balance.val
  range : (leg.balanceAfter (accounts leg.account).balance).val < 2 ^ 96

end Leg

/-- A leg as a change of the accounts tree. -/
def Leg.change (leg : Leg) : TreeChange Account := ⟨leg.Valid, leg.apply⟩

@[simp] theorem Leg.change_apply (leg : Leg) : leg.change.apply = leg.apply := rfl

@[simp] theorem Leg.change_valid (leg : Leg) : leg.change.Valid = leg.Valid := rfl


/-- The tree after a sequence of legs, each applied to the tree the previous one left. -/
def applyLegs (accounts : List Bool → Account) (legs : List Leg) : List Bool → Account :=
  applyChanges accounts (legs.map Leg.change)

@[simp] theorem applyLegs_nil (accounts : List Bool → Account) : applyLegs accounts [] = accounts :=
  rfl

@[simp] theorem applyLegs_cons (accounts : List Bool → Account) (leg : Leg) (legs : List Leg) :
    applyLegs accounts (leg :: legs) = applyLegs (leg.apply accounts) legs := rfl

/-- Every leg of a sequence applies to the tree the previous one left. -/
def LegsValid (accounts : List Bool → Account) (legs : List Leg) : Prop :=
  ChangesValid accounts (legs.map Leg.change)

/-- Every balance of the tree has 96 bits. -/
def BalancesSmall (accounts : List Bool → Account) : Prop := ∀ a, (accounts a).balance.val < 2 ^ 96

variable (P : Primitives)

/-- The root of an accounts tree. -/
def accountsRoot (accounts : List Bool → Account) : FieldT :=
  merkleRoot P 0 TREE_DEPTH_ACCOUNTS (leafHashes P Account.message accounts)

/-- Collision-freeness where a sequence of legs needs it: at each (message, path) read, against
the tree the previous legs left. -/
def LegsCollisionFree (accounts : List Bool → Account) (legs : List Leg)
    (reads : List (List FieldT × List (Bool × FieldT))) : Prop :=
  ChangesCollisionFree P Account.message accounts (legs.map Leg.change) reads

/-! A debit whose result has 96 bits was covered, when both operands have 96 bits. -/

theorem le_of_val_sub_lt {a b : FieldT} (ha : a.val < 2 ^ 96) (hb : b.val < 2 ^ 96)
    (hab : (a - b).val < 2 ^ 96) : b.val ≤ a.val := by
  by_contra below
  have neg : a - b = -(b - a) := (neg_sub b a).symm
  have diff : (b - a).val = b.val - a.val := ZMod.val_sub (by omega)
  have nonzero : b - a ≠ 0 := fun h => by
    rw [h, ZMod.val_zero] at diff
    omega
  haveI : NeZero (b - a) := ⟨nonzero⟩
  rw [neg, ZMod.val_neg_of_ne_zero, diff] at hab
  have := two_pow_253_lt_r
  have : (2 : ℕ) ^ 96 < 2 ^ 253 := by norm_num
  omega

/-- One balance update of the circuit performs its leg. -/
theorem Leg.performs (leg : Leg) {root balanceBefore balanceAfter : FieldT}
    {order : OrderVar → FieldT} {field : DualVar → OrderVar} {τ : UpdateBalanceVar → FieldT}
    (h : UpdateBalanceGadget.Constraints P root (OrderVar.bitsOf order field 24) leg.publicKeyX
      leg.publicKeyY leg.token balanceBefore balanceAfter τ)
    (dual : DualVariableGadget.Constraints 24 fun v => order (field v))
    (account : (OrderVar.bitsOf order field 24).map toBit = leg.account)
    (amountSmall : leg.amount.val < 2 ^ 96)
    (after : balanceAfter = leg.balanceAfter balanceBefore) (range : balanceAfter.val < 2 ^ 96) :
    Performs P Account.message TREE_DEPTH_ACCOUNTS BalancesSmall leg.change
      ([leg.publicKeyX, leg.publicKeyY, leg.token, balanceBefore],
        toPath (MerkleUpdateVar.levels (fun v => τ (.update v)) (OrderVar.bitsOf order field 24)))
      root (τ UpdateBalanceVar.result) := by
  intro t committed small free
  obtain ⟨read, result⟩ := h.read P Account.message dual.boolean_bitsOf t
    ⟨leg.publicKeyX, leg.publicKeyY, leg.token, balanceAfter⟩ rfl committed free
  rw [account] at read result
  simp only [Account.message, List.cons.injEq, and_true] at read
  obtain ⟨keyX, keyY, token, balance⟩ := read
  have written : (⟨leg.publicKeyX, leg.publicKeyY, leg.token, balanceAfter⟩ : Account) =
      { t leg.account with balance := leg.balanceAfter (t leg.account).balance } := by
    rw [keyX, keyY, token, after, balance]
  have newRange : (leg.balanceAfter (t leg.account).balance).val < 2 ^ 96 := by
    rwa [← balance, ← after]
  refine ⟨⟨keyX.symm, keyY.symm, token.symm, fun debit => ?_, newRange⟩, ?_, fun a => ?_⟩
  · rw [after, Leg.balanceAfter, debit, if_neg Bool.false_ne_true] at range
    rw [← balance]
    exact le_of_val_sub_lt (balance ▸ small _) amountSmall range
  · have var := MerkleUpdate.result_eq_var (fun v => τ (.update v))
      (List.ne_nil_of_length_pos (by rw [OrderVar.length_bitsOf]; decide) :
        OrderVar.bitsOf order field 24 ≠ [])
    rw [OrderVar.length_bitsOf] at var result
    rw [written] at result
    exact var.symm.trans result
  · by_cases same : a = leg.account
    · subst same
      simpa [Leg.apply] using newRange
    · simpa [Leg.apply, Function.update_noteq same] using small a

namespace RingSettlementGadget

variable (τ : RingVar → FieldT)

/-- A leg of a ring, on the account `order.account` with the order's key and its `token`. -/
def leg (order : OrderVar → RingVar) (account : DualVar → OrderVar) (token : OrderVar)
    (amount : FieldT) (credit : Bool) : Leg :=
  ⟨(OrderVar.bitsOf (fun v => τ (order v)) account 24).map toBit, τ (order .publicKeyX),
    τ (order .publicKeyY), τ (order token), amount, credit⟩

/-- What one balance update of the ring reads: its before-leaf's message, and its path. -/
def read (update : UpdateBalanceVar → RingVar) (order : OrderVar → RingVar)
    (account : DualVar → OrderVar) (token : OrderVar) (balanceBefore : RingVar) :
    List FieldT × List (Bool × FieldT) :=
  ([τ (order .publicKeyX), τ (order .publicKeyY), τ (order token), τ balanceBefore],
    toPath (MerkleUpdateVar.levels (fun v => τ (update (.update v)))
      (OrderVar.bitsOf (fun v => τ (order v)) account 24)))

/-- The six legs of a ring in the order of its balance updates: `S_X` debits `fillS_X`, `B_X` is
credited the other order's `fillS`, `F_X` debits `fillF_X`. -/
def legs : List Leg :=
  [leg τ .orderA .accountS .tokenS (τ (.fillS_A .packed)) false,
    leg τ .orderA .accountB .tokenB (τ (.fillS_B .packed)) true,
    leg τ .orderA .accountF .tokenF (τ (.fillF_A .packed)) false,
    leg τ .orderB .accountS .tokenS (τ (.fillS_B .packed)) false,
    leg τ .orderB .accountB .tokenB (τ (.fillS_A .packed)) true,
    leg τ .orderB .accountF .tokenF (τ (.fillF_B .packed)) false]

/-- What the six balance updates of a ring read. -/
def reads : List (List FieldT × List (Bool × FieldT)) :=
  [read τ .updateBalanceS_A .orderA .accountS .tokenS .balanceS_A_before,
    read τ .updateBalanceB_A .orderA .accountB .tokenB .balanceB_A_before,
    read τ .updateBalanceF_A .orderA .accountF .tokenF .balanceF_A_before,
    read τ .updateBalanceS_B .orderB .accountS .tokenS .balanceS_B_before,
    read τ .updateBalanceB_B .orderB .accountB .tokenB .balanceB_B_before,
    read τ .updateBalanceF_B .orderB .accountF .tokenF .balanceF_B_before]

/-- The roots the six balance updates of a ring leave. -/
def results : List FieldT :=
  [τ (.updateBalanceS_A UpdateBalanceVar.result), τ (.updateBalanceB_A UpdateBalanceVar.result),
    τ (.updateBalanceF_A UpdateBalanceVar.result), τ (.updateBalanceS_B UpdateBalanceVar.result),
    τ (.updateBalanceB_B UpdateBalanceVar.result), τ (.updateBalanceF_B UpdateBalanceVar.result)]

/-- The six balance updates of a ring: the leg each performs, what it reads, the root it leaves. -/
def steps : List (TreeChange Account × (List FieldT × List (Bool × FieldT)) × FieldT) :=
  ((legs τ).map Leg.change).zip ((reads τ).zip (results τ))

end RingSettlementGadget

theorem DualVariableGadget.Constraints.val_packed_lt_96 {τ : DualVar → FieldT}
    (h : DualVariableGadget.Constraints 96 τ) : (τ .packed).val < 2 ^ 96 :=
  h.val_packed_lt (by norm_num)

/-- The ring's six balance updates perform its six legs. -/
theorem RingSettlementGadget.Constraints.performs {tradingHistoryMerkleRoot accountsMerkleRoot : FieldT}
    {τ : RingVar → FieldT}
    (h : RingSettlementGadget.Constraints P tradingHistoryMerkleRoot accountsMerkleRoot τ) :
    PerformsAll P Account.message TREE_DEPTH_ACCOUNTS BalancesSmall accountsMerkleRoot
      (RingSettlementGadget.steps τ) (τ (.updateBalanceF_B UpdateBalanceVar.result)) := by
  refine ⟨?_, ?_, ?_, ?_, ?_, ?_, rfl⟩
  · apply Leg.performs P (RingSettlementGadget.leg τ .orderA .accountS .tokenS _ false) h.updateBalanceS_A
      h.orderA.accountS rfl h.fillS_A.val_packed_lt_96
      h.balanceSB_A.sub h.balanceSB_A.rangeX
  · apply Leg.performs P (RingSettlementGadget.leg τ .orderA .accountB .tokenB _ true) h.updateBalanceB_A
      h.orderA.accountB rfl h.fillS_B.val_packed_lt_96
      h.balanceSB_B.add h.balanceSB_B.rangeY
  · apply Leg.performs P (RingSettlementGadget.leg τ .orderA .accountF .tokenF _ false) h.updateBalanceF_A
      h.orderA.accountF rfl h.fillF_A.val_packed_lt_96
      h.balanceF_A.sub h.balanceF_A.rangeX
  · apply Leg.performs P (RingSettlementGadget.leg τ .orderB .accountS .tokenS _ false) h.updateBalanceS_B
      h.orderB.accountS rfl h.fillS_B.val_packed_lt_96
      h.balanceSB_B.sub h.balanceSB_B.rangeX
  · apply Leg.performs P (RingSettlementGadget.leg τ .orderB .accountB .tokenB _ true) h.updateBalanceB_B
      h.orderB.accountB rfl h.fillS_A.val_packed_lt_96
      h.balanceSB_A.add h.balanceSB_A.rangeY
  · apply Leg.performs P (RingSettlementGadget.leg τ .orderB .accountF .tokenF _ false) h.updateBalanceF_B
      h.orderB.accountF rfl h.fillF_B.val_packed_lt_96
      h.balanceF_B.sub h.balanceF_B.rangeX

/-! Token totals: the sum of the balances of the leaves holding a token, over every address of the
tree, and how a leg moves them. -/

/-- The addresses of a tree of `depth` levels, the lowest level's bit first. -/
def addresses : ℕ → List (List Bool)
  | 0 => [[]]
  | d + 1 => (addresses d).flatMap fun a => [false :: a, true :: a]

theorem mem_addresses : ∀ {d : ℕ} {a : List Bool}, a ∈ addresses d ↔ a.length = d
  | 0, a => by cases a <;> simp [addresses]
  | d + 1, [] => by simp [addresses]
  | d + 1, b :: a => by cases b <;> simp [addresses, mem_addresses]

theorem nodup_addresses : ∀ d, (addresses d).Nodup
  | 0 => List.nodup_singleton _
  | d + 1 => List.nodup_flatMap.2 ⟨fun _ _ => by simp, (nodup_addresses d).imp fun {a b} ne x hx hy => by
      simp only [List.mem_cons, List.not_mem_nil, or_false] at hx hy
      rcases hx with rfl | rfl <;> rcases hy with h | h <;> simp_all⟩

/-- What an account contributes to the total of `token`. -/
def Account.holding (token : FieldT) (account : Account) : ℕ :=
  if account.token = token then account.balance.val else 0

/-- The total balance of `token` in an accounts tree. -/
def tokenBalance (accounts : List Bool → Account) (token : FieldT) : ℕ :=
  ((addresses TREE_DEPTH_ACCOUNTS).map fun a => (accounts a).holding token).sum

theorem sum_map_update {β : Type} [DecidableEq β] (g : β → ℕ) (a : β) (y : ℕ) :
    ∀ l : List β, l.Nodup → a ∈ l → (l.map (Function.update g a y)).sum + g a = (l.map g).sum + y
  | [], _, mem => absurd mem (List.not_mem_nil _)
  | x :: xs, nodup, mem => by
    rw [List.nodup_cons] at nodup
    by_cases same : x = a
    · subst same
      have rest : xs.map (Function.update g x y) = xs.map g :=
        List.map_congr_left fun z hz => Function.update_noteq (fun (h : z = x) => nodup.1 (h ▸ hz)) _ _
      simp only [List.map_cons, List.sum_cons, Function.update_same, rest]
      omega
    · have := sum_map_update g a y xs nodup.2 ((List.mem_cons.mp mem).resolve_left (Ne.symm same))
      simp only [List.map_cons, List.sum_cons, Function.update_noteq same]
      omega

/-- What a leg debits from the total of `token`. -/
def Leg.debited (leg : Leg) (token : FieldT) : ℕ :=
  if leg.token = token ∧ leg.credit = false then leg.amount.val else 0

/-- What a leg credits to the total of `token`. -/
def Leg.credited (leg : Leg) (token : FieldT) : ℕ :=
  if leg.token = token ∧ leg.credit = true then leg.amount.val else 0

namespace Leg.Valid

variable {leg : Leg} {accounts : List Bool → Account}

theorem small_apply (valid : leg.Valid accounts) (small : BalancesSmall accounts) :
    BalancesSmall (leg.apply accounts) := fun a => by
  by_cases same : a = leg.account
  · subst same
    simpa [Leg.apply] using valid.range
  · simpa [Leg.apply, Function.update_noteq same] using small a

theorem holding_written (valid : leg.Valid accounts) (small : BalancesSmall accounts)
    (amountSmall : leg.amount.val < 2 ^ 96) (token : FieldT) :
    { accounts leg.account with
        balance := leg.balanceAfter (accounts leg.account).balance }.holding token +
      leg.debited token = (accounts leg.account).holding token + leg.credited token := by
  have balanceSmall := small leg.account
  have below := two_pow_253_lt_r
  have sumSmall : (2 : ℕ) ^ 96 + 2 ^ 96 < 2 ^ 253 := by norm_num
  unfold Account.holding Leg.debited Leg.credited Leg.balanceAfter
  by_cases here : (accounts leg.account).token = token
  · have mine : leg.token = token := valid.token ▸ here
    cases credit : leg.credit
    · have covered := valid.covered credit
      have value := ZMod.val_sub covered
      simp [here, mine, value]
      omega
    · have value := ZMod.val_add_of_lt (show (accounts leg.account).balance.val + leg.amount.val < r by
        omega)
      simp [here, mine, value]
  · have other : leg.token ≠ token := valid.token ▸ here
    simp [here, other]

/-- A leg moves the total of `token` by what it credits and debits there. -/
theorem tokenBalance_apply (valid : leg.Valid accounts) (small : BalancesSmall accounts)
    (amountSmall : leg.amount.val < 2 ^ 96) (width : leg.account.length = TREE_DEPTH_ACCOUNTS)
    (token : FieldT) :
    tokenBalance (leg.apply accounts) token + leg.debited token =
      tokenBalance accounts token + leg.credited token := by
  have sums := sum_map_update (fun a => (accounts a).holding token) leg.account
    ({ accounts leg.account with
      balance := leg.balanceAfter (accounts leg.account).balance }.holding token)
    _ (nodup_addresses _) (mem_addresses.mpr width)
  have update : (fun a => (leg.apply accounts a).holding token) =
      Function.update (fun a => (accounts a).holding token) leg.account
        ({ accounts leg.account with
          balance := leg.balanceAfter (accounts leg.account).balance }.holding token) := by
    rw [Leg.apply, ← Function.comp_def (Account.holding token), Function.comp_update]
    rfl
  have moved := valid.holding_written small amountSmall token
  unfold tokenBalance
  rw [update]
  dsimp only at sums moved ⊢
  omega

end Leg.Valid

/-- A sequence of valid legs moves the total of `token` by what they credit and debit there. -/
theorem tokenBalance_applyLegs (token : FieldT) :
    ∀ (legs : List Leg) (accounts : List Bool → Account), LegsValid accounts legs →
      BalancesSmall accounts →
      (∀ leg ∈ legs, leg.amount.val < 2 ^ 96 ∧ leg.account.length = TREE_DEPTH_ACCOUNTS) →
        tokenBalance (applyLegs accounts legs) token + (legs.map (Leg.debited · token)).sum =
          tokenBalance accounts token + (legs.map (Leg.credited · token)).sum
  | [], _, _, _, _ => by simp
  | leg :: legs, accounts, ⟨valid, valids⟩, small, bounded => by
    obtain ⟨⟨amountSmall, width⟩, rest⟩ := List.forall_mem_cons.mp bounded
    have step := valid.tokenBalance_apply small amountSmall width token
    have run := tokenBalance_applyLegs token legs _ valids (valid.small_apply small) rest
    simp only [applyLegs_cons, Leg.change_apply, List.map_cons, List.sum_cons] at run ⊢
    omega

/-- The fees of a ring in `token`: `fillF_A` and `fillF_B`, where the order's fee token is it. -/
def RingSettlementGadget.fees (τ : RingVar → FieldT) (token : FieldT) : ℕ :=
  (if τ (.orderA .tokenF) = token then (τ (.fillF_A .packed)).val else 0) +
    (if τ (.orderB .tokenF) = token then (τ (.fillF_B .packed)).val else 0)

namespace RingSettlementGadget.Constraints

variable {tradingHistoryMerkleRoot accountsMerkleRoot : FieldT} {τ : RingVar → FieldT}
  (h : RingSettlementGadget.Constraints P tradingHistoryMerkleRoot accountsMerkleRoot τ)
include h

theorem legs_bounded : ∀ leg ∈ RingSettlementGadget.legs τ,
    leg.amount.val < 2 ^ 96 ∧ leg.account.length = TREE_DEPTH_ACCOUNTS := by
  have width : ∀ (order : OrderVar → RingVar) (field : DualVar → OrderVar),
      ((OrderVar.bitsOf (fun v => τ (order v)) field 24).map toBit).length = TREE_DEPTH_ACCOUNTS :=
    fun _ _ => by simp [TREE_DEPTH_ACCOUNTS]
  simp only [RingSettlementGadget.legs, RingSettlementGadget.steps, List.map_cons, List.map_nil,
    List.mem_cons, List.not_mem_nil, or_false]
  rintro leg (rfl | rfl | rfl | rfl | rfl | rfl)
  · exact ⟨h.fillS_A.val_packed_lt_96, width _ _⟩
  · exact ⟨h.fillS_B.val_packed_lt_96, width _ _⟩
  · exact ⟨h.fillF_A.val_packed_lt_96, width _ _⟩
  · exact ⟨h.fillS_B.val_packed_lt_96, width _ _⟩
  · exact ⟨h.fillS_A.val_packed_lt_96, width _ _⟩
  · exact ⟨h.fillF_B.val_packed_lt_96, width _ _⟩

/-- Token by token, a ring's debits are its credits and its fees. -/
theorem debited_eq (token : FieldT) :
    ((RingSettlementGadget.legs τ).map (Leg.debited · token)).sum =
      ((RingSettlementGadget.legs τ).map (Leg.credited · token)).sum +
        RingSettlementGadget.fees τ token := by
  have tokenS : τ (.orderB .tokenB) = τ (.orderA .tokenS) := by simpa using h.tokenS.symm
  have tokenB : τ (.orderB .tokenS) = τ (.orderA .tokenB) := by simpa using h.tokenB.symm
  simp [RingSettlementGadget.legs, RingSettlementGadget.steps, RingSettlementGadget.leg,
    Leg.debited, Leg.credited, RingSettlementGadget.fees, tokenS, tokenB]
  omega

end RingSettlementGadget.Constraints

end Loopring
