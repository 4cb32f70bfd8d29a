import LoopringCircuit.Trivial

set_option autoImplicit false

namespace Loopring

/-! What a ring settles: its six balance updates as a transition of the accounts tree, what the
transition does to the token totals, and the rates its checkers enforce. The rings on the zero
primitives defined here are the instances the statements are checked on. -/

/-- An order on account `0` for token `0` under the zero key, of amounts `amountS`, `amountB`
and `amountF`, its other fields zero. -/
def Order.ofAmounts (amountS amountB amountF : FieldT) : Order :=
  ⟨0, 0, 0, 0, 0, amountS, amountB, amountF, 0, 0, 0, 0, 0, 0, 0, 0, 0⟩

/-- An account of token `0` under the zero key, holding `balance`. -/
def Account.ofBalance (balance : FieldT) : Account := ⟨0, 0, 0, balance⟩

/-- A ring of two orders on account `0`, each selling `1` for `1` with a fee of `1`: its six legs
find `10`, `9`, `10`, `9`, `8` and `9` on the account. -/
def feeRing : RingSettlement :=
  ⟨⟨Order.ofAmounts 1 1 1, Order.ofAmounts 1 1 1, 1, 1, 1, 1, 1, 1⟩, 0, 0, 0, ⟨[]⟩, ⟨[]⟩,
    Account.ofBalance 10, Account.ofBalance 9, Account.ofBalance 10, Account.ofBalance 9,
    Account.ofBalance 8, Account.ofBalance 9, ⟨[]⟩, ⟨[]⟩, ⟨[]⟩, ⟨[]⟩, ⟨[]⟩, ⟨[]⟩⟩

/-- The accounts tree every leaf of which holds `10` of token `0`. -/
def feeRingAccounts : List Bool → Account := fun _ => Account.ofBalance 10

theorem feeRing_constraints :
    RingSettlementGadget.Constraints Primitives.zero 0 0 feeRing.trivialAssignment := by
  refine feeRing.constraints_trivialAssignment ⟨⟨?_, ?_, ?_, ?_, ?_, ?_, ?_, ?_⟩,
    ⟨?_, ?_, ?_, ?_, ?_, ?_, ?_, ?_⟩, ?_, ?_, ?_, ?_, ?_, ?_⟩ ⟨?_, ?_, ?_, ?_, ?_, ?_, ?_, ?_⟩
    ⟨?_, ?_, ?_, ?_, ?_, ?_, ?_, ?_⟩ <;> decide

/-- A ring whose two orders share one trading-history slot and one account, every fill `1`: `B`
reads the `1` that `A` filled, and the six legs find `10`, `9`, `10`, `8`, `7` and `8`. -/
def sharedRing : RingSettlement :=
  ⟨⟨Order.ofAmounts 1 1 2, Order.ofAmounts 2 1 1, 1, 1, 2, 1, 1, 1⟩, 0, 0, 1, ⟨[]⟩, ⟨[]⟩,
    Account.ofBalance 10, Account.ofBalance 9, Account.ofBalance 10, Account.ofBalance 8,
    Account.ofBalance 7, Account.ofBalance 8, ⟨[]⟩, ⟨[]⟩, ⟨[]⟩, ⟨[]⟩, ⟨[]⟩, ⟨[]⟩⟩

theorem sharedRing_circuit (free : Var → FieldT) :
    CircuitGadget.Constraints Primitives.zero 1 (CircuitGadget.trivialAssignment sharedRing free) := by
  refine CircuitGadget.constraints_trivialAssignment sharedRing ⟨⟨?_, ?_, ?_, ?_, ?_, ?_, ?_, ?_⟩,
    ⟨?_, ?_, ?_, ?_, ?_, ?_, ?_, ?_⟩, ?_, ?_, ?_, ?_, ?_, ?_⟩ ⟨?_, ?_, ?_, ?_, ?_, ?_, ?_, ?_⟩
    ⟨?_, ?_, ?_, ?_, ?_, ?_, ?_, ?_⟩ free <;> decide

theorem accountsRoot_zero (accounts : List Bool → Account) :
    accountsRoot Primitives.zero accounts = 0 :=
  merkleRoot_zero _ 0 23

theorem feeRingAccounts_small : BalancesSmall feeRingAccounts := fun _ =>
  show (10 : FieldT).val < 2 ^ 96 by decide

theorem feeRing_collisionFree :
    LegsCollisionFree Primitives.zero feeRingAccounts (RingSettlementGadget.legs feeRing.trivialAssignment)
      (RingSettlementGadget.reads feeRing.trivialAssignment) :=
  ⟨⟨fun _ => by decide, collisionFreeAlong_zero _ _ (toPath_levels_zero _)⟩,
    ⟨fun _ => by decide, collisionFreeAlong_zero _ _ (toPath_levels_zero _)⟩,
    ⟨fun _ => by decide, collisionFreeAlong_zero _ _ (toPath_levels_zero _)⟩,
    ⟨fun _ => by decide, collisionFreeAlong_zero _ _ (toPath_levels_zero _)⟩,
    ⟨fun _ => by decide, collisionFreeAlong_zero _ _ (toPath_levels_zero _)⟩,
    ⟨fun _ => by decide, collisionFreeAlong_zero _ _ (toPath_levels_zero _)⟩, trivial⟩

section Transition

variable (P : Primitives)

/-- The balance transition of a ring: its six updates apply its six legs in order. -/
theorem ring_balance_transition {tradingHistoryMerkleRoot accountsMerkleRoot : FieldT}
    {τ : RingVar → FieldT}
    (h : RingSettlementGadget.Constraints P tradingHistoryMerkleRoot accountsMerkleRoot τ)
    (accounts : List Bool → Account) (committed : accountsMerkleRoot = accountsRoot P accounts)
    (small : BalancesSmall accounts)
    (free : LegsCollisionFree P accounts (RingSettlementGadget.legs τ)
      (RingSettlementGadget.reads τ)) :
    LegsValid accounts (RingSettlementGadget.legs τ) ∧
      τ (.updateBalanceF_B UpdateBalanceVar.result) =
        accountsRoot P (applyLegs accounts (RingSettlementGadget.legs τ)) :=
  let ⟨valid, root, _⟩ := PerformsAll.run P _ _ _ _ accounts h.performs committed small free
  ⟨valid, root⟩

theorem ring_balance_transition_on_fee_ring :
    LegsValid feeRingAccounts (RingSettlementGadget.legs feeRing.trivialAssignment) ∧
      feeRing.trivialAssignment (.updateBalanceF_B UpdateBalanceVar.result) =
        accountsRoot Primitives.zero
          (applyLegs feeRingAccounts (RingSettlementGadget.legs feeRing.trivialAssignment)) :=
  ring_balance_transition Primitives.zero feeRing_constraints feeRingAccounts
    (accountsRoot_zero _).symm feeRingAccounts_small feeRing_collisionFree

/-- Conservation of a ring up to its fees, token by token. -/
theorem ring_conserves_tokens_but_fees {tradingHistoryMerkleRoot accountsMerkleRoot : FieldT}
    {τ : RingVar → FieldT}
    (h : RingSettlementGadget.Constraints P tradingHistoryMerkleRoot accountsMerkleRoot τ)
    (accounts : List Bool → Account) (committed : accountsMerkleRoot = accountsRoot P accounts)
    (small : BalancesSmall accounts)
    (free : LegsCollisionFree P accounts (RingSettlementGadget.legs τ)
      (RingSettlementGadget.reads τ)) :
    τ (.updateBalanceF_B UpdateBalanceVar.result) =
        accountsRoot P (applyLegs accounts (RingSettlementGadget.legs τ)) ∧
      ∀ token, tokenBalance (applyLegs accounts (RingSettlementGadget.legs τ)) token +
        RingSettlementGadget.fees τ token = tokenBalance accounts token := by
  obtain ⟨valid, root, -⟩ := PerformsAll.run P _ _ _ _ accounts h.performs committed small free
  refine ⟨root, fun token => ?_⟩
  have moved := tokenBalance_applyLegs token (RingSettlementGadget.legs τ) accounts valid small
    h.legs_bounded
  rw [h.debited_eq] at moved
  omega

theorem ring_conserves_tokens_but_fees_on_fee_ring :
    feeRing.trivialAssignment (.updateBalanceF_B UpdateBalanceVar.result) =
        accountsRoot Primitives.zero
          (applyLegs feeRingAccounts (RingSettlementGadget.legs feeRing.trivialAssignment)) ∧
      ∀ token, tokenBalance (applyLegs feeRingAccounts
          (RingSettlementGadget.legs feeRing.trivialAssignment)) token +
        RingSettlementGadget.fees feeRing.trivialAssignment token =
          tokenBalance feeRingAccounts token :=
  ring_conserves_tokens_but_fees Primitives.zero feeRing_constraints feeRingAccounts
    (accountsRoot_zero _).symm feeRingAccounts_small feeRing_collisionFree

/-- On the fee ring the total of token `0` drops by the two fees. -/
theorem ring_fees_break_conservation :
    ¬ ∀ (P : Primitives) (tradingHistoryMerkleRoot accountsMerkleRoot : FieldT)
        (τ : RingVar → FieldT) (accounts : List Bool → Account),
      RingSettlementGadget.Constraints P tradingHistoryMerkleRoot accountsMerkleRoot τ →
        accountsMerkleRoot = accountsRoot P accounts → BalancesSmall accounts →
        LegsCollisionFree P accounts (RingSettlementGadget.legs τ)
          (RingSettlementGadget.reads τ) →
        ∀ token, tokenBalance (applyLegs accounts (RingSettlementGadget.legs τ)) token =
          tokenBalance accounts token := by
  intro conserved
  have same := conserved Primitives.zero 0 0 _ feeRingAccounts feeRing_constraints
    (accountsRoot_zero _).symm feeRingAccounts_small feeRing_collisionFree 0
  obtain ⟨valid, -, -⟩ := PerformsAll.run Primitives.zero _ _ _ _ feeRingAccounts
    feeRing_constraints.performs (accountsRoot_zero _).symm feeRingAccounts_small
    feeRing_collisionFree
  have moved := tokenBalance_applyLegs 0 (RingSettlementGadget.legs feeRing.trivialAssignment)
    feeRingAccounts valid feeRingAccounts_small
    feeRing_constraints.legs_bounded
  have debited : ((RingSettlementGadget.legs feeRing.trivialAssignment).map
      (Leg.debited · 0)).sum = 4 := by decide
  have credited : ((RingSettlementGadget.legs feeRing.trivialAssignment).map
      (Leg.credited · 0)).sum = 2 := by decide
  omega

end Transition

/-! Rates. `rateCheckerB` is given `orderA.amountB` where `orderB.amountS` belongs, and
`rateCheckerFeeB` `orderA.amountF` where `orderB.amountF` belongs. -/

/-- A product of two field elements of 96 bits does not wrap modulo `r`. -/
theorem val_mul_of_lt_96 {a b : FieldT} (ha : a.val < 2 ^ 96) (hb : b.val < 2 ^ 96) :
    (a * b).val = a.val * b.val := by
  rw [ZMod.val_mul, Nat.mod_eq_of_lt]
  calc a.val * b.val < 2 ^ 96 * 2 ^ 96 := Nat.mul_lt_mul'' ha hb
    _ < r := by norm_num [r]

theorem RateCheckerGadget.Constraints.rate_val {fillS fillB amountS amountB : FieldT}
    {τ : RateVar → FieldT} (h : RateCheckerGadget.Constraints fillS fillB amountS amountB τ)
    (hS : fillS.val < 2 ^ 96) (hB : fillB.val < 2 ^ 96) (aS : amountS.val < 2 ^ 96)
    (aB : amountB.val < 2 ^ 96) : fillS.val * amountB.val = fillB.val * amountS.val := by
  rw [← val_mul_of_lt_96 hS aB, ← val_mul_of_lt_96 hB aS, h.rate]

/-- The checks between a ring's orders as its checkers are wired, on the values an assignment
holds, the rates and matches as natural numbers. -/
structure RingVar.Checks (τ : RingVar → FieldT) : Prop where
  rateA : (τ (.fillS_A .packed)).val * (τ (.orderA (.amountB .packed))).val =
    (τ (.fillB_A .packed)).val * (τ (.orderA (.amountS .packed))).val
  rateB : (τ (.fillS_B .packed)).val * (τ (.orderB (.amountB .packed))).val =
    (τ (.fillB_B .packed)).val * (τ (.orderA (.amountB .packed))).val
  rateFeeA : (τ (.fillF_A .packed)).val * (τ (.orderA (.amountS .packed))).val =
    (τ (.fillS_A .packed)).val * (τ (.orderA (.amountF .packed))).val
  rateFeeB : (τ (.fillF_B .packed)).val * (τ (.orderB (.amountS .packed))).val =
    (τ (.fillS_B .packed)).val * (τ (.orderA (.amountF .packed))).val
  matchA : (τ (.fillB_B .packed)).val ≤ (τ (.fillS_A .packed)).val
  matchB : (τ (.fillB_A .packed)).val ≤ (τ (.fillS_B .packed)).val
  tokenS : τ (.orderA .tokenS) = τ (.orderB .tokenB)
  tokenB : τ (.orderA .tokenB) = τ (.orderB .tokenS)

/-- What a ring's constraints guarantee of the trade, as natural numbers. -/
theorem RingSettlementGadget.Constraints.checks {P : Primitives} {root accRoot : FieldT}
    {τ : RingVar → FieldT} (h : RingSettlementGadget.Constraints P root accRoot τ) :
    RingVar.Checks τ where
  rateA := h.rateCheckerA.rate_val h.fillS_A.val_packed_lt_96 h.fillB_A.val_packed_lt_96
    h.orderA.amountS.val_packed_lt_96 h.orderA.amountB.val_packed_lt_96
  rateB := h.rateCheckerB.rate_val h.fillS_B.val_packed_lt_96 h.fillB_B.val_packed_lt_96
    h.orderA.amountB.val_packed_lt_96 h.orderB.amountB.val_packed_lt_96
  rateFeeA := h.rateCheckerFeeA.rate_val h.fillF_A.val_packed_lt_96 h.fillS_A.val_packed_lt_96
    h.orderA.amountF.val_packed_lt_96 h.orderA.amountS.val_packed_lt_96
  rateFeeB := h.rateCheckerFeeB.rate_val h.fillF_B.val_packed_lt_96 h.fillS_B.val_packed_lt_96
    h.orderA.amountF.val_packed_lt_96 h.orderB.amountS.val_packed_lt_96
  matchA := h.matchLeqA.le (h.fillB_B.val_packed_lt (by norm_num) |>.trans (by norm_num))
    (h.fillS_A.val_packed_lt (by norm_num) |>.trans (by norm_num))
  matchB := h.matchLeqB.le (h.fillB_A.val_packed_lt (by norm_num) |>.trans (by norm_num))
    (h.fillS_B.val_packed_lt (by norm_num) |>.trans (by norm_num))
  tokenS := (mul_one _).symm.trans h.tokenS
  tokenB := (mul_one _).symm.trans h.tokenB

theorem checks_on_fee_ring :
    RingSettlementGadget.Constraints Primitives.zero 0 0 feeRing.trivialAssignment ∧
      RingVar.Checks feeRing.trivialAssignment :=
  ⟨feeRing_constraints, feeRing_constraints.checks⟩

/-- A ring in which `B` sells `2` for `1` but is given `2` for the `2` it sells: `A` sells `2`
for `1` and is given `1`; no fees; every balance `2`. -/
def rateRing : RingSettlement :=
  ⟨⟨Order.ofAmounts 2 1 0, Order.ofAmounts 2 1 0, 2, 1, 0, 2, 2, 0⟩, 0, 0, 0, ⟨[]⟩, ⟨[]⟩,
    Account.ofBalance 2, Account.ofBalance 2, Account.ofBalance 2, Account.ofBalance 2,
    Account.ofBalance 2, Account.ofBalance 2, ⟨[]⟩, ⟨[]⟩, ⟨[]⟩, ⟨[]⟩, ⟨[]⟩, ⟨[]⟩⟩

/-- The rate ring satisfies its constraints, yet `B`'s fills do not keep `B`'s rate. -/
theorem rateCheckerB_misses_orderB_rate :
    RingSettlementGadget.Constraints Primitives.zero 0 0 rateRing.trivialAssignment ∧
      (rateRing.trivialAssignment (.fillS_B .packed)).val *
          (rateRing.trivialAssignment (.orderB (.amountB .packed))).val ≠
        (rateRing.trivialAssignment (.fillB_B .packed)).val *
          (rateRing.trivialAssignment (.orderB (.amountS .packed))).val := by
  refine ⟨rateRing.constraints_trivialAssignment ⟨⟨?_, ?_, ?_, ?_, ?_, ?_, ?_, ?_⟩,
    ⟨?_, ?_, ?_, ?_, ?_, ?_, ?_, ?_⟩, ?_, ?_, ?_, ?_, ?_, ?_⟩ ⟨?_, ?_, ?_, ?_, ?_, ?_, ?_, ?_⟩
    ⟨?_, ?_, ?_, ?_, ?_, ?_, ?_, ?_⟩, ?_⟩ <;> decide

end Loopring
