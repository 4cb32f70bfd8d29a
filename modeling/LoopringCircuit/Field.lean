import Mathlib.NumberTheory.LucasPrimality
import Mathlib.Data.List.Prime

set_option autoImplicit false

namespace Loopring

/-! The scalar field of alt_bn128, which `ethsnarks::FieldT` is. Its order is proved prime by a
chain of Lucas certificates, so that `ZMod r` is a field with no assumption. -/

/-- `acc * b ^ e % m` by binary exponentiation, one squaring per step; `fuel` bounds the
number of binary digits of `e` that are read. -/
def powModAcc (m : ℕ) : ℕ → ℕ → ℕ → ℕ → ℕ
  | 0, _, _, acc => acc % m
  | fuel + 1, b, e, acc =>
      if e = 0 then acc % m
      else powModAcc m fuel (b * b % m) (e / 2) (if e % 2 = 1 then acc * b % m else acc)

theorem powModAcc_lt (m : ℕ) (positive : 0 < m) :
    ∀ fuel b e acc, powModAcc m fuel b e acc < m
  | 0, _, _, _ => Nat.mod_lt _ positive
  | fuel + 1, _, e, _ => by
      rw [powModAcc]
      split
      · exact Nat.mod_lt _ positive
      · exact powModAcc_lt m positive fuel _ _ _

/-- Read in `ZMod m`, the accumulator loop is the power it stands for. -/
theorem powModAcc_cast (m : ℕ) :
    ∀ (fuel b e acc : ℕ), e < 2 ^ fuel →
      ((powModAcc m fuel b e acc : ℕ) : ZMod m) = acc * (b : ZMod m) ^ e
  | 0, b, e, acc, small => by
      obtain rfl : e = 0 := by simpa using small
      simp [powModAcc]
  | fuel + 1, b, e, acc, small => by
      have half : e / 2 < 2 ^ fuel := by rw [pow_succ] at small; omega
      have split : (b : ZMod m) ^ e = ((b : ZMod m) * b) ^ (e / 2) * (b : ZMod m) ^ (e % 2) := by
        rw [← pow_two, ← pow_mul, ← pow_add, Nat.div_add_mod]
      rw [powModAcc]
      split
      · simp [*]
      rw [powModAcc_cast m fuel _ _ _ half, split]
      rcases Nat.mod_two_eq_zero_or_one e with even | odd
      · simp [even]
      · simp [odd]; ring


/-- A Lucas certificate for `prime`: the factorisation of `prime - 1` as (prime, exponent)
pairs, and a `base` whose order modulo `prime` is `prime - 1`. -/
structure Lucas where
  prime : ℕ
  base : ℕ
  factors : List (ℕ × ℕ)

/-- `base ^ e % prime`, over the 256 binary digits that cover every exponent used here. -/
def Lucas.pow (c : Lucas) (e : ℕ) : ℕ := powModAcc c.prime 256 c.base e 1

/-- Lucas's test for one certificate whose factors are among the primes `known`. -/
def Lucas.valid (known : List ℕ) (c : Lucas) : Bool :=
  2 ≤ c.prime && c.prime ≤ 2 ^ 256 &&
    (c.factors.map fun f => f.1 ^ f.2).prod == c.prime - 1 &&
    c.factors.all (fun f => decide (f.1 ∈ known)) &&
    c.pow (c.prime - 1) == 1 &&
    c.factors.all (fun f => c.pow ((c.prime - 1) / f.1) != 1)

/-- A chain of certificates, each checked against `2` and the primes certified before it. -/
def chainValid : List ℕ → List Lucas → Bool
  | _, [] => true
  | known, c :: cs => c.valid known && chainValid (c.prime :: known) cs

theorem Lucas.pow_cast (c : Lucas) (e : ℕ) (small : e < 2 ^ 256) :
    ((c.pow e : ℕ) : ZMod c.prime) = (c.base : ZMod c.prime) ^ e := by
  rw [Lucas.pow, powModAcc_cast _ _ _ _ _ small, Nat.cast_one, one_mul]

theorem Lucas.prime_of_valid {known : List ℕ} {c : Lucas}
    (primes : ∀ q ∈ known, q.Prime) (valid : c.valid known = true) : c.prime.Prime := by
  simp only [Lucas.valid, Bool.and_eq_true, decide_eq_true_eq, beq_iff_eq, List.all_eq_true,
    bne_iff_ne, ne_eq] at valid
  obtain ⟨⟨⟨⟨⟨two_le, le_bound⟩, product⟩, known_factors⟩, full⟩, proper⟩ := valid
  have small : ∀ e ≤ c.prime - 1, e < 2 ^ 256 := fun e he => by omega
  have cast_one : ∀ x < c.prime, ((x : ℕ) : ZMod c.prime) = 1 ↔ x = 1 := fun x hx => by
    rw [← Nat.cast_one, ZMod.natCast_eq_natCast_iff', Nat.mod_eq_of_lt hx,
      Nat.mod_eq_of_lt (by omega)]
  have below : ∀ e, c.pow e < c.prime := fun e => powModAcc_lt _ (by omega) _ _ _ _
  refine lucas_primality c.prime c.base ?_ ?_
  · rw [← c.pow_cast _ (small _ le_rfl), cast_one _ (below _)]
    exact full
  · intro q q_prime q_dvd
    rw [← product] at q_dvd
    obtain ⟨x, x_mem, q_dvd_x⟩ := (Prime.dvd_prod_iff q_prime.prime).mp q_dvd
    obtain ⟨f, f_mem, rfl⟩ := List.mem_map.mp x_mem
    have same : q = f.1 := (Nat.prime_dvd_prime_iff_eq q_prime (primes _ (known_factors f f_mem))).mp
      (q_prime.dvd_of_dvd_pow q_dvd_x)
    subst same
    rw [← c.pow_cast _ (small _ (Nat.div_le_self _ _)), ne_eq, cast_one _ (below _)]
    exact proper f f_mem

theorem prime_of_chainValid :
    ∀ {known : List ℕ} {cs : List Lucas}, (∀ q ∈ known, q.Prime) →
      chainValid known cs = true → ∀ c ∈ cs, c.prime.Prime
  | _, [], _, _ => by simp
  | known, c :: cs, primes, valid => by
      simp only [chainValid, Bool.and_eq_true] at valid
      have head := Lucas.prime_of_valid primes valid.1
      have tail := @prime_of_chainValid (c.prime :: known) cs
        (by simpa [head] using primes) valid.2
      simpa [head] using tail

/-- The order of the scalar field of alt_bn128, `FieldT` of the circuit. -/
def r : ℕ := 21888242871839275222246405745257275088548364400416034343698204186575808495617

/-- Lucas's certificate for `r`. -/
def rLucas : Lucas :=
  ⟨r, 5, [(2, 28), (3, 2), (13, 1), (29, 1), (983, 1), (11003, 1), (237073, 1),
    (405928799, 1), (1670836401704629, 1), (13818364434197438864469338081, 1)]⟩

/-- Certificates for `r` and the primes in the factorisations below it. -/
def rCertificates : List Lucas :=
  [⟨3, 2, [(2, 1)]⟩, ⟨13, 2, [(2, 2), (3, 1)]⟩, ⟨7, 3, [(2, 1), (3, 1)]⟩,
   ⟨29, 2, [(2, 2), (7, 1)]⟩, ⟨5, 2, [(2, 2)]⟩, ⟨491, 2, [(2, 1), (5, 1), (7, 2)]⟩,
   ⟨983, 5, [(2, 1), (491, 1)]⟩, ⟨11, 2, [(2, 1), (5, 1)]⟩,
   ⟨5501, 2, [(2, 2), (5, 3), (11, 1)]⟩, ⟨11003, 2, [(2, 1), (5501, 1)]⟩,
   ⟨449, 3, [(2, 6), (7, 1)]⟩, ⟨237073, 15, [(2, 4), (3, 1), (11, 1), (449, 1)]⟩,
   ⟨41, 6, [(2, 3), (5, 1)]⟩, ⟨3691, 2, [(2, 1), (3, 2), (5, 1), (41, 1)]⟩,
   ⟨17, 3, [(2, 4)]⟩, ⟨4999, 3, [(2, 1), (3, 1), (7, 2), (17, 1)]⟩,
   ⟨405928799, 22, [(2, 1), (11, 1), (3691, 1), (4999, 1)]⟩,
   ⟨53, 2, [(2, 2), (13, 1)]⟩, ⟨107, 2, [(2, 1), (53, 1)]⟩,
   ⟨661, 2, [(2, 2), (3, 1), (5, 1), (11, 1)]⟩, ⟨31, 3, [(2, 1), (3, 1), (5, 1)]⟩,
   ⟨93001, 14, [(2, 3), (3, 1), (5, 3), (31, 1)]⟩,
   ⟨12048837557, 2, [(2, 2), (7, 2), (661, 1), (93001, 1)]⟩,
   ⟨5156902474397, 2, [(2, 2), (107, 1), (12048837557, 1)]⟩,
   ⟨1670836401704629, 2, [(2, 2), (3, 4), (5156902474397, 1)]⟩,
   ⟨137, 3, [(2, 3), (17, 1)]⟩, ⟨823, 3, [(2, 1), (3, 1), (137, 1)]⟩,
   ⟨19, 2, [(2, 1), (3, 2)]⟩, ⟨23, 5, [(2, 1), (11, 1)]⟩, ⟨47, 5, [(2, 1), (23, 1)]⟩,
   ⟨37, 2, [(2, 2), (3, 2)]⟩, ⟨223, 3, [(2, 1), (3, 1), (37, 1)]⟩,
   ⟨20963, 2, [(2, 1), (47, 1), (223, 1)]⟩, ⟨41927, 5, [(2, 1), (20963, 1)]⟩,
   ⟨1593227, 2, [(2, 1), (19, 1), (41927, 1)]⟩, ⟨83, 2, [(2, 1), (41, 1)]⟩,
   ⟨379, 2, [(2, 1), (3, 3), (7, 1)]⟩, ⟨409, 21, [(2, 3), (3, 1), (17, 1)]⟩,
   ⟨1637, 2, [(2, 2), (409, 1)]⟩, ⟨229, 6, [(2, 2), (3, 1), (19, 1)]⟩,
   ⟨71, 7, [(2, 1), (5, 1), (7, 1)]⟩, ⟨853, 2, [(2, 2), (3, 1), (71, 1)]⟩,
   ⟨639533339, 2, [(2, 1), (229, 1), (853, 1), (1637, 1)]⟩,
   ⟨65865678001877903, 5, [(2, 1), (83, 1), (379, 1), (1637, 1), (639533339, 1)]⟩,
   ⟨13818364434197438864469338081, 3,
     [(2, 5), (5, 1), (823, 1), (1593227, 1), (65865678001877903, 1)]⟩,
   rLucas]

set_option maxRecDepth 100000 in
theorem rCertificates_valid : chainValid [2] rCertificates = true := by decide

theorem r_prime : r.Prime :=
  prime_of_chainValid (by simpa using Nat.prime_two) rCertificates_valid
    rLucas (by simp [rCertificates])

instance : Fact r.Prime := ⟨r_prime⟩

/-- `ethsnarks::FieldT`: every wire of the protoboard holds one of these. -/
abbrev FieldT : Type := ZMod r

theorem two_pow_253_lt_r : 2 ^ 253 < r := by norm_num [r]

end Loopring
