import Mathlib.GroupTheory.OrderOfElement
import Mathlib.Algebra.Group.Subgroup.ZPowers.Basic
import Mathlib.Data.ZMod.Basic
import Mathlib.Data.Int.GCD
import Mathlib.Tactic.LinearCombination

/-! Orders of integers modulo a product of coprime moduli, and the Chinese remainder
combination by Bezout coefficients. An integer's order modulo `m * n` is the least common
multiple of its orders modulo `m` and modulo `n`; and when `s * m + t * n = 1`, the number
`u * t * n + v * s * m` is `u` modulo `m` and `v` modulo `n`. So an integer of order `p`
modulo `m` and `q` modulo `n`, for coprime `p` and `q`, is a unit of order `p * q` modulo
`m * n`, and so is each of its powers by an exponent coprime to `p * q`. -/

namespace ModularOrder

theorem intCast_pow_eq_one_iff {n : ℕ} (x : ℤ) (k : ℕ) :
    (x : ZMod n) ^ k = 1 ↔ x ^ k ≡ 1 [ZMOD n] := by
  rw [← Int.cast_pow, ← Int.cast_one, ZMod.intCast_eq_intCast_iff]

theorem intCast_eq_one_iff {n : ℕ} (large : 1 < n) (x : ℤ) : (x : ZMod n) = 1 ↔ x % n = 1 := by
  rw [← Int.cast_one, ZMod.intCast_eq_intCast_iff',
    Int.emod_eq_of_lt zero_le_one (by exact_mod_cast large)]

theorem orderOf_pow_of_prime {M : Type*} [Monoid M] {x : M} {p k : ℕ} (pPrime : p.Prime)
    (power : x ^ p = 1) (square : x ^ 2 ≠ 1) (positive : 0 < k) (below : k < p) :
    orderOf (x ^ k) = p := by
  have : Fact p.Prime := ⟨pPrime⟩
  have order : orderOf x = p := orderOf_eq_prime power fun one => square (by rw [one, one_pow])
  have coprime : (orderOf x).Coprime k := by
    rw [order]
    exact Nat.coprime_of_lt_prime positive.ne' below pPrime
  rw [coprime.orderOf_pow, order]

/-- Modulo a product of coprime moduli, an integer's order is the least common multiple of its
orders modulo each. -/
theorem orderOf_intCast_mul {m n : ℕ} (coprime : m.Coprime n) (x : ℤ) :
    orderOf (x : ZMod (m * n)) = Nat.lcm (orderOf (x : ZMod m)) (orderOf (x : ZMod n)) := by
  have powEqOne (k : ℕ) :
      (x : ZMod (m * n)) ^ k = 1 ↔ (x : ZMod m) ^ k = 1 ∧ (x : ZMod n) ^ k = 1 := by
    rw [intCast_pow_eq_one_iff, intCast_pow_eq_one_iff, intCast_pow_eq_one_iff, Nat.cast_mul]
    exact (Int.modEq_and_modEq_iff_modEq_mul (by simpa using coprime)).symm
  apply Nat.dvd_antisymm
  · rw [orderOf_dvd_iff_pow_eq_one, powEqOne, ← orderOf_dvd_iff_pow_eq_one,
      ← orderOf_dvd_iff_pow_eq_one]
    exact ⟨Nat.dvd_lcm_left _ _, Nat.dvd_lcm_right _ _⟩
  · obtain ⟨left, right⟩ := (powEqOne _).mp (pow_orderOf_eq_one (x : ZMod (m * n)))
    exact Nat.lcm_dvd (orderOf_dvd_of_pow_eq_one left) (orderOf_dvd_of_pow_eq_one right)

/-- An integer of order `p` modulo `m` and `q` modulo `n`, for coprime moduli and coprime `p`
and `q`, is a unit of order `p * q` modulo `m * n`; its power by an exponent coprime to `p * q`
is a unit of the same order, in the subgroup it generates. -/
theorem units_of_orders {m n p q : ℕ} (coprime : m.Coprime n) (orders : p.Coprime q)
    (positive : 0 < p * q) {x : ℤ} (atM : orderOf (x : ZMod m) = p) (atN : orderOf (x : ZMod n) = q)
    {k : ℕ} (exponent : (p * q).Coprime k) :
    ∃ u v : (ZMod (m * n))ˣ, (x : ZMod (m * n)) = u ∧ (x : ZMod (m * n)) ^ k = v ∧
      orderOf u = p * q ∧ orderOf v = p * q ∧ v ∈ Subgroup.zpowers u := by
  have order : orderOf (x : ZMod (m * n)) = p * q := by
    rw [orderOf_intCast_mul coprime, atM, atN, orders.lcm_eq_mul]
  have unit : IsUnit (x : ZMod (m * n)) :=
    IsUnit.of_pow_eq_one (pow_orderOf_eq_one _) (by rw [order]; exact positive.ne')
  have unitOrder : orderOf unit.unit = p * q := by rw [← orderOf_units, unit.unit_spec, order]
  refine ⟨unit.unit, unit.unit ^ k, unit.unit_spec.symm, by rw [Units.val_pow_eq_pow_val,
    unit.unit_spec], unitOrder, ?_, Subgroup.npow_mem_zpowers _ _⟩
  rw [Nat.Coprime.orderOf_pow (by rw [unitOrder]; exact exponent), unitOrder]

section Combination

variable {m n s t : ℤ} (bezout : s * m + t * n = 1) (u v : ℤ)
include bezout

theorem combination_modEq_left : u * t * n + v * s * m ≡ u [ZMOD m] := by
  apply Int.modEq_iff_dvd.mpr
  exact ⟨(u - v) * s, by linear_combination -u * bezout⟩

theorem combination_modEq_right : u * t * n + v * s * m ≡ v [ZMOD n] := by
  apply Int.modEq_iff_dvd.mpr
  exact ⟨(v - u) * t, by linear_combination -v * bezout⟩

end Combination

end ModularOrder
