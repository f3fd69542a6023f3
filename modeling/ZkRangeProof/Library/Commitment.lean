import Mathlib.Algebra.Group.Basic
import Mathlib.Algebra.Group.Int.Defs
import Mathlib.Tactic.Ring
import Mathlib.GroupTheory.OrderOfElement
import Mathlib.Data.ZMod.QuotientGroup

/-! Fujisaki–Okamoto commitments `g ^ x * h ^ r` over a commutative group with integer
exponents, and the two sigma protocols of Boudot built on them: the proof that two
commitments hide the same number (his section 2.2) and the proof that a committed number
is a square (section 2.3). Commitments in the same bases multiply and exponentiate
componentwise, so each identity the verifiers rely on reduces to exponent arithmetic. Two
transcripts that rebuild one first message make a power of the committed element a
commitment (`zpow_sub_of_recompute_eq`), and in a finite group a power by an exponent coprime
to the order can be undone (`commit_of_zpow`): the sigma protocols' special soundness. When `g`
lies in the cyclic subgroup of `h`, a commitment opens to every number (`exists_commit_eq`). -/

namespace FujisakiOkamoto

variable {G : Type*} [CommGroup G] (g h : G)

/-- The commitment `g ^ x * h ^ r` to `x` under key `r`. -/
def commit (x r : ℤ) : G := g ^ x * h ^ r

theorem commit_mul (x r y s : ℤ) : commit g h x r * commit g h y s = commit g h (x + y) (r + s) := by
  simp only [commit, zpow_add]
  exact mul_mul_mul_comm _ _ _ _

theorem commit_zpow (x r k : ℤ) : commit g h x r ^ k = commit g h (x * k) (r * k) := by
  simp only [commit, mul_zpow, zpow_mul]

theorem commit_inv (x r : ℤ) : (commit g h x r)⁻¹ = commit g h (-x) (-r) := by
  simp only [commit, mul_inv, zpow_neg]

theorem base_zpow (x : ℤ) : g ^ x = commit g h x 0 := by simp [commit]

theorem key_zpow (r : ℤ) : h ^ r = commit g h 0 r := by simp [commit]

theorem commit_congr {x r y s : ℤ} (values : x = y) (keys : r = s) :
    commit g h x r = commit g h y s := by rw [values, keys]

/-- The first message the verifier rebuilds from a response: `g ^ D * h ^ D1 * E ^ (-c)`. -/
def recompute (E : G) (c D D1 : ℤ) : G := g ^ D * h ^ D1 * E ^ (-c)

theorem recompute_commit (x r w n c : ℤ) :
    recompute g h (commit g h x r) c (w + c * x) (n + c * r) = commit g h w n := by
  rw [recompute, base_zpow g h, key_zpow g h, commit_zpow, commit_mul, commit_mul]
  apply commit_congr <;> ring

/-- Two transcripts that rebuild the same first message: `E ^ (c - c')` is the commitment to
the differences of the responses. -/
theorem zpow_sub_of_recompute_eq {E : G} {c D D1 c' D' D1' : ℤ}
    (same : recompute g h E c D D1 = recompute g h E c' D' D1') :
    E ^ (c - c') = commit g h (D - D') (D1 - D1') := by
  rw [recompute, recompute, ← commit, ← commit] at same
  have difference : commit g h (D - D') (D1 - D1') = commit g h D D1 / commit g h D' D1' := by
    rw [div_eq_mul_inv, commit_inv, commit_mul]
    rfl
  have power : E ^ (c - c') = E ^ (-c') / E ^ (-c) := by
    rw [div_eq_mul_inv, ← zpow_sub]
    congr 1
    ring
  rw [difference, power, div_eq_div_iff_mul_eq_mul, mul_comm]
  exact same.symm

theorem commit_of_zpow [Fintype G] {E : G} {k x r u v : ℤ} (power : E ^ k = commit g h x r)
    (bezout : u * k + v * Fintype.card G = 1) : E = commit g h (x * u) (r * u) := by
  calc E = E ^ (u * k + v * Fintype.card G) := by rw [bezout, zpow_one]
    _ = (E ^ k) ^ u * (E ^ Fintype.card G) ^ v := by
      rw [zpow_add, mul_comm u k, zpow_mul, mul_comm v, zpow_mul, zpow_natCast]
    _ = commit g h (x * u) (r * u) := by
      rw [power, pow_card_eq_one, one_zpow, mul_one, commit_zpow]

theorem commit_commit (x r y s : ℤ) :
    commit (commit g h x r) h y s = commit g h (x * y) (r * y + s) := by
  rw [commit, commit_zpow, key_zpow g h, commit_mul]
  apply commit_congr <;> ring

theorem commit_square (x r1 r2 : ℤ) :
    commit (commit g h x r2) h x (r1 - r2 * x) = commit g h (x * x) r1 := by
  rw [commit_commit]
  apply commit_congr <;> ring

/-! ### Hiding -/

/-- With `g` a power `h ^ β`, a commitment opens to every number: `g ^ x * h ^ r` is
`h ^ (β * x + r)`, and the key `r + β * (x - y)` makes up for another value `y`. -/
theorem exists_commit_eq (gPower : g ∈ Subgroup.zpowers h) (x r y : ℤ) :
    ∃ s, commit g h x r = commit g h y s := by
  obtain ⟨β, rfl⟩ := Subgroup.mem_zpowers_iff.mp gPower
  refine ⟨r + β * (x - y), ?_⟩
  simp only [commit, ← zpow_mul, ← zpow_add]
  congr 1
  ring

/-- In a finite group, an element of the cyclic subgroup of `u` with the order of `u`
generates that subgroup. -/
theorem zpowers_eq_of_orderOf_eq [Finite G] {u v : G} (member : v ∈ Subgroup.zpowers u)
    (sameOrder : orderOf v = orderOf u) : Subgroup.zpowers v = Subgroup.zpowers u := by
  apply Subgroup.eq_of_le_of_card_ge
  · exact Subgroup.zpowers_le.mpr member
  · rw [Nat.card_zpowers, Nat.card_zpowers, sameOrder]

end FujisakiOkamoto
