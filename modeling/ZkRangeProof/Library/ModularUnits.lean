import Mathlib.Data.ZMod.Units
import Mathlib.Data.Int.GCD
import Mathlib.RingTheory.Coprime.Lemmas

/-! Integers as residues modulo `n`. An integer coprime to `n` names a unit of `ZMod n`;
the Bezout coefficient `Int.gcdA y n` names the inverse of `y`, and a remainder in
`[0, n)` is the canonical representative of its residue. These are the facts every
modular exponentiation with a signed exponent rests on. -/

namespace ModularUnits

variable {n : ℕ}

/-- The canonical representative in `[0, n)` of a residue. -/
def rep (z : ZMod n) : ℤ := (z.val : ℤ)

theorem emod_eq_rep [NeZero n] {x : ℤ} {z : ZMod n} (cast : (x : ZMod n) = z) :
    x % n = rep z := by
  rw [rep, ← cast, ZMod.val_intCast]

theorem rep_nonneg (z : ZMod n) : 0 ≤ rep z := Int.natCast_nonneg _

theorem rep_lt [NeZero n] (z : ZMod n) : rep z < n := by
  rw [rep]; exact_mod_cast ZMod.val_lt z

theorem intCast_rep [NeZero n] (z : ZMod n) : ((rep z : ℤ) : ZMod n) = z := by
  simp [rep]

theorem rep_injective [NeZero n] : Function.Injective (rep : ZMod n → ℤ) := fun _ _ same =>
  ZMod.val_injective n (Int.ofNat_inj.mp same)

theorem rep_units_eq_iff [NeZero n] {u v : (ZMod n)ˣ} : rep (u : ZMod n) = rep (v : ZMod n) ↔ u = v :=
  rep_injective.eq_iff.trans Units.val_inj

theorem isCoprime_of_named {x : ℤ} {u : (ZMod n)ˣ} (named : (x : ZMod n) = u) :
    IsCoprime x n := by
  have unit : IsUnit (x : ZMod n) := named ▸ u.isUnit
  exact isCoprime_comm.mp ((ZMod.coe_int_isUnit_iff_isCoprime x n).mp unit)

/-- An integer coprime to `n` names a unit of `ZMod n`. -/
theorem exists_named_of_gcd {x : ℤ} (coprime : Int.gcd x n = 1) : ∃ u : (ZMod n)ˣ, (x : ZMod n) = u := by
  have unit : IsUnit (x : ZMod n) :=
    (ZMod.coe_int_isUnit_iff_isCoprime x n).mpr
      (isCoprime_comm.mp (Int.isCoprime_iff_gcd_eq_one.mpr coprime))
  obtain ⟨u, named⟩ := unit
  exact ⟨u, named.symm⟩

theorem ne_zero_of_named (large : 1 < n) {x : ℤ} {u : (ZMod n)ˣ} (named : (x : ZMod n) = u) :
    x ≠ 0 := by
  have : Fact (1 < n) := ⟨large⟩
  rintro rfl
  rw [Int.cast_zero] at named
  exact u.ne_zero named.symm

theorem intCast_mul_gcdA {y : ℤ} (coprime : Int.gcd y n = 1) :
    (y : ZMod n) * (Int.gcdA y n : ZMod n) = 1 := by
  have bezout := Int.gcd_eq_gcd_ab y n
  rw [coprime] at bezout
  have cast := congrArg (Int.cast : ℤ → ZMod n) bezout
  simpa using cast.symm

theorem intCast_gcdA_eq_inv {y : ℤ} {u : (ZMod n)ˣ} (named : (y : ZMod n) = u)
    (coprime : Int.gcd y n = 1) : (Int.gcdA y n : ZMod n) = ↑u⁻¹ := by
  have inverse := intCast_mul_gcdA coprime
  rw [named] at inverse
  exact (Units.inv_eq_of_mul_eq_one_right inverse).symm

theorem gcd_pow_emod_eq_one {x : ℤ} (coprime : IsCoprime x n) (k : ℕ) :
    Int.gcd (x ^ k % n) n = 1 := by
  rw [Int.gcd_emod, ← Int.isCoprime_iff_gcd_eq_one]
  exact coprime.pow_left

theorem zpow_of_nonneg {u : (ZMod n)ˣ} {e : ℤ} (nonneg : 0 ≤ e) : u ^ e = u ^ e.toNat := by
  rw [← zpow_natCast, Int.toNat_of_nonneg nonneg]

theorem zpow_of_neg {u : (ZMod n)ˣ} {e : ℤ} (negative : e < 0) : u ^ e = (u ^ e.natAbs)⁻¹ := by
  rw [← zpow_natCast, ← zpow_neg, Int.natCast_natAbs, abs_of_neg negative, neg_neg]

section Powers

variable {x : ℤ} {u : (ZMod n)ˣ} (named : (x : ZMod n) = u)
include named

theorem intCast_pow (k : ℕ) : ((x ^ k : ℤ) : ZMod n) = ↑(u ^ k) := by
  rw [Int.cast_pow, named, Units.val_pow_eq_pow_val]

theorem intCast_pow_emod (k : ℕ) : ((x ^ k % n : ℤ) : ZMod n) = ↑(u ^ k) := by
  rw [ZMod.intCast_mod, intCast_pow named]

end Powers

end ModularUnits
