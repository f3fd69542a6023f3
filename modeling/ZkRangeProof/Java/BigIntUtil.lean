import ZkRangeProof.Java.BigInteger
import ZkRangeProof.Library.Sha256
import ZkRangeProof.Library.Loop

/-! `BigIntUtil` and `DigestUtil`: division modulo `N`, the Babylonian floor square root
that `takeRandomM` bounds `m4` with, and the hash of a list of integers. The square-root
loop runs on a fuel of `input + 4` rounds, which `approximateSquareRootLoop_mem` shows the
loop never exhausts: it stops on its own guard at `⌊√input⌋` or `⌊√input⌋ + 1`. -/

/-! ### The Babylonian step

One step `x ↦ (n / x + x) / 2` of the Babylonian square-root iteration on integers,
against an `s` with `s * s ≤ n < (s + 1) * (s + 1)`. From any positive start the step
lands at or above `s`, strictly decreases above `s`, and from `s` moves at most to
`s + 1`: the iteration ends in `s`, or in the two-cycle `s, s + 1`. -/

namespace Babylonian

def step (n x : ℤ) : ℤ := (n / x + x) / 2

variable {n s : ℤ}

/-- Arithmetic and geometric mean: no step falls below the floor square root. -/
theorem le_step (floor : s * s ≤ n) {x : ℤ} (positive : 0 < x) : s ≤ step n x := by
  unfold step
  have division := Int.mul_ediv_add_emod n x
  have remainder := Int.emod_lt_of_pos n positive
  have upper : n < x * (n / x) + x := by linarith
  by_contra below
  rw [not_le] at below
  have small : n / x + x + 1 ≤ 2 * s := by omega
  nlinarith [mul_le_mul_of_nonneg_left small positive.le, sq_nonneg (s - x)]

theorem step_le_pred (ceil : n < (s + 1) * (s + 1)) (nonneg : 0 ≤ s) {x : ℤ}
    (above : s + 1 ≤ x) : step n x ≤ x - 1 := by
  unfold step
  have quotient : n / x < x := by
    rw [Int.ediv_lt_iff_lt_mul (by omega)]
    nlinarith
  omega

theorem step_le_succ (ceil : n < (s + 1) * (s + 1)) (positive : 0 < s) :
    step n s ≤ s + 1 := by
  unfold step
  have quotient : n / s ≤ s + 2 := by
    rw [Int.ediv_le_iff_le_mul positive]
    nlinarith
  omega

theorem step_le_self {x : ℤ} (start : 0 < x) (bounded : x ≤ n) : step n x ≤ n := by
  unfold step
  have quotient : n / x ≤ n := Int.ediv_le_self x (by omega)
  omega

end Babylonian

namespace ZkRangeProof.Java

open BigInteger

namespace BigIntUtil

/-- `divMod(a, b, N)`: `a.multiply(b.modInverse(N)).mod(N)`. -/
def divMod (a b N : ℤ) : Except JavaException ℤ := do
  let inverse ← modInverse b N
  mod (a * inverse) N

/-- `input.divide(approx).add(approx).shiftRight(1)`, with Java's truncating division. -/
def approximationStep (input approx : ℤ) : ℤ := (Int.tdiv input approx + approx) / 2

/-- The loop `while (!approx.equals(prev) && !approx.equals(prev2))`, one round per unit of
fuel; when the fuel runs out it returns the current approximation. -/
def approximateSquareRootLoop (input : ℤ) : ℕ → ℤ → ℤ → ℤ → ℤ
  | 0, _, _, approx => approx
  | fuel + 1, prev2, prev, approx =>
    if approx ≠ prev ∧ approx ≠ prev2 then
      approximateSquareRootLoop input fuel prev approx (approximationStep input approx)
    else approx

def squareRootGuard (state : ℤ × ℤ × ℤ) : Bool := decide (state.2.2 ≠ state.2.1 ∧ state.2.2 ≠ state.1)

def squareRootRound (input : ℤ) (state : ℤ × ℤ × ℤ) : ℤ × ℤ × ℤ :=
  (state.2.1, state.2.2, approximationStep input state.2.2)

theorem squareRootRound_mk (input prev2 prev approx : ℤ) :
    squareRootRound input (prev2, prev, approx) = (prev, approx, approximationStep input approx) :=
  rfl

theorem squareRootGuard_of_moving {prev2 prev approx : ℤ} (moving : approx ≠ prev ∧ approx ≠ prev2) :
    squareRootGuard (prev2, prev, approx) = true := by
  simpa [squareRootGuard] using moving

theorem squareRootGuard_of_stop {prev2 prev approx : ℤ} (stop : ¬(approx ≠ prev ∧ approx ≠ prev2)) :
    squareRootGuard (prev2, prev, approx) = false := by
  simpa [squareRootGuard] using stop

/-- `approximateSquareRoot`: zero below one, else the loop from `2 ^ (bitLength / 2)`. -/
def approximateSquareRoot (input : ℤ) : ℤ :=
  if input < 1 then 0
  else approximateSquareRootLoop input (input.toNat + 4) 0 0 (2 ^ (bitLength input / 2))

/-- `floorSquareRoot`: rejects negative input, corrects an approximation one too high. -/
def floorSquareRoot (input : ℤ) : Except JavaException ℤ :=
  if input < 0 then throw (.illegalArgument (some "Negative number does not have square root"))
  else
    let res := approximateSquareRoot input
    pure (if res * res > input then res - 1 else res)

section Units

open ModularUnits

variable {n : ℕ} [NeZero n]

theorem divMod_unit (a : ℤ) {b : ℤ} {v : (ZMod n)ˣ} (named : (b : ZMod n) = v) :
    divMod a b n = .ok (rep ((a : ZMod n) * ((v⁻¹ : (ZMod n)ˣ) : ZMod n))) := by
  simp only [divMod, modInverse_unit named, bind, Except.bind, mod_rep]
  push_cast [intCast_rep]
  rfl

theorem divMod_units {a b : ℤ} {u v : (ZMod n)ˣ} (aNamed : (a : ZMod n) = u)
    (bNamed : (b : ZMod n) = v) : divMod a b n = .ok (rep (↑(u * v⁻¹) : ZMod n)) := by
  rw [divMod_unit a bNamed, aNamed, Units.val_mul]

end Units

example : floorSquareRoot 24 = .ok 4 := by decide

example : floorSquareRoot 25 = .ok 5 := by decide


/-! ### The square-root loop stops at `⌊√input⌋` or one above -/

section SquareRoot

open Babylonian

theorem approximationStep_eq {input : ℤ} (nonneg : 0 ≤ input) (approx : ℤ) :
    approximationStep input approx = step input approx := by
  simp [approximationStep, step, Int.tdiv_eq_ediv_of_nonneg nonneg]

/-- What every round of the loop keeps: each value is the step of the one before it. -/
def LoopInvariant (input prev2 prev approx : ℤ) : Prop :=
  0 < approx ∧ (prev = 0 ∨ (0 < prev ∧ approx = step input prev)) ∧
    (prev2 = 0 ∨ (0 < prev2 ∧ prev = step input prev2))

variable {input s : ℤ} (floor : s * s ≤ input) (ceil : input < (s + 1) * (s + 1))
  (positive : 0 < s)
include floor ceil positive

theorem exit_mem {prev2 prev approx : ℤ} (invariant : LoopInvariant input prev2 prev approx)
    (above : s ≤ approx) (stop : ¬ (approx ≠ prev ∧ approx ≠ prev2)) :
    approx = s ∨ approx = s + 1 := by
  obtain ⟨approxPositive, prevStep, prev2Step⟩ := invariant
  rw [not_and_or, not_not, not_not] at stop
  by_contra outside
  have high : s + 1 ≤ approx := by omega
  have descent := step_le_pred ceil positive.le high
  rcases stop with repeated | alternating
  · -- a fixed point above `s` would not decrease
    rcases prevStep with zero | ⟨_, next⟩
    · omega
    · rw [← repeated] at next
      omega
  · -- a two-cycle through `approx ≥ s + 2` would have to come back up
    rcases prev2Step with zero | ⟨_, back⟩
    · omega
    rw [← alternating] at back
    have prevAbove := le_step floor approxPositive
    rw [← back] at prevAbove
    rcases prevStep with zero | ⟨prevPositive, next⟩
    · omega
    rcases eq_or_lt_of_le prevAbove with atRoot | overRoot
    · subst atRoot
      have := step_le_succ ceil positive
      omega
    · have := step_le_pred ceil positive.le overRoot
      omega

/-- From `s`, at most two more tests of the guard: `s` repeats, or `s + 1` and then `s` close a
cycle. -/
theorem run_from_root (fuel : ℕ) (prev : ℤ) :
    ∃ final, WhileLoop.run squareRootGuard (squareRootRound input) (fuel + 2)
        (prev, s, approximationStep input s) = some final ∧ (final.2.2 = s ∨ final.2.2 = s + 1) := by
  have nonneg : 0 ≤ input := le_trans (mul_self_nonneg s) floor
  rw [approximationStep_eq nonneg]
  have low := le_step floor positive
  have high := step_le_succ ceil positive
  rcases eq_or_lt_of_le low with same | up
  · -- the step returns `s`: the guard sees a repeat
    rw [← same]
    exact ⟨_, WhileLoop.run_succ_of_not_guard (squareRootGuard_of_stop (by simp)) _, .inl rfl⟩
  · have next : step input s = s + 1 := by omega
    rw [next]
    by_cases back : s + 1 = prev
    · exact ⟨_, WhileLoop.run_succ_of_not_guard (squareRootGuard_of_stop (by simp [back])) _,
      .inr rfl⟩
    · have down : step input (s + 1) = s := by
        have := le_step floor (by omega : (0 : ℤ) < s + 1)
        have := step_le_pred ceil positive.le (le_refl (s + 1))
        omega
      have moving : s + 1 ≠ s ∧ s + 1 ≠ prev := ⟨by omega, back⟩
      refine ⟨(s, s + 1, s), ?_, .inl rfl⟩
      rw [WhileLoop.run_succ_of_guard (squareRootGuard_of_moving moving)]
      have round : squareRootRound input (prev, s, s + 1) = (s, s + 1, s) := by
        rw [squareRootRound_mk, approximationStep_eq nonneg, down]
      rw [round, WhileLoop.run_succ_of_not_guard (squareRootGuard_of_stop (by simp))]

theorem run_mem (fuel : ℕ) {prev2 prev approx : ℤ}
    (invariant : LoopInvariant input prev2 prev approx) (above : s ≤ approx)
    (enough : (approx - s).toNat + 3 ≤ fuel) :
    ∃ final, WhileLoop.run squareRootGuard (squareRootRound input) fuel (prev2, prev, approx) =
      some final ∧ (final.2.2 = s ∨ final.2.2 = s + 1) := by
  have nonneg : 0 ≤ input := le_trans (mul_self_nonneg s) floor
  induction fuel generalizing prev2 prev approx with
  | zero => omega
  | succ fuel ih =>
    by_cases moving : approx ≠ prev ∧ approx ≠ prev2
    · rw [WhileLoop.run_succ_of_guard (squareRootGuard_of_moving moving), squareRootRound_mk]
      rcases eq_or_lt_of_le above with atRoot | overRoot
      · subst atRoot
        obtain ⟨rest, rfl⟩ : ∃ rest, fuel = rest + 2 := ⟨fuel - 2, by omega⟩
        exact run_from_root floor ceil positive rest prev
      · obtain ⟨approxPositive, prevStep, _⟩ := invariant
        have descent := step_le_pred ceil positive.le overRoot
        have lower := le_step floor approxPositive
        apply ih
        · refine ⟨by rw [approximationStep_eq nonneg]; omega, .inr ⟨approxPositive, ?_⟩, ?_⟩
          · exact approximationStep_eq nonneg approx
          · rcases prevStep with zero | ⟨prevPositive, next⟩
            · exact .inl zero
            · exact .inr ⟨prevPositive, next⟩
        · rw [approximationStep_eq nonneg]; exact lower
        · rw [approximationStep_eq nonneg]; omega
    · exact ⟨_, WhileLoop.run_succ_of_not_guard (squareRootGuard_of_stop moving) fuel,
        exit_mem floor ceil positive invariant above moving⟩

end SquareRoot

theorem pow_half_bitLength_le {input : ℤ} (positive : 0 < input) :
    (2 : ℤ) ^ (bitLength input / 2) ≤ input := by
  have size : bitLength input = Nat.size input.toNat := by simp [bitLength, positive.le]
  have sizePositive : 0 < Nat.size input.toNat := Nat.size_pos.mpr (by omega)
  have top : 2 ^ (Nat.size input.toNat - 1) ≤ input.toNat := Nat.lt_size.mp (by omega)
  have half : 2 ^ (bitLength input / 2) ≤ 2 ^ (Nat.size input.toNat - 1) :=
    Nat.pow_le_pow_right (by norm_num) (by omega)
  have := le_trans half top
  calc (2 : ℤ) ^ (bitLength input / 2) = ((2 ^ (bitLength input / 2) : ℕ) : ℤ) := by push_cast; rfl
    _ ≤ (input.toNat : ℤ) := by exact_mod_cast this
    _ = input := Int.toNat_of_nonneg positive.le

theorem approximateSquareRootLoop_of_run {input : ℤ} {fuel : ℕ} {prev2 prev approx : ℤ}
    {final : ℤ × ℤ × ℤ} (exits : WhileLoop.run squareRootGuard (squareRootRound input) fuel
      (prev2, prev, approx) = some final) :
    approximateSquareRootLoop input fuel prev2 prev approx = final.2.2 := by
  induction fuel generalizing prev2 prev approx with
  | zero => cases exits
  | succ fuel ih =>
    by_cases moving : approx ≠ prev ∧ approx ≠ prev2
    · rw [WhileLoop.run_succ_of_guard (squareRootGuard_of_moving moving)] at exits
      rw [approximateSquareRootLoop, if_pos moving]
      exact ih exits
    · rw [WhileLoop.run_succ_of_not_guard (squareRootGuard_of_stop moving)] at exits
      cases exits
      rw [approximateSquareRootLoop, if_neg moving]

theorem sqrt_mul_self_le {input : ℤ} (nonneg : 0 ≤ input) :
    (Nat.sqrt input.toNat : ℤ) * Nat.sqrt input.toNat ≤ input := by
  have := Nat.sqrt_le' input.toNat
  calc (Nat.sqrt input.toNat : ℤ) * Nat.sqrt input.toNat = ((Nat.sqrt input.toNat ^ 2 : ℕ) : ℤ) := by
        push_cast; ring
    _ ≤ (input.toNat : ℤ) := by exact_mod_cast this
    _ = input := Int.toNat_of_nonneg nonneg

theorem lt_sqrt_succ_mul_self {input : ℤ} (nonneg : 0 ≤ input) :
    input < ((Nat.sqrt input.toNat : ℤ) + 1) * ((Nat.sqrt input.toNat : ℤ) + 1) := by
  have := Nat.lt_succ_sqrt' input.toNat
  calc input = (input.toNat : ℤ) := (Int.toNat_of_nonneg nonneg).symm
    _ < (((Nat.sqrt input.toNat + 1) ^ 2 : ℕ) : ℤ) := by exact_mod_cast this
    _ = ((Nat.sqrt input.toNat : ℤ) + 1) * ((Nat.sqrt input.toNat : ℤ) + 1) := by push_cast; ring

/-- For `input ≥ 1` the loop of `approximateSquareRoot` exits on its guard within its
`input + 4` tests, at `⌊√input⌋` or one above, and `approximateSquareRoot` returns that value. -/
theorem approximateSquareRoot_exits {input : ℤ} (large : 1 ≤ input) :
    ∃ final, WhileLoop.run squareRootGuard (squareRootRound input) (input.toNat + 4)
        (0, 0, 2 ^ (bitLength input / 2)) = some final ∧
      approximateSquareRoot input = final.2.2 ∧
      (final.2.2 = Nat.sqrt input.toNat ∨ final.2.2 = Nat.sqrt input.toNat + 1) := by
  have nonneg : 0 ≤ input := by omega
  have floor := sqrt_mul_self_le nonneg
  have ceil := lt_sqrt_succ_mul_self nonneg
  have positive : (0 : ℤ) < Nat.sqrt input.toNat := by nlinarith
  have start := pow_half_bitLength_le (show 0 < input by omega)
  have startPositive : (0 : ℤ) < 2 ^ (bitLength input / 2) := by positivity
  have first := Babylonian.le_step floor startPositive
  have bounded := Babylonian.step_le_self startPositive start
  have moving : (2 : ℤ) ^ (bitLength input / 2) ≠ 0 ∧ (2 : ℤ) ^ (bitLength input / 2) ≠ 0 :=
    ⟨startPositive.ne', startPositive.ne'⟩
  obtain ⟨final, exits, mem⟩ : ∃ final, WhileLoop.run squareRootGuard (squareRootRound input)
      (input.toNat + 3 + 1) (0, 0, 2 ^ (bitLength input / 2)) = some final ∧
      (final.2.2 = Nat.sqrt input.toNat ∨ final.2.2 = Nat.sqrt input.toNat + 1) := by
    rw [WhileLoop.run_succ_of_guard (squareRootGuard_of_moving moving), squareRootRound_mk]
    apply run_mem floor ceil positive
    · refine ⟨by rw [approximationStep_eq nonneg]; omega, .inr ⟨startPositive, ?_⟩, .inl rfl⟩
      exact approximationStep_eq nonneg _
    · rw [approximationStep_eq nonneg]; exact first
    · rw [approximationStep_eq nonneg]; omega
  refine ⟨final, exits, ?_, mem⟩
  rw [approximateSquareRoot, if_neg (by omega)]
  exact approximateSquareRootLoop_of_run exits

/-- For every `input ≥ 0` the loop exits on its guard and `floorSquareRoot` returns
`⌊√input⌋`. -/
theorem floorSquareRoot_eq {input : ℤ} (nonneg : 0 ≤ input) :
    floorSquareRoot input = .ok (Nat.sqrt input.toNat) := by
  have floor := sqrt_mul_self_le nonneg
  have ceil := lt_sqrt_succ_mul_self nonneg
  have approximation : approximateSquareRoot input = Nat.sqrt input.toNat ∨
      approximateSquareRoot input = Nat.sqrt input.toNat + 1 := by
    by_cases large : 1 ≤ input
    · obtain ⟨final, -, computed, mem⟩ := approximateSquareRoot_exits large
      rw [computed]
      exact mem
    · -- only `input = 0` is below one, and its root is zero
      have zero : input = 0 := by omega
      subst zero
      left
      rfl
  unfold floorSquareRoot
  rw [if_neg (not_lt.mpr nonneg)]
  rcases approximation with atRoot | aboveRoot
  · simp only [atRoot, gt_iff_lt, not_lt.mpr floor, if_false]
    rfl
  · simp only [aboveRoot, gt_iff_lt, ceil, if_true, add_sub_cancel_right]
    rfl

end BigIntUtil

namespace DigestUtil

/-- `calculateHash(bigIntegers...)`: SHA-256 of the concatenated `toByteArray` encodings,
read back by `new BigInteger(byte[])`. -/
def calculateHash (bigIntegers : List ℤ) : ℤ :=
  ofByteArray (Sha256.hash (bigIntegers.flatMap toByteArray))

end DigestUtil

end ZkRangeProof.Java
