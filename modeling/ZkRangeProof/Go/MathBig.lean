import ZkRangeProof.Library.Bytes
import ZkRangeProof.Library.Decimal
import Mathlib.Data.Int.GCD

/-! The `math/big` operations the Go code calls, as Go 1.7 to 1.9 define them. What these
versions leave open, or do not agree on, is a parameter. `ModInverse` of a number that is not
relatively prime to the modulus is "undefined" (they return a number, not nil); of a negative
number it is the inverse from Go 1.8 on, while Go 1.7's `GCD` sets `x = 0` for an argument that
is not positive, so `ModInverse` returns `0`. The value `SetString` leaves behind when it rejects
a string is open too. `MathBig` bundles these with what all three versions share; every Go
theorem holds for every `MathBig`. -/

namespace ZkRangeProof.Go

/-- How a Go call ends without a value: a returned `error`, or a run-time panic. -/
inductive Failure where
  | error (message : String)
  | panic (reason : String)
  deriving DecidableEq, Repr

/-- The behaviour of `math/big` that its documentation does not pin down. -/
structure MathBig where
  /-- `new(big.Int).ModInverse(g, n)`. -/
  modInverse : ℤ → ℤ → ℤ
  /-- For `n > 0` and `0 ≤ g` relatively prime to `n`, the inverse of `g` modulo `n` in
  `[0, n)`, which is the Bezout coefficient reduced modulo `n`. -/
  modInverse_coprime :
    ∀ g n : ℤ, 0 ≤ g → 0 < n → Int.gcd g n = 1 → modInverse g n = Int.gcdA g n % n
  /-- The value `z.SetString(s, 10)` leaves in `z` when it rejects `s`. -/
  setStringFailed : List UInt8 → ℤ

namespace MathBig

/-- `z.Exp(x, y, m)`: `x ^ y mod |m|`; for `y ≤ 0` the power is `1`, and for `m = 0` nothing
is reduced. -/
def exp (x y m : ℤ) : ℤ := x ^ y.toNat % (m.natAbs : ℤ)

def setBytes (buf : List UInt8) : ℤ := Bytes.value buf

/-- `z.SetString(s, 10)` as the value it leaves in `z`: base 10 takes an optional sign and at
least one digit; on any other string it reports failure and `z` holds `setStringFailed s`. -/
def setString (big : MathBig) (s : List UInt8) : ℤ :=
  (Decimal.parseInt s).getD (big.setStringFailed s)

def bytes (x : ℤ) : List UInt8 := Bytes.ofNat x.natAbs

/-- `x.Int64()`, read as the low 64 bits of `x` in two's complement. -/
def int64 (x : ℤ) : ℤ := Int.bmod x (2 ^ 64)

def addInt64 (a b : ℤ) : ℤ := Int.bmod (a + b) (2 ^ 64)

/-- A `MathBig` for concrete runs: the Bezout inverse for every input, and zero for every
rejected string, which is what Go 1.9 leaves for `""` and `"-"`. -/
def bezout : MathBig where
  modInverse g n := Int.gcdA g n % n
  modInverse_coprime _ _ _ _ _ := rfl
  setStringFailed _ := 0

/-- Go 1.7's `ModInverse` on a number that is not positive: `GCD` leaves `x = 0`, and so does
`ModInverse`. -/
def go17 : MathBig where
  modInverse g n := if 0 < g then Int.gcdA g n % n else 0
  modInverse_coprime g n nonneg positive coprime := by
    rcases nonneg.lt_or_eq with gPositive | rfl
    · exact if_pos gPositive
    · have one : n = 1 := by
        rw [Int.gcd_zero_left] at coprime
        omega
      subst one
      rw [if_neg (lt_irrefl 0), Int.emod_one]
  setStringFailed _ := 0

theorem exp_of_pos {m : ℤ} (positive : 0 < m) (x y : ℤ) : exp x y m = x ^ y.toNat % m := by
  rw [exp, Int.natAbs_of_nonneg positive.le]

theorem exp_nonneg {m : ℤ} (positive : 0 < m) (x y : ℤ) : 0 ≤ exp x y m := by
  rw [exp_of_pos positive]
  exact Int.emod_nonneg _ positive.ne'

@[simp] theorem setBytes_nonneg (buf : List UInt8) : 0 ≤ setBytes buf := Int.natCast_nonneg _

theorem bmod_int64 {x : ℤ} (low : -2 ^ 63 ≤ x) (high : x < 2 ^ 63) : Int.bmod x (2 ^ 64) = x := by
  have modulus : ((2 ^ 64 : ℕ) : ℤ) = 2 ^ 64 := by norm_num
  rw [Int.bmod_def, modulus]
  by_cases nonneg : 0 ≤ x
  · rw [Int.emod_eq_of_lt nonneg (by omega), if_pos (by omega)]
  · have shifted : x % 2 ^ 64 = x + 2 ^ 64 := by
      rw [← Int.add_emod_right, Int.emod_eq_of_lt (by omega) (by omega)]
    rw [shifted, if_neg (by omega)]
    omega

theorem bmod_int64_of_overflow {x : ℤ} (low : 2 ^ 63 ≤ x) (high : x < 2 ^ 64) :
    Int.bmod x (2 ^ 64) = x - 2 ^ 64 := by
  have modulus : ((2 ^ 64 : ℕ) : ℤ) = 2 ^ 64 := by norm_num
  rw [Int.bmod_def, modulus, Int.emod_eq_of_lt (by omega) high, if_neg (by omega)]

theorem int64_lt (x : ℤ) : int64 x < 2 ^ 63 := by
  have bound := Int.bmod_lt (x := x) (m := 2 ^ 64) (by positivity)
  rw [int64]
  omega

theorem addInt64_lt (a b : ℤ) : addInt64 a b < 2 ^ 63 := int64_lt (a + b)

theorem int64_of_lt {x : ℤ} (nonneg : 0 ≤ x) (small : x < 2 ^ 63) : int64 x = x :=
  bmod_int64 (by omega) small

theorem addInt64_of_lt {a b : ℤ} (low : -2 ^ 63 ≤ a + b) (high : a + b < 2 ^ 63) :
    addInt64 a b = a + b :=
  bmod_int64 low high

theorem addInt64_of_nonneg {a b : ℤ} (aNonneg : 0 ≤ a) (bNonneg : 0 ≤ b)
    (aSmall : a < 2 ^ 63) (bSmall : b < 2 ^ 63) : addInt64 a b = a + b ∨ addInt64 a b = a + b - 2 ^ 64 := by
  by_cases fits : a + b < 2 ^ 63
  · exact .inl (addInt64_of_lt (by omega) fits)
  · exact .inr (bmod_int64_of_overflow (by omega) (by omega))

theorem setString_ofInt (big : MathBig) (x : ℤ) : big.setString (Decimal.ofInt x) = x := by
  rw [setString, Decimal.parseInt_ofInt, Option.getD_some]

theorem bytes_of_nonneg {x : ℤ} (nonneg : 0 ≤ x) : bytes x = Bytes.ofNat x.toNat := by
  rw [bytes]
  congr 1
  omega

end MathBig

end ZkRangeProof.Go
