import Mathlib.Order.Basic
import Mathlib.Tactic.IntervalCases

/-! Decimal numerals as ASCII bytes: the digits `0` to `9` are the bytes 48 to 57, most
significant first, with an optional sign byte in front (`-` is 45, `+` is 43). `parseInt` reads
a numeral the way a conventional string-to-integer routine does, `ofInt` writes one, and reading
what was written gives the number back. -/

namespace Decimal

def isDigit (byte : UInt8) : Bool := 48 ≤ byte && byte ≤ 57

def value (digits : List UInt8) : ℕ :=
  digits.foldl (fun acc digit => 10 * acc + (digit.toNat - 48)) 0

/-- An unsigned numeral: at least one byte, and digits only. -/
def parseNat (digits : List UInt8) : Option ℕ :=
  if digits ≠ [] ∧ digits.all isDigit then some (value digits) else none

/-- A signed numeral: an optional `-` or `+`, then an unsigned numeral. -/
def parseInt : List UInt8 → Option ℤ
  | [] => none
  | sign :: digits =>
    if sign = 45 then (parseNat digits).map fun n : ℕ => -(n : ℤ)
    else if sign = 43 then (parseNat digits).map fun n : ℕ => (n : ℤ)
    else (parseNat (sign :: digits)).map fun n : ℕ => (n : ℤ)

def digit (d : ℕ) : UInt8 := UInt8.ofNat (d + 48)

/-- The decimal digits of `n`, most significant first; zero is written `0`. -/
def digits (n : ℕ) : List UInt8 :=
  if n < 10 then [digit n] else digits (n / 10) ++ [digit (n % 10)]
termination_by n
decreasing_by omega

/-- The decimal numeral of `x`, with a `-` in front when `x` is negative. -/
def ofInt (x : ℤ) : List UInt8 :=
  if x < 0 then 45 :: digits x.natAbs else digits x.natAbs

theorem value_append_digit (front : List UInt8) (byte : UInt8) :
    value (front ++ [byte]) = 10 * value front + (byte.toNat - 48) := by
  simp only [value, List.foldl_append, List.foldl_cons, List.foldl_nil]

theorem toNat_digit {d : ℕ} (small : d < 10) : (digit d).toNat = d + 48 := by
  interval_cases d <;> rfl

theorem isDigit_digit {d : ℕ} (small : d < 10) : isDigit (digit d) = true := by
  interval_cases d <;> rfl

theorem digits_ne_nil (n : ℕ) : digits n ≠ [] := by
  rw [digits]
  split <;> simp

theorem all_isDigit_digits (n : ℕ) : (digits n).all isDigit = true := by
  induction n using digits.induct with
  | case1 n small =>
    rw [digits, if_pos small]
    simp [isDigit_digit small]
  | case2 n large ih =>
    rw [digits, if_neg large]
    simp only [List.all_append, ih, List.all_cons, List.all_nil, Bool.and_true, Bool.true_and]
    exact isDigit_digit (Nat.mod_lt _ (by omega))

theorem value_digits (n : ℕ) : value (digits n) = n := by
  induction n using digits.induct with
  | case1 n small =>
    rw [digits, if_pos small]
    simp [value, toNat_digit small]
  | case2 n large ih =>
    rw [digits, if_neg large, value_append_digit, ih, toNat_digit (Nat.mod_lt _ (by omega))]
    omega

theorem parseNat_digits (n : ℕ) : parseNat (digits n) = some n := by
  rw [parseNat, if_pos ⟨digits_ne_nil n, all_isDigit_digits n⟩, value_digits]

theorem head_digits_ne_sign (n : ℕ) {first : UInt8} {rest : List UInt8}
    (written : digits n = first :: rest) : first ≠ 45 ∧ first ≠ 43 := by
  have firstDigit : isDigit first = true := by
    have all := all_isDigit_digits n
    rw [written, List.all_cons, Bool.and_eq_true] at all
    exact all.1
  constructor <;> (rintro rfl; exact absurd firstDigit (by decide))

theorem parseInt_ofInt (x : ℤ) : parseInt (ofInt x) = some x := by
  rw [ofInt]
  split
  · rename_i negative
    rw [parseInt, if_pos rfl, parseNat_digits, Option.map_some]
    congr 1
    omega
  · rename_i nonneg
    obtain ⟨first, rest, written⟩ := List.exists_cons_of_ne_nil (digits_ne_nil x.natAbs)
    obtain ⟨notMinus, notPlus⟩ := head_digits_ne_sign x.natAbs written
    rw [written, parseInt, if_neg notMinus, if_neg notPlus, ← written, parseNat_digits,
      Option.map_some]
    congr 1
    omega

theorem mem_ofInt {x : ℤ} {byte : UInt8} (member : byte ∈ ofInt x) :
    isDigit byte = true ∨ byte = 45 := by
  have digit_of_mem : byte ∈ digits x.natAbs → isDigit byte = true := fun inDigits =>
    List.all_eq_true.mp (all_isDigit_digits x.natAbs) byte inDigits
  rw [ofInt] at member
  split at member
  · rcases List.mem_cons.mp member with minus | inDigits
    · exact .inr minus
    · exact .inl (digit_of_mem inDigits)
  · exact .inl (digit_of_mem member)

end Decimal
