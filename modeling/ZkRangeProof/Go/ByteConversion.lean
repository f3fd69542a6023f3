import ZkRangeProof.Go.MathBig
import ZkRangeProof.Java.BigInteger
import ZkRangeProof.Library.ExceptSeq

/-! The Go package `byteconversion`: `FlipBytes`, `ToByteArray` and `FromByteArray`, which
rebuild Java's two's-complement byte arrays from the magnitude bytes `math/big` works with.
`FromByteArray` decodes every non-empty array (`fromByteArray_cons`) and inverts
`ToByteArray` (`signed_toByteArray`). `ToByteArray` agrees with Java's `toByteArray` on every
non-negative number and on every negative one but those of the form `-2 ^ (8k - 1)`, where it
keeps a redundant sign byte (`toByteArray_eq_java_iff`); so it gives back every decoded array
with no redundant sign byte except `[128, 0, …, 0]` (`toByteArray_fromByteArray`). -/

namespace ZkRangeProof.Go

namespace ByteConversion

open MathBig

/-- `FlipBytes(bytesIn)`: every byte complemented. -/
def flipBytes (bytesIn : List UInt8) : List UInt8 := bytesIn.map (· ^^^ 255)

/-- `ToByteArray(in)`. A non-negative number gets a leading zero byte when its magnitude has
the top bit set; a negative one is the flipped magnitude, behind a `255` byte in the same
case, plus one. -/
def toByteArray (input : ℤ) : List UInt8 :=
  let isNegative := input < 0
  let bytes := MathBig.bytes input
  match bytes with
  | [] => [0]
  | highestByte :: _ =>
    if ¬isNegative then
      if highestByte &&& 128 ≠ 0 then 0 :: bytes else bytes
    else
      let convertedBytes :=
        if highestByte &&& 128 ≠ 0 then 255 :: flipBytes bytes else flipBytes bytes
      MathBig.bytes (setBytes convertedBytes + 1)

/-- `FromByteArray(bytesIn)`. A negative array is decremented, stripped of leading zeros by
`Bytes()`, flipped, and read as the magnitude; a leading `255` of the decremented bytes is
dropped after flipping. -/
def fromByteArray (bytesIn : List UInt8) : Except Failure ℤ :=
  match bytesIn with
  | [] => throw (.error "Cannot convert empty array to big.Int.")
  | highestByte :: _ =>
    let isNegative := highestByte &&& 128 ≠ 0
    if isNegative then
      let tmpBytes := MathBig.bytes (setBytes bytesIn - 1)
      match tmpBytes with
      -- `tmpBytes[0]` on an empty slice; the decremented value is at least 127
      | [] => throw (.panic "runtime error: index out of range")
      | top :: _ =>
        let convertedBytes := if top = 255 then (flipBytes tmpBytes).drop 1 else flipBytes tmpBytes
        pure (setBytes convertedBytes * -1)
    else pure (setBytes bytesIn)

example : toByteArray 128 = [0, 128] := by decide

example : toByteArray (-129) = [255, 127] := by decide

example : fromByteArray [255, 127] = .ok (-129) := by decide

/-! ### The bytes of a magnitude -/

section Magnitude

variable {input : ℤ} {highestByte : UInt8} {rest : List UInt8}

theorem bytes_bounds (split : MathBig.bytes input = highestByte :: rest) :
    Bytes.value (highestByte :: rest) = input.natAbs ∧
      256 ^ rest.length ≤ input.natAbs ∧ input.natAbs < 256 * 256 ^ rest.length ∧
      (highestByte &&& 128 ≠ 0 ↔ 128 * 256 ^ rest.length ≤ input.natAbs) := by
  have nonzero : input.natAbs ≠ 0 := by
    intro zero
    rw [MathBig.bytes, zero, Bytes.ofNat_zero] at split
    cases split
  have valueEq : Bytes.value (highestByte :: rest) = input.natAbs := by
    rw [← split, MathBig.bytes, Bytes.value_ofNat]
  have lower := Bytes.pow_length_ofNat_le nonzero
  have upper := Bytes.lt_pow_length_ofNat input.natAbs
  rw [← MathBig.bytes, split, List.length_cons, Nat.add_sub_cancel] at lower
  rw [← MathBig.bytes, split, List.length_cons, pow_succ'] at upper
  refine ⟨valueEq, lower, upper, ?_⟩
  rw [Bytes.and_128_ne_zero_iff, Bytes.le_head_iff, valueEq]

theorem bytes_eq_nil_iff : MathBig.bytes input = [] ↔ input = 0 := by
  rw [MathBig.bytes, Bytes.ofNat_eq_nil, Int.natAbs_eq_zero]

theorem exists_bytes_eq_cons (nonzero : input ≠ 0) :
    ∃ first rest, MathBig.bytes input = first :: rest := by
  cases bytesEq : MathBig.bytes input with
  | nil => exact absurd (bytes_eq_nil_iff.mp bytesEq) nonzero
  | cons first rest => exact ⟨first, rest, rfl⟩

end Magnitude

/-! ### `ToByteArray` writes the number's two's complement -/

theorem signed_toByteArray_of_neg {input : ℤ} (negative : input < 0) :
    Bytes.signed (toByteArray input) = input := by
  dsimp only [toByteArray]
  split
  · rename_i empty
    exact absurd (bytes_eq_nil_iff.mp empty) negative.ne
  · rename_i highestByte rest split
    obtain ⟨magnitude, lower, upper, high⟩ := bytes_bounds split
    have flipped := Bytes.value_complement (highestByte :: rest)
    rw [List.length_cons, magnitude] at flipped
    have powSucc : 256 ^ (rest.length + 1) = 256 * 256 ^ rest.length := pow_succ' _ _
    have negated : input = -(input.natAbs : ℤ) := by omega
    rw [split]
    simp only [negative, not_true_eq_false, if_false, MathBig.bytes, setBytes]
    split
    · -- a sign byte in front: `255 * 256 ^ k + (256 ^ k - 1 - |input|) + 1`
      rename_i topBit
      have valueEq : ((Bytes.value (255 :: flipBytes (highestByte :: rest)) : ℤ) + 1).natAbs =
          256 ^ (rest.length + 2) - input.natAbs := by
        rw [Bytes.value_cons, flipBytes, List.length_map, flipped, List.length_cons,
          show rest.length + 2 = rest.length + 1 + 1 by rfl, pow_succ' 256 (rest.length + 1)]
        simp only [UInt8.reduceToNat]
        omega
      rw [valueEq, Bytes.signed_ofNat_complement (by omega) (by omega) (by
        rw [show rest.length + 2 - 1 = rest.length + 1 by rfl]; omega), ← negated]
    · -- no sign byte: `256 ^ k - 1 - |input| + 1`, below half the range
      rename_i topBit
      have valueEq : ((Bytes.value (flipBytes (highestByte :: rest)) : ℤ) + 1).natAbs =
          256 ^ (rest.length + 1) - input.natAbs := by
        rw [flipBytes, flipped]
        omega
      rw [valueEq, Bytes.signed_ofNat_complement (by omega) (by omega) (by
        rw [Nat.add_sub_cancel]; rw [high] at topBit; omega), ← negated]

theorem signed_toByteArray_of_nonneg {input : ℤ} (nonneg : 0 ≤ input) :
    Bytes.signed (toByteArray input) = input := by
  dsimp only [toByteArray]
  split
  · rename_i empty
    rw [bytes_eq_nil_iff.mp empty]
    rfl
  · rename_i highestByte rest split
    obtain ⟨magnitude, lower, upper, high⟩ := bytes_bounds split
    rw [split]
    simp only [not_lt.mpr nonneg, not_false_eq_true, if_true]
    split
    · -- a leading zero byte keeps the top bit clear
      simp only [Bytes.signed, Bytes.value_cons, magnitude, UInt8.reduceToNat, zero_mul,
        zero_add, Nat.reduceLeDiff, if_false, sub_zero]
      omega
    · rename_i topBit
      rw [high] at topBit
      rw [Bytes.signed_eq (List.cons_ne_nil _ _), magnitude, List.length_cons,
        Nat.add_sub_cancel, if_neg topBit]
      omega

/-- `ToByteArray` gives every integer its value: `Bytes.signed` reads back `input`. -/
theorem signed_toByteArray (input : ℤ) : Bytes.signed (toByteArray input) = input := by
  rcases lt_or_ge input 0 with negative | nonneg
  · exact signed_toByteArray_of_neg negative
  · exact signed_toByteArray_of_nonneg nonneg

/-! ### Java's `toByteArray` on non-negative numbers -/

theorem size_div_eight {n k : ℕ} (lower : 256 ^ k ≤ n) (upper : n < 256 * 256 ^ k) :
    n.size / 8 = if 128 * 256 ^ k ≤ n then k + 1 else k := by
  have powers (e : ℕ) : 256 ^ e = 2 ^ (8 * e) := by rw [pow_mul]; norm_num
  have atMost : n.size ≤ 8 * k + 8 := by
    rw [Nat.size_le, show 8 * k + 8 = 8 * (k + 1) by ring, ← powers, pow_succ']; exact upper
  have above : 8 * k < n.size := by
    rw [Nat.lt_size, ← powers]; exact lower
  split
  · rename_i high
    have full : 8 * k + 7 < n.size := by
      rw [Nat.lt_size, pow_add, ← powers]; omega
    omega
  · rename_i low
    have short : n.size ≤ 8 * k + 7 := by
      rw [Nat.size_le, pow_add, ← powers]; omega
    omega

theorem toByteArray_of_nonneg {input : ℤ} (nonneg : 0 ≤ input) :
    toByteArray input = Java.BigInteger.toByteArray input := by
  rcases nonneg.eq_or_lt with zero | positive
  · subst zero; decide
  obtain ⟨highestByte, rest, split⟩ : ∃ first rest, MathBig.bytes input = first :: rest := by
    cases bytesEq : MathBig.bytes input with
    | nil => exact absurd (bytes_eq_nil_iff.mp bytesEq) positive.ne'
    | cons first rest => exact ⟨first, rest, rfl⟩
  obtain ⟨magnitude, lower, upper, high⟩ := bytes_bounds split
  have sizeEq := size_div_eight lower upper
  have bitLengthEq : Java.BigInteger.bitLength input = input.natAbs.size := by
    rw [Java.BigInteger.bitLength, if_pos nonneg]
    congr 1; omega
  have agrees (go : List UInt8) (width : ℕ) (widthEq : input.natAbs.size / 8 + 1 = width)
      (holds : input.natAbs < 256 ^ width) (goLength : go.length = width)
      (goValue : Bytes.value go = input.natAbs) : go = Java.BigInteger.toByteArray input := by
    have below : input < ((256 ^ width : ℕ) : ℤ) := by omega
    push_cast at below
    apply Bytes.eq_of_value_eq
    · rw [Java.BigInteger.toByteArray, Bytes.length_fixed, bitLengthEq, widthEq, goLength]
    · rw [Java.BigInteger.toByteArray, Bytes.value_fixed, bitLengthEq, widthEq,
        Int.emod_eq_of_lt nonneg below, goValue, Nat.mod_eq_of_lt (by omega)]
      omega
  dsimp only [toByteArray]
  rw [split]
  simp only [not_lt.mpr nonneg, not_false_eq_true, if_true]
  by_cases topBit : 128 * 256 ^ rest.length ≤ input.natAbs
  · -- a leading zero byte: `rest.length + 2` bytes
    rw [if_pos (high.mpr topBit)]
    rw [if_pos topBit] at sizeEq
    apply agrees _ (rest.length + 2) (by omega) (by rw [pow_succ, pow_succ]; omega) rfl
    rw [Bytes.value_cons, magnitude]
    simp
  · rw [if_neg (mt high.mp topBit)]
    rw [if_neg topBit] at sizeEq
    exact agrees _ (rest.length + 1) (by omega) (by rw [pow_succ]; omega) rfl magnitude

/-- The redundant sign byte: for `-128` Go writes two bytes where Java writes one. -/
theorem toByteArray_neg_128_not_minimal :
    toByteArray (-128) = [255, 128] ∧ Java.BigInteger.toByteArray (-128) = [128] := by
  constructor <;> decide

/-! ### Negative numbers: one byte too many at `-(128 * 256 ^ k)`

Java writes `-|x|` in the fewest bytes whose sign bit can carry it, `(bitLength / 8) + 1`, that
is the width in which `256 ^ width - |x|` reaches half the range. Go adds the sign byte `255`
whenever the magnitude's first byte has its top bit set, which also takes in the magnitude
`128 * 256 ^ k` itself, the one case where Java's shorter width already suffices. -/

theorem size_pred_div_eight {a k : ℕ} (lower : 256 ^ k ≤ a) (upper : a < 256 * 256 ^ k) :
    (a - 1).size / 8 = if 128 * 256 ^ k < a then k + 1 else k := by
  split
  · rename_i high
    apply Java.BigInteger.size_div_eight_eq (by rw [pow_succ']; omega)
    exact .inr (by rw [Nat.add_sub_cancel]; omega)
  · apply Java.BigInteger.size_div_eight_eq (by omega)
    rcases k with _ | j
    · exact .inl rfl
    · have positive : 0 < 256 ^ j := by positivity
      rw [pow_succ] at lower
      exact .inr (by rw [Nat.add_sub_cancel]; omega)

section Negative

variable {input : ℤ} {highestByte : UInt8} {rest : List UInt8}

/-- `ToByteArray` of a negative number is `256 ^ width - |input|` in `width` bytes, one more
than the magnitude's when its top bit is set and the magnitude's own count otherwise. -/
theorem toByteArray_of_neg (negative : input < 0)
    (split : MathBig.bytes input = highestByte :: rest) :
    toByteArray input =
      let width :=
        if 128 * 256 ^ rest.length ≤ input.natAbs then rest.length + 2 else rest.length + 1
      Bytes.fixed width (256 ^ width - input.natAbs) := by
  obtain ⟨magnitude, lower, upper, high⟩ := bytes_bounds split
  have flipped := Bytes.value_complement (highestByte :: rest)
  rw [List.length_cons, magnitude] at flipped
  have powSucc : 256 ^ (rest.length + 1) = 256 * 256 ^ rest.length := pow_succ' _ _
  dsimp only [toByteArray]
  rw [split]
  simp only [negative, not_true_eq_false, if_false, MathBig.bytes, setBytes]
  split
  · rename_i topBit
    rw [high] at topBit
    have valueEq : ((Bytes.value (255 :: flipBytes (highestByte :: rest)) : ℤ) + 1).natAbs =
        256 ^ (rest.length + 2) - input.natAbs := by
      rw [Bytes.value_cons, flipBytes, List.length_map, flipped, List.length_cons,
        show rest.length + 2 = rest.length + 1 + 1 by rfl, pow_succ' 256 (rest.length + 1)]
      simp only [UInt8.reduceToNat]
      omega
    have powSucc' : 256 ^ (rest.length + 2) = 256 * 256 ^ (rest.length + 1) := pow_succ' _ _
    rw [if_pos topBit, valueEq]
    exact Bytes.ofNat_eq_fixed (by omega)
      (by rw [show rest.length + 2 - 1 = rest.length + 1 by rfl]; omega)
      (by omega)
  · rename_i topBit
    rw [high] at topBit
    have valueEq : ((Bytes.value (flipBytes (highestByte :: rest)) : ℤ) + 1).natAbs =
        256 ^ (rest.length + 1) - input.natAbs := by
      rw [flipBytes, flipped]
      omega
    rw [if_neg topBit, valueEq]
    exact Bytes.ofNat_eq_fixed (by omega) (by rw [Nat.add_sub_cancel]; omega) (by omega)

theorem toNat_emod_of_neg (negative : input < 0) {width : ℕ}
    (fits : input.natAbs ≤ 256 ^ width) :
    (input % 256 ^ width).toNat = 256 ^ width - input.natAbs := by
  have cast : ((256 ^ width : ℕ) : ℤ) = 256 ^ width := by push_cast; rfl
  rw [← cast, Int.emod_eq_add_self_emod, Int.emod_eq_of_lt (by omega) (by omega)]
  omega

/-- Java's `toByteArray` of a negative number: the same form, one byte more than the
magnitude's only when the magnitude passes `128 * 256 ^ k`. -/
theorem java_toByteArray_of_neg (negative : input < 0)
    (split : MathBig.bytes input = highestByte :: rest) :
    Java.BigInteger.toByteArray input =
      let width :=
        if 128 * 256 ^ rest.length < input.natAbs then rest.length + 2 else rest.length + 1
      Bytes.fixed width (256 ^ width - input.natAbs) := by
  obtain ⟨magnitude, lower, upper, high⟩ := bytes_bounds split
  have powSucc : 256 ^ (rest.length + 1) = 256 * 256 ^ rest.length := pow_succ' _ _
  have bitLengthEq : Java.BigInteger.bitLength input = (input.natAbs - 1).size := by
    rw [Java.BigInteger.bitLength, if_neg (by omega)]
    congr 1; omega
  rw [Java.BigInteger.toByteArray, bitLengthEq, size_pred_div_eight lower upper]
  by_cases long : 128 * 256 ^ rest.length < input.natAbs
  · have powSucc' : 256 ^ (rest.length + 2) = 256 * 256 ^ (rest.length + 1) := pow_succ' _ _
    simp only [if_pos long]
    rw [toNat_emod_of_neg negative (by omega)]
  · simp only [if_neg long]
    rw [toNat_emod_of_neg negative (by omega)]

theorem natAbs_of_sign_power {j : ℕ} (split : MathBig.bytes input = highestByte :: rest)
    (edge : input = -(128 * 256 ^ j)) : input.natAbs = 128 * 256 ^ rest.length := by
  obtain ⟨-, lower, upper, -⟩ := bytes_bounds split
  have magnitude : input.natAbs = 128 * 256 ^ j := by
    rw [edge, Int.natAbs_neg]
    norm_cast
  rw [magnitude] at lower upper ⊢
  rcases lt_trichotomy rest.length j with fewer | same | more
  · have := Nat.pow_le_pow_right (by norm_num : 0 < 256) (fewer : rest.length + 1 ≤ j)
    rw [pow_succ'] at this
    omega
  · rw [same]
  · have := Nat.pow_le_pow_right (by norm_num : 0 < 256) (more : j + 1 ≤ rest.length)
    rw [pow_succ'] at this
    omega

theorem toByteArray_of_neg_of_ne (negative : input < 0)
    (split : MathBig.bytes input = highestByte :: rest)
    (inner : input.natAbs ≠ 128 * 256 ^ rest.length) :
    toByteArray input = Java.BigInteger.toByteArray input := by
  rw [toByteArray_of_neg negative split, java_toByteArray_of_neg negative split]
  by_cases long : 128 * 256 ^ rest.length < input.natAbs
  · simp only [if_pos long, if_pos long.le]
  · simp only [if_neg long, if_neg (show ¬128 * 256 ^ rest.length ≤ input.natAbs by omega)]

theorem toByteArray_of_sign_power (negative : input < 0)
    (split : MathBig.bytes input = highestByte :: rest)
    (edge : input.natAbs = 128 * 256 ^ rest.length) :
    toByteArray input = 255 :: Java.BigInteger.toByteArray input := by
  rw [toByteArray_of_neg negative split, java_toByteArray_of_neg negative split]
  simp only [if_pos edge.ge, if_neg edge.not_gt]
  have powSucc : 256 ^ (rest.length + 1) = 256 * 256 ^ rest.length := pow_succ' _ _
  have powSucc' : 256 ^ (rest.length + 2) = 256 * 256 ^ (rest.length + 1) := pow_succ' _ _
  apply Bytes.eq_of_value_eq
  · simp
  · rw [Bytes.value_cons, Bytes.value_fixed, Bytes.value_fixed, Bytes.length_fixed,
      Nat.mod_eq_of_lt (by omega), Nat.mod_eq_of_lt (by omega)]
    simp only [UInt8.reduceToNat]
    omega

end Negative

theorem sign_power_neg (k : ℕ) : -(128 * 256 ^ k : ℤ) < 0 := by
  have : (0 : ℤ) < 256 ^ k := by positivity
  omega

/-- Off the values `-(128 * 256 ^ k)`, `ToByteArray` is Java's `toByteArray`. -/
theorem toByteArray_of_ne_sign_power {input : ℤ} (inner : ∀ k : ℕ, input ≠ -(128 * 256 ^ k)) :
    toByteArray input = Java.BigInteger.toByteArray input := by
  rcases lt_or_ge input 0 with negative | nonneg
  · obtain ⟨highestByte, rest, split⟩ := exists_bytes_eq_cons negative.ne
    apply toByteArray_of_neg_of_ne negative split
    intro edge
    have cast : ((128 * 256 ^ rest.length : ℕ) : ℤ) = 128 * 256 ^ rest.length := by push_cast; rfl
    exact inner rest.length (by omega)
  · exact toByteArray_of_nonneg nonneg

/-- At `-(128 * 256 ^ k)`, `ToByteArray` writes Java's bytes behind a sign byte `255`. -/
theorem toByteArray_sign_power (k : ℕ) :
    toByteArray (-(128 * 256 ^ k)) = 255 :: Java.BigInteger.toByteArray (-(128 * 256 ^ k)) := by
  have negative := sign_power_neg k
  obtain ⟨highestByte, rest, split⟩ := exists_bytes_eq_cons negative.ne
  exact toByteArray_of_sign_power negative split (natAbs_of_sign_power split rfl)

/-- `ToByteArray` is Java's `toByteArray` on every integer but `-(128 * 256 ^ k)`, where it
writes Java's bytes behind a redundant sign byte `255`. -/
theorem toByteArray_eq_java_iff (input : ℤ) :
    (toByteArray input = Java.BigInteger.toByteArray input ↔
        ∀ k : ℕ, input ≠ -(128 * 256 ^ k)) ∧
      ∀ k : ℕ, input = -(128 * 256 ^ k) →
        toByteArray input = 255 :: Java.BigInteger.toByteArray input := by
  refine ⟨⟨?_, toByteArray_of_ne_sign_power⟩, ?_⟩
  · rintro same k rfl
    rw [toByteArray_sign_power] at same
    exact List.ne_cons_self same.symm
  · rintro k rfl
    exact toByteArray_sign_power k

/-- At `-32768`, two bytes for Java and three for Go. -/
theorem toByteArray_eq_java_iff_neg_32768 :
    toByteArray (-(128 * 256 ^ 1)) = 255 :: Java.BigInteger.toByteArray (-(128 * 256 ^ 1)) :=
  (toByteArray_eq_java_iff (-(128 * 256 ^ 1))).2 1 rfl

/-! ### `FromByteArray` reads two's complement -/

theorem value_drop_flipBytes {top : UInt8} {rest : List UInt8} (full : top = 255) :
    Bytes.value ((flipBytes (top :: rest)).drop 1) = Bytes.value (flipBytes (top :: rest)) := by
  subst full
  simp [flipBytes, Bytes.value_cons]

/-- `FromByteArray` decodes every non-empty array to its two's-complement value, the value
`new BigInteger(bytes)` gives in Java. -/
theorem fromByteArray_cons (first : UInt8) (rest : List UInt8) :
    fromByteArray (first :: rest) = .ok (Bytes.signed (first :: rest)) := by
  have below := Bytes.value_lt (first :: rest)
  rw [List.length_cons, pow_succ] at below
  unfold fromByteArray
  simp only
  split
  · rename_i topBit
    rw [Bytes.and_128_ne_zero_iff, Bytes.le_head_iff] at topBit
    set whole := Bytes.value (first :: rest) with wholeDef
    have lengthEq : (Bytes.ofNat (whole - 1)).length = rest.length + 1 :=
      Bytes.length_ofNat (by omega) (by rw [Nat.add_sub_cancel]; omega) (by rw [pow_succ]; omega)
    have decremented : MathBig.bytes (setBytes (first :: rest) - 1) = Bytes.ofNat (whole - 1) := by
      rw [MathBig.bytes, setBytes]
      congr 1
      omega
    have flippedValue : Bytes.value (flipBytes (Bytes.ofNat (whole - 1))) =
        256 ^ (rest.length + 1) - whole := by
      rw [flipBytes, Bytes.value_complement, lengthEq, Bytes.value_ofNat, pow_succ]
      omega
    rw [decremented]
    split
    · rename_i empty
      rw [empty] at lengthEq
      cases lengthEq
    · rename_i top tail split
      have converted : Bytes.value (if top = 255 then (flipBytes (Bytes.ofNat (whole - 1))).drop 1
          else flipBytes (Bytes.ofNat (whole - 1))) = 256 ^ (rest.length + 1) - whole := by
        split
        · rw [split, value_drop_flipBytes ‹_›, ← split, flippedValue]
        · exact flippedValue
      rw [setBytes, converted, ExceptSeq.pure_eq_ok, Bytes.signed_eq (List.cons_ne_nil _ _),
        List.length_cons, Nat.add_sub_cancel, if_pos topBit,
        Nat.cast_sub (show whole ≤ 256 ^ (rest.length + 1) by rw [pow_succ]; omega), ← wholeDef]
      congr 1
      push_cast
      ring
  · rename_i topBit
    rw [Bytes.and_128_ne_zero_iff, Bytes.le_head_iff] at topBit
    rw [Bytes.signed_eq (List.cons_ne_nil _ _), List.length_cons, Nat.add_sub_cancel,
      if_neg topBit, setBytes, ExceptSeq.pure_eq_ok, sub_zero]

theorem toByteArray_ne_nil (input : ℤ) : toByteArray input ≠ [] := by
  intro empty
  have zero : input = 0 := by rw [← signed_toByteArray input, empty]; rfl
  rw [zero] at empty
  cases empty

/-- `FromByteArray` is the decoder of Java's `new BigInteger(bytes)`: every non-empty array
decodes to its two's-complement value, the empty one is the only error, and it inverts
`ToByteArray` on every integer. -/
theorem fromByteArray_twosComplement (first : UInt8) (rest : List UInt8) (x : ℤ) :
    fromByteArray (first :: rest) = .ok (Java.BigInteger.ofByteArray (first :: rest)) ∧
      fromByteArray [] = .error (.error "Cannot convert empty array to big.Int.") ∧
      fromByteArray (toByteArray x) = .ok x := by
  refine ⟨fromByteArray_cons first rest, rfl, ?_⟩
  obtain ⟨head, tail, encoded⟩ := List.exists_cons_of_ne_nil (toByteArray_ne_nil x)
  rw [encoded, fromByteArray_cons, ← encoded, signed_toByteArray]

/-- Decoding then encoding gives back every array with no redundant sign byte: Java's
`toByteArray` always, Go's `ToByteArray` except at `-(128 * 256 ^ k)`, where it writes the
array behind a redundant `255`. -/
theorem toByteArray_fromByteArray {bytes : List UInt8} (minimal : Bytes.minimal bytes = true) :
    fromByteArray bytes = .ok (Java.BigInteger.ofByteArray bytes) ∧
      Java.BigInteger.toByteArray (Java.BigInteger.ofByteArray bytes) = bytes ∧
      ((∀ k : ℕ, Java.BigInteger.ofByteArray bytes ≠ -(128 * 256 ^ k)) →
        toByteArray (Java.BigInteger.ofByteArray bytes) = bytes) ∧
      ∀ k : ℕ, Java.BigInteger.ofByteArray bytes = -(128 * 256 ^ k) →
        toByteArray (Java.BigInteger.ofByteArray bytes) = 255 :: bytes := by
  obtain ⟨first, rest, rfl⟩ : ∃ first rest, bytes = first :: rest := by
    cases bytes with
    | nil => cases minimal
    | cons first rest => exact ⟨first, rest, rfl⟩
  have java := Java.BigInteger.toByteArray_ofByteArray minimal
  refine ⟨fromByteArray_cons first rest, java, fun inner => ?_, fun k edge => ?_⟩
  · rw [toByteArray_of_ne_sign_power inner, java]
  · rw [edge, toByteArray_sign_power, ← edge, java]

/-- `[128]` is `-128 = -(128 * 256 ^ 0)`: Java writes it back as `[128]`, Go as `[255, 128]`. -/
theorem toByteArray_fromByteArray_neg_128 :
    fromByteArray [128] = .ok (-128) ∧ Java.BigInteger.toByteArray (-128) = [128] ∧
      toByteArray (-128) = [255, 128] := by
  have value : Java.BigInteger.ofByteArray [128] = -(128 * 256 ^ 0) := by decide
  obtain ⟨decoded, java, -, signByte⟩ := @toByteArray_fromByteArray [128] (by decide)
  rw [value] at decoded java signByte
  exact ⟨decoded, java, signByte 0 rfl⟩

end ByteConversion

end ZkRangeProof.Go
