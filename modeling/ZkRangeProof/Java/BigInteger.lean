import ZkRangeProof.Library.Bytes
import ZkRangeProof.Library.ModularUnits

/-! The `java.math.BigInteger` operations the Java prover and verifier call, as the Java
SE documentation specifies them, with the exceptions they raise as values. A modulus
that is not positive, or an inverse of a number that is not relatively prime to the
modulus, raises `ArithmeticException`; `modPow` with a negative exponent inverts. -/

namespace ZkRangeProof.Java

/-- The exceptions the modelled Java code can raise. -/
inductive JavaException where
  /-- `java.lang.ArithmeticException`, from `mod`, `modInverse` and `modPow`. -/
  | arithmetic
  /-- `java.lang.IllegalArgumentException`, with its message where `src/` writes one. -/
  | illegalArgument (message : Option String)
  /-- `ZeroKnowledgeException(message, cause)`; the cause is the message of the wrapped one. -/
  | zeroKnowledge (message : String) (cause : Option String)
  deriving DecidableEq, Repr

namespace BigInteger

def mod (x m : ℤ) : Except JavaException ℤ :=
  if m ≤ 0 then throw .arithmetic else pure (x % m)

def modInverse (x m : ℤ) : Except JavaException ℤ :=
  if m ≤ 0 then throw .arithmetic
  else if Int.gcd x m = 1 then pure (Int.gcdA x m % m)
  else throw .arithmetic

/-- `x.modPow(e, m)`: for a negative exponent the power `x ^ |e|` is inverted, which needs
`x` relatively prime to `m`. -/
def modPow (x e m : ℤ) : Except JavaException ℤ :=
  if m ≤ 0 then throw .arithmetic
  else if 0 ≤ e then pure (x ^ e.toNat % m)
  else modInverse (x ^ e.natAbs % m) m

/-- `x.bitLength()`: the bits of the minimal two's-complement form, sign bit excluded. -/
def bitLength (x : ℤ) : ℕ :=
  if 0 ≤ x then Nat.size x.toNat else Nat.size (-x - 1).toNat

/-- `x.toByteArray()`: the `bitLength / 8 + 1` low bytes of the two's-complement form. -/
def toByteArray (x : ℤ) : List UInt8 :=
  Bytes.fixed (bitLength x / 8 + 1) (x % 256 ^ (bitLength x / 8 + 1)).toNat

def ofByteArray (bytes : List UInt8) : ℤ := Bytes.signed bytes

example : toByteArray (-128) = [128] := by decide

example : toByteArray 128 = [0, 128] := by decide

theorem size_div_eight_eq {n k : ℕ} (upper : n < 128 * 256 ^ k)
    (lower : k = 0 ∨ 128 * 256 ^ (k - 1) ≤ n) : n.size / 8 = k := by
  have powers (e : ℕ) : 256 ^ e = 2 ^ (8 * e) := by rw [pow_mul]; norm_num
  have atMost : n.size ≤ 8 * k + 7 := by
    rw [Nat.size_le, pow_add, ← powers]
    omega
  have atLeast : 8 * k ≤ n.size := by
    rcases k with _ | j
    · omega
    · rcases lower with zero | reached
      · omega
      · have full : 8 * j + 7 < n.size := by
          rw [Nat.lt_size, pow_add, ← powers]
          norm_num at reached ⊢
          omega
        omega
  omega

theorem bitLength_div_eight {x : ℤ} {k : ℕ}
    (fits : -(128 * 256 ^ k) ≤ x ∧ x < 128 * 256 ^ k)
    (least : k = 0 ∨ ¬(-(128 * 256 ^ (k - 1)) ≤ x ∧ x < 128 * 256 ^ (k - 1))) :
    bitLength x / 8 = k := by
  have cast (e : ℕ) : ((128 * 256 ^ e : ℕ) : ℤ) = 128 * 256 ^ e := by push_cast; rfl
  have castLow := cast (k - 1)
  have castHigh := cast k
  have positive : (0 : ℤ) < 128 * 256 ^ (k - 1) := by positivity
  rw [bitLength]
  split
  · rename_i nonneg
    apply size_div_eight_eq (by omega)
    rcases least with zero | outside
    · exact .inl zero
    · exact .inr (by omega)
  · rename_i negative
    apply size_div_eight_eq (by omega)
    rcases least with zero | outside
    · exact .inl zero
    · exact .inr (by omega)

/-- On an array with no redundant sign byte, `new BigInteger(bytes).toByteArray()` gives the
array back. -/
theorem toByteArray_ofByteArray {bytes : List UInt8} (minimal : Bytes.minimal bytes = true) :
    toByteArray (ofByteArray bytes) = bytes := by
  have nonempty : bytes ≠ [] := by
    rintro rfl
    cases minimal
  have fits := Bytes.signed_bounds nonempty
  have least : bytes.length - 1 = 0 ∨
      ¬(-(128 * 256 ^ (bytes.length - 1 - 1)) ≤ Bytes.signed bytes ∧
        Bytes.signed bytes < 128 * 256 ^ (bytes.length - 1 - 1)) := by
    match bytes, minimal with
    | [_], _ => exact .inl rfl
    | first :: second :: rest, minimal =>
      right
      rw [show (first :: second :: rest).length - 1 - 1 = rest.length by simp,
        Bytes.fits_shorter_iff, minimal]
      simp
  have positive := List.length_pos_iff.mpr nonempty
  rw [toByteArray, ofByteArray, bitLength_div_eight fits least, Nat.sub_add_cancel positive,
    Bytes.toNat_emod_signed nonempty, Bytes.fixed_length_value]

section Spec

variable {x e m : ℤ}

theorem mod_of_pos (positive : 0 < m) : mod x m = .ok (x % m) := by
  rw [mod, if_neg (not_le.mpr positive)]
  rfl

theorem modInverse_of_coprime (positive : 0 < m) (coprime : IsCoprime x m) :
    modInverse x m = .ok (Int.gcdA x m % m) := by
  rw [Int.isCoprime_iff_gcd_eq_one] at coprime
  rw [modInverse, if_neg (not_le.mpr positive), if_pos coprime]
  rfl

theorem modInverse_of_not_coprime (shared : ¬ IsCoprime x m) :
    modInverse x m = .error .arithmetic := by
  rw [Int.isCoprime_iff_gcd_eq_one] at shared
  by_cases negative : m ≤ 0
  · rw [modInverse, if_pos negative]
    rfl
  · rw [modInverse, if_neg negative, if_neg shared]
    rfl

theorem modPow_of_nonneg (positive : 0 < m) (nonneg : 0 ≤ e) :
    modPow x e m = .ok (x ^ e.toNat % m) := by
  rw [modPow, if_neg (not_le.mpr positive), if_pos nonneg]
  rfl

theorem modPow_of_neg (positive : 0 < m) (negative : e < 0) :
    modPow x e m = modInverse (x ^ e.natAbs % m) m := by
  rw [modPow, if_neg (not_le.mpr positive), if_neg (not_le.mpr negative)]

theorem mod_nonneg {v : ℤ} (ok : mod x m = .ok v) : 0 ≤ v := by
  unfold mod at ok
  split at ok
  · cases ok
  · cases ok
    exact Int.emod_nonneg _ (by omega)

theorem modInverse_nonneg {v : ℤ} (ok : modInverse x m = .ok v) : 0 ≤ v := by
  unfold modInverse at ok
  split at ok
  · cases ok
  · split at ok
    · cases ok
      exact Int.emod_nonneg _ (by omega)
    · cases ok

theorem modPow_nonneg {v : ℤ} (ok : modPow x e m = .ok v) : 0 ≤ v := by
  unfold modPow at ok
  split at ok
  · cases ok
  · split at ok
    · cases ok
      exact Int.emod_nonneg _ (by omega)
    · exact modInverse_nonneg ok

end Spec

/-! ### Residues of a unit

With the modulus a natural number `n > 0` and `x` naming the unit `u` of `ZMod n`, every
call returns the canonical representative of the corresponding unit expression. -/

section Units

open ModularUnits

variable {n : ℕ} [NeZero n] {x : ℤ} {u : (ZMod n)ˣ}

theorem mod_rep (x : ℤ) : mod x n = .ok (rep (x : ZMod n)) := by
  rw [mod_of_pos (by exact_mod_cast Nat.pos_of_ne_zero (NeZero.ne n)), emod_eq_rep rfl]

theorem mod_unit (named : (x : ZMod n) = u) : mod x n = .ok (rep (u : ZMod n)) := by
  rw [mod_rep, named]

theorem modInverse_unit (named : (x : ZMod n) = u) :
    modInverse x n = .ok (rep (↑u⁻¹ : ZMod n)) := by
  have coprime := isCoprime_of_named named
  have positive : (0 : ℤ) < n := by exact_mod_cast Nat.pos_of_ne_zero (NeZero.ne n)
  rw [modInverse_of_coprime positive coprime]
  congr 1
  apply emod_eq_rep
  exact intCast_gcdA_eq_inv named (Int.isCoprime_iff_gcd_eq_one.mp coprime)

/-- `modPow` on a unit is the unit's integer power. -/
theorem modPow_unit (named : (x : ZMod n) = u) (e : ℤ) :
    modPow x e n = .ok (rep (↑(u ^ e) : ZMod n)) := by
  have coprime := isCoprime_of_named named
  have positive : (0 : ℤ) < n := by exact_mod_cast Nat.pos_of_ne_zero (NeZero.ne n)
  rcases le_or_gt 0 e with nonneg | negative
  · rw [modPow_of_nonneg positive nonneg, zpow_of_nonneg nonneg]
    congr 1
    exact emod_eq_rep (intCast_pow named e.toNat)
  · rw [modPow_of_neg positive negative, zpow_of_neg negative, modInverse_of_coprime positive
      (by rw [Int.isCoprime_iff_gcd_eq_one]; exact gcd_pow_emod_eq_one coprime _)]
    congr 1
    apply emod_eq_rep
    exact intCast_gcdA_eq_inv (intCast_pow_emod named _) (gcd_pow_emod_eq_one coprime _)

end Units

end BigInteger

end ZkRangeProof.Java
