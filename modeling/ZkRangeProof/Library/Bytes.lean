import Mathlib.Data.Nat.Size
import Mathlib.Tactic.Ring
import Mathlib.Tactic.Linarith

/-! Big-endian byte strings read as numbers: the unsigned value, the minimal unsigned
encoding, fixed-width encodings, and the two's-complement reading, whose minimal strings carry
no redundant sign byte. Two strings of equal length are equal exactly when their values are,
which is how encodings are compared. The words and padded arguments of the Solidity ABI are
built from the fixed-width encoding. -/

namespace Bytes

/-- Unsigned big-endian value. -/
def value (bytes : List UInt8) : ℕ :=
  bytes.foldl (fun acc byte => 256 * acc + byte.toNat) 0

theorem foldl_value (bytes : List UInt8) (acc : ℕ) :
    bytes.foldl (fun acc byte => 256 * acc + byte.toNat) acc =
      acc * 256 ^ bytes.length + value bytes := by
  induction bytes generalizing acc with
  | nil => simp [value]
  | cons byte rest ih =>
    simp only [List.foldl_cons, value, List.length_cons]
    rw [ih, ih (256 * 0 + byte.toNat)]
    ring

@[simp] theorem value_nil : value [] = 0 := rfl

theorem value_cons (byte : UInt8) (rest : List UInt8) :
    value (byte :: rest) = byte.toNat * 256 ^ rest.length + value rest := by
  simp only [value, List.foldl_cons]
  rw [foldl_value]
  simp [value]

theorem value_append (front back : List UInt8) :
    value (front ++ back) = value front * 256 ^ back.length + value back := by
  rw [value, List.foldl_append, foldl_value]
  rfl

theorem value_lt (bytes : List UInt8) : value bytes < 256 ^ bytes.length := by
  induction bytes with
  | nil => simp
  | cons byte rest ih =>
    rw [value_cons, List.length_cons, pow_succ]
    have small : byte.toNat ≤ 255 := by have := byte.toNat_lt; omega
    have scaled : byte.toNat * 256 ^ rest.length ≤ 255 * 256 ^ rest.length :=
      Nat.mul_le_mul_right _ small
    omega

theorem eq_of_value_eq {front back : List UInt8} (same : front.length = back.length)
    (equal : value front = value back) : front = back := by
  induction front generalizing back with
  | nil => simpa [eq_comm] using same
  | cons byte rest ih =>
    obtain _ | ⟨other, tail⟩ := back
    · simp at same
    · have lengths : rest.length = tail.length := by simpa using same
      rw [value_cons, value_cons, lengths] at equal
      have positive : 0 < 256 ^ tail.length := by positivity
      have quotient : ∀ lead low, low < 256 ^ tail.length →
          (lead * 256 ^ tail.length + low) / 256 ^ tail.length = lead := by
        intro lead low small
        rw [Nat.add_comm, Nat.add_mul_div_right _ _ positive, Nat.div_eq_of_lt small, zero_add]
      have heads : byte.toNat = other.toNat := by
        rw [← quotient byte.toNat (value rest) (lengths ▸ value_lt rest),
          ← quotient other.toNat (value tail) (value_lt tail), equal]
      rw [UInt8.toNat_inj.mp heads, ih lengths (by rw [heads] at equal; omega)]

@[simp] theorem value_singleton (byte : UInt8) : value [byte] = byte.toNat := by
  simp [value_cons]

@[simp] theorem toNat_ofNat_mod (n : ℕ) : (UInt8.ofNat (n % 256)).toNat = n % 256 := by
  simp

/-! ### Minimal unsigned encoding -/

def ofNatAux : ℕ → ℕ → List UInt8
  | 0, _ => []
  | fuel + 1, n => if n = 0 then [] else ofNatAux fuel (n / 256) ++ [UInt8.ofNat (n % 256)]

/-- The shortest big-endian encoding of `n`; empty for zero. -/
def ofNat (n : ℕ) : List UInt8 := ofNatAux n n

theorem value_ofNatAux (fuel n : ℕ) (enough : n ≤ fuel) : value (ofNatAux fuel n) = n := by
  induction fuel generalizing n with
  | zero => simp [ofNatAux]; omega
  | succ fuel ih =>
    simp only [ofNatAux]
    split
    · simp_all
    · rw [value_append, ih (n / 256) (by omega)]
      simp only [value_singleton, toNat_ofNat_mod, List.length_singleton, pow_one]
      omega

theorem ofNatAux_eq_nil (fuel n : ℕ) (enough : n ≤ fuel) : ofNatAux fuel n = [] ↔ n = 0 := by
  cases fuel with
  | zero => simp [ofNatAux]; omega
  | succ fuel => simp [ofNatAux]

theorem pow_length_ofNatAux_le (fuel n : ℕ) (enough : n ≤ fuel) (nonzero : n ≠ 0) :
    256 ^ ((ofNatAux fuel n).length - 1) ≤ n := by
  induction fuel generalizing n with
  | zero => omega
  | succ fuel ih =>
    simp only [ofNatAux, nonzero, ↓reduceIte, List.length_append, List.length_singleton,
      Nat.add_sub_cancel]
    by_cases small : n / 256 = 0
    · rw [(ofNatAux_eq_nil fuel _ (by omega)).mpr small]
      simp; omega
    · have bound := ih (n / 256) (by omega) small
      have length : (ofNatAux fuel (n / 256)).length ≠ 0 := by
        rw [Ne, List.length_eq_zero_iff, ofNatAux_eq_nil fuel _ (by omega)]; exact small
      calc 256 ^ (ofNatAux fuel (n / 256)).length
          = 256 * 256 ^ ((ofNatAux fuel (n / 256)).length - 1) := by
            rw [← pow_succ']; congr 1; omega
        _ ≤ 256 * (n / 256) := Nat.mul_le_mul_left _ bound
        _ ≤ n := Nat.mul_div_le n 256

@[simp] theorem value_ofNat (n : ℕ) : value (ofNat n) = n := value_ofNatAux n n le_rfl

@[simp] theorem ofNat_zero : ofNat 0 = [] := rfl

theorem ofNat_eq_nil (n : ℕ) : ofNat n = [] ↔ n = 0 := ofNatAux_eq_nil n n le_rfl

theorem lt_pow_length_ofNat (n : ℕ) : n < 256 ^ (ofNat n).length := by
  simpa using value_lt (ofNat n)

theorem pow_length_ofNat_le {n : ℕ} (nonzero : n ≠ 0) : 256 ^ ((ofNat n).length - 1) ≤ n :=
  pow_length_ofNatAux_le n n le_rfl nonzero

theorem length_ofNat {n k : ℕ} (positive : 0 < k) (lower : 256 ^ (k - 1) ≤ n)
    (upper : n < 256 ^ k) : (ofNat n).length = k := by
  have nonzero : n ≠ 0 := by have := Nat.one_le_pow (k - 1) 256 (by norm_num); omega
  have above : (ofNat n).length - 1 < k := by
    rw [← Nat.pow_lt_pow_iff_right (by norm_num : 1 < 256)]
    exact lt_of_le_of_lt (pow_length_ofNat_le nonzero) upper
  have below : k - 1 < (ofNat n).length := by
    rw [← Nat.pow_lt_pow_iff_right (by norm_num : 1 < 256)]
    exact lt_of_le_of_lt lower (lt_pow_length_ofNat n)
  omega

/-! ### Fixed-width encoding -/

/-- The low `width` bytes of `n`, most significant first. -/
def fixed : ℕ → ℕ → List UInt8
  | 0, _ => []
  | width + 1, n => fixed width (n / 256) ++ [UInt8.ofNat (n % 256)]

@[simp] theorem length_fixed (width n : ℕ) : (fixed width n).length = width := by
  induction width generalizing n with
  | zero => rfl
  | succ width ih => simp [fixed, ih]

theorem value_fixed (width n : ℕ) : value (fixed width n) = n % 256 ^ width := by
  induction width generalizing n with
  | zero => simp [fixed, Nat.mod_one]
  | succ width ih =>
    rw [fixed, value_append, ih, pow_succ', Nat.mod_mul]
    simp only [value_singleton, toNat_ofNat_mod, List.length_singleton, pow_one]
    omega

theorem ofNat_eq_fixed {n width : ℕ} (positive : 0 < width) (lower : 256 ^ (width - 1) ≤ n)
    (upper : n < 256 ^ width) : ofNat n = fixed width n := by
  apply eq_of_value_eq
  · rw [length_ofNat positive lower upper, length_fixed]
  · rw [value_ofNat, value_fixed, Nat.mod_eq_of_lt upper]

theorem fixed_length_value (bytes : List UInt8) : fixed bytes.length (value bytes) = bytes := by
  apply eq_of_value_eq
  · rw [length_fixed]
  · rw [value_fixed, Nat.mod_eq_of_lt (value_lt bytes)]

/-! ### Two's complement -/

/-- The two's-complement value of a big-endian string: the top bit of the first byte
weighs `-2 ^ (8 * length - 1)`; the empty string reads as zero. -/
def signed (bytes : List UInt8) : ℤ :=
  match bytes with
  | [] => 0
  | first :: _ => value bytes - if 128 ≤ first.toNat then 256 ^ bytes.length else 0

theorem le_head_iff (first : UInt8) (rest : List UInt8) :
    128 ≤ first.toNat ↔ 128 * 256 ^ rest.length ≤ value (first :: rest) := by
  rw [value_cons]
  have below := value_lt rest
  constructor
  · intro high
    have := Nat.mul_le_mul_right (256 ^ rest.length) high
    omega
  · intro reached
    by_contra low
    have := Nat.mul_le_mul_right (256 ^ rest.length) (show first.toNat ≤ 127 by omega)
    omega

/-- The two's-complement value read off the unsigned value and the length alone. -/
theorem signed_eq {bytes : List UInt8} (nonempty : bytes ≠ []) :
    signed bytes = value bytes -
      if 128 * 256 ^ (bytes.length - 1) ≤ value bytes then 256 ^ bytes.length else 0 := by
  cases bytes with
  | nil => exact absurd rfl nonempty
  | cons first rest =>
    simp only [signed, List.length_cons, Nat.add_sub_cancel]
    exact congrArg _ (if_congr (le_head_iff first rest) rfl rfl)

theorem signed_ofNat_of_high {n length : ℕ} (positive : 0 < length)
    (high : 128 * 256 ^ (length - 1) ≤ n) (below : n < 256 ^ length) :
    signed (ofNat n) = n - 256 ^ length := by
  have lengthEq : (ofNat n).length = length :=
    length_ofNat positive (le_trans (Nat.le_mul_of_pos_left _ (by norm_num)) high) below
  have nonempty : ofNat n ≠ [] := by
    rw [Ne, ← List.length_eq_zero_iff, lengthEq]; omega
  rw [signed_eq nonempty, lengthEq, value_ofNat, if_pos high]

theorem signed_ofNat_complement {n length : ℕ} (positive : 0 < length) (nonzero : 0 < n)
    (small : n ≤ 128 * 256 ^ (length - 1)) : signed (ofNat (256 ^ length - n)) = -(n : ℤ) := by
  have whole : 256 ^ length = 256 * 256 ^ (length - 1) := by
    rw [← pow_succ', Nat.sub_add_cancel positive]
  rw [signed_ofNat_of_high positive (by omega) (by omega), Nat.cast_sub (by omega)]
  push_cast
  ring

/-! ### Minimal two's complement -/

/-- No redundant sign byte: two or more bytes do not start with `0` before a byte whose top bit
is clear, nor with `255` before one whose top bit is set. -/
def minimal : List UInt8 → Bool
  | [] => false
  | [_] => true
  | first :: second :: _ =>
    !(first.toNat = 0 && second.toNat < 128) && !(first.toNat = 255 && 128 ≤ second.toNat)

theorem signed_bounds {bytes : List UInt8} (nonempty : bytes ≠ []) :
    -(128 * 256 ^ (bytes.length - 1) : ℤ) ≤ signed bytes ∧
      signed bytes < 128 * 256 ^ (bytes.length - 1) := by
  have below : (value bytes : ℤ) < 256 ^ bytes.length := by exact_mod_cast value_lt bytes
  have whole : (256 : ℤ) ^ bytes.length = 256 * 256 ^ (bytes.length - 1) := by
    rw [← pow_succ', Nat.sub_add_cancel (List.length_pos_iff.mpr nonempty)]
  rw [signed_eq nonempty]
  split
  · rename_i high
    have reached : (128 * 256 ^ (bytes.length - 1) : ℤ) ≤ value bytes := by exact_mod_cast high
    omega
  · rename_i low
    have short : (value bytes : ℤ) < 128 * 256 ^ (bytes.length - 1) := by
      exact_mod_cast not_le.mp low
    omega

/-- Two or more bytes fit in one byte fewer exactly when the first is a redundant sign byte. -/
theorem fits_shorter_iff (first second : UInt8) (rest : List UInt8) :
    (-(128 * 256 ^ rest.length : ℤ) ≤ signed (first :: second :: rest) ∧
      signed (first :: second :: rest) < 128 * 256 ^ rest.length) ↔
      minimal (first :: second :: rest) = false := by
  have firstBound := first.toNat_lt
  have secondBound := second.toNat_lt
  have weight : (0 : ℤ) < 256 ^ rest.length := by positivity
  have restBound : (value rest : ℤ) < 256 ^ rest.length := by exact_mod_cast value_lt rest
  have valueEq : (value (first :: second :: rest) : ℤ) =
      first.toNat * (256 * 256 ^ rest.length) + second.toNat * 256 ^ rest.length + value rest := by
    rw [value_cons, value_cons, List.length_cons, pow_succ']
    push_cast
    ring
  have whole : (256 : ℤ) ^ (rest.length + 1 + 1) = 256 * (256 * 256 ^ rest.length) := by ring
  have secondLow (low : second.toNat < 128) :
      (second.toNat : ℤ) * 256 ^ rest.length ≤ 127 * 256 ^ rest.length :=
    mul_le_mul_of_nonneg_right (by omega) weight.le
  have secondHigh (high : 128 ≤ second.toNat) :
      128 * 256 ^ rest.length ≤ (second.toNat : ℤ) * 256 ^ rest.length :=
    mul_le_mul_of_nonneg_right (by omega) weight.le
  have secondMost : (second.toNat : ℤ) * 256 ^ rest.length ≤ 255 * 256 ^ rest.length :=
    mul_le_mul_of_nonneg_right (by omega) weight.le
  have secondNonneg : 0 ≤ (second.toNat : ℤ) * 256 ^ rest.length := by positivity
  have firstSome (some : 1 ≤ first.toNat) :
      256 * 256 ^ rest.length ≤ (first.toNat : ℤ) * (256 * 256 ^ rest.length) :=
    le_mul_of_one_le_left (by positivity) (by exact_mod_cast some)
  have firstBelow (below : first.toNat ≤ 254) :
      (first.toNat : ℤ) * (256 * 256 ^ rest.length) ≤ 254 * (256 * 256 ^ rest.length) :=
    mul_le_mul_of_nonneg_right (by exact_mod_cast below) (by positivity)
  have signedEq : signed (first :: second :: rest) =
      first.toNat * (256 * 256 ^ rest.length) + second.toNat * 256 ^ rest.length + value rest -
        if 128 ≤ first.toNat then 256 * (256 * 256 ^ rest.length) else 0 := by
    rw [signed, valueEq, List.length_cons, List.length_cons, whole]
  rw [signedEq]
  simp only [minimal, Bool.and_eq_false_iff, Bool.not_eq_false', Bool.and_eq_true,
    decide_eq_true_eq]
  by_cases zero : first.toNat = 0
  · have vanish : (first.toNat : ℤ) * (256 * 256 ^ rest.length) = 0 := by rw [zero]; simp
    rw [if_neg (by omega)]
    constructor
    · rintro ⟨-, fits⟩
      refine .inl ⟨zero, ?_⟩
      by_contra high
      have := secondHigh (by omega)
      omega
    · rintro (⟨-, low⟩ | ⟨notZero, -⟩)
      · have := secondLow low
        omega
      · omega
  by_cases full : first.toNat = 255
  · have filled : (first.toNat : ℤ) * (256 * 256 ^ rest.length) =
        255 * (256 * 256 ^ rest.length) := by
      rw [full]; simp
    rw [if_pos (by omega)]
    constructor
    · rintro ⟨fits, -⟩
      refine .inr ⟨full, ?_⟩
      by_contra low
      have := secondLow (by omega)
      omega
    · rintro (⟨notFull, -⟩ | ⟨-, high⟩)
      · omega
      · have := secondHigh high
        omega
  have := firstSome (by omega)
  have := firstBelow (by omega)
  simp only [zero, full, false_and, or_self, iff_false, not_and, not_lt]
  split <;> omega

theorem toNat_emod_signed {bytes : List UInt8} (nonempty : bytes ≠ []) :
    (signed bytes % 256 ^ bytes.length).toNat = value bytes := by
  have below : (value bytes : ℤ) < 256 ^ bytes.length := by exact_mod_cast value_lt bytes
  rw [signed_eq nonempty]
  split
  · rw [Int.emod_eq_add_self_emod, sub_add_cancel, Int.emod_eq_of_lt (by omega) below]
    omega
  · rw [sub_zero, Int.emod_eq_of_lt (by omega) below]
    omega

theorem and_128_ne_zero_iff (byte : UInt8) : byte &&& 128 ≠ 0 ↔ 128 ≤ byte.toNat := by
  have table : ∀ x : Fin 256, x.val &&& 128 ≠ 0 ↔ 128 ≤ x.val := by decide +kernel
  rw [Ne, ← UInt8.toNat_inj, UInt8.toNat_and]
  exact table ⟨byte.toNat, byte.toNat_lt⟩

theorem toNat_xor_255 (byte : UInt8) : (byte ^^^ 255).toNat = 255 - byte.toNat := by
  have table : ∀ x : Fin 256, x.val ^^^ 255 = 255 - x.val := by decide +kernel
  rw [UInt8.toNat_xor]
  exact table ⟨byte.toNat, byte.toNat_lt⟩

theorem value_complement (bytes : List UInt8) :
    value (bytes.map (· ^^^ 255)) = 256 ^ bytes.length - 1 - value bytes := by
  induction bytes with
  | nil => simp
  | cons byte rest ih =>
    simp only [List.map_cons, value_cons, List.length_map, ih, toNat_xor_255,
      List.length_cons, pow_succ']
    have small : byte.toNat ≤ 255 := by have := byte.toNat_lt; omega
    have bounded := value_lt rest
    have scaled : byte.toNat * 256 ^ rest.length ≤ 255 * 256 ^ rest.length :=
      Nat.mul_le_mul_right _ small
    rw [Nat.sub_mul]
    omega

end Bytes

/-! ### The Solidity ABI layout

The layout of one call's arguments: a static argument is a 32-byte big-endian word; a dynamic
`bytes` or `string` argument is its length word followed by its bytes, zero-padded to a
multiple of 32. -/

namespace Abi

def word (n : ℕ) : List UInt8 := Bytes.fixed 32 n

def pad32 (bytes : List UInt8) : List UInt8 :=
  bytes ++ List.replicate ((32 - bytes.length % 32) % 32) 0

/-- A dynamic `bytes` or `string` argument: its length word, then its padded bytes. -/
def encodeBytes (bytes : List UInt8) : List UInt8 := word bytes.length ++ pad32 bytes

@[simp] theorem length_word (n : ℕ) : (word n).length = 32 := Bytes.length_fixed 32 n

theorem value_word {n : ℕ} (small : n < 2 ^ 256) : Bytes.value (word n) = n := by
  rw [word, Bytes.value_fixed]
  exact Nat.mod_eq_of_lt (by simpa using small)

theorem length_pad32 (bytes : List UInt8) :
    (pad32 bytes).length = bytes.length + (32 - bytes.length % 32) % 32 := by
  simp [pad32]

theorem length_le_length_pad32 (bytes : List UInt8) : bytes.length ≤ (pad32 bytes).length := by
  rw [length_pad32]
  omega

theorem word_le_length_pad32 {bytes : List UInt8} (nonempty : bytes ≠ []) :
    32 ≤ (pad32 bytes).length := by
  have positive : 0 < bytes.length := List.length_pos_iff.mpr nonempty
  rw [length_pad32]
  omega

end Abi
