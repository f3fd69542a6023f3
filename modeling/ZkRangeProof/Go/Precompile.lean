import ZkRangeProof.Go.Parse
import ZkRangeProof.Go.Validator

/-! `core/vm/contracts.go`: the range-proof precompile `zkpRangeProof.Run`. It reads the call
data of `validate(uint lower, uint upper, string commitment, string proof)` by hand: fixed
offsets for the two numbers and for the commitment, and the proof's offset read through
`Int64()` from the fourth head word. On the call data Solidity builds, `Run` decodes exactly the
four arguments (`run_validateCall`), and bytes appended after what it decodes change nothing
(`run_append`). On call data of its own choosing a caller can make the offset arithmetic wrap,
and then a slice expression panics; that is the only panic, since every other slice `Run` takes
follows a check that keeps it inside its bounds (`run_panics_iff_wrapped`). `Run` reads neither
the selector nor the commitment's offset word (`run_eq_of_agree`). -/

namespace ZkRangeProof.Go

/-! ### Go slices -/

/-- `s[lo:hi]`: Go panics unless `0 ≤ lo ≤ hi ≤ len(s)` (the slices `Run` sees are fresh
copies, so their capacity is their length). -/
def slice (s : List UInt8) (lo hi : ℤ) : Except Failure (List UInt8) :=
  if 0 ≤ lo ∧ lo ≤ hi ∧ hi ≤ s.length then pure ((s.take hi.toNat).drop lo.toNat)
  else throw (.panic "runtime error: slice bounds out of range")

/-- `s[lo:]`. -/
def sliceFrom (s : List UInt8) (lo : ℤ) : Except Failure (List UInt8) := slice s lo s.length

theorem slice_of_le_length (s : List UInt8) (lo hi : ℕ) (ordered : lo ≤ hi)
    (within : hi ≤ s.length) : slice s lo hi = .ok ((s.take hi).drop lo) := by
  rw [slice, if_pos (by omega)]
  simp only [Int.toNat_natCast]
  rfl

theorem slice_of_length_lt (s : List UInt8) (lo : ℤ) {hi : ℤ} (beyond : (s.length : ℤ) < hi) :
    slice s lo hi = .error (.panic "runtime error: slice bounds out of range") := by
  rw [slice, if_neg (by omega)]
  rfl

theorem slice_middle (front middle back : List UInt8) {s : List UInt8}
    (split : s = front ++ middle ++ back)
    {lo hi : ℤ} (atFront : lo = front.length) (atBack : hi = front.length + middle.length) :
    slice s lo hi = .ok middle := by
  have inside : 0 ≤ lo ∧ lo ≤ hi ∧ hi ≤ s.length := by
    subst split
    simp only [List.length_append] at atBack ⊢
    omega
  rw [slice, if_pos inside]
  subst split atFront atBack
  have lengths : (front.length + middle.length : ℤ).toNat = front.length + middle.length := by
    omega
  rw [lengths, Int.toNat_natCast, List.append_assoc, List.take_length_add_append,
    List.drop_left, List.take_left]
  rfl

theorem sliceFrom_back (front back : List UInt8) {s : List UInt8} (split : s = front ++ back)
    {lo : ℤ} (atFront : lo = front.length) : sliceFrom s lo = .ok back :=
  slice_middle front back [] (by rw [split, List.append_nil]) atFront
    (by rw [split, List.length_append]; push_cast; rfl)

theorem slice_append {s : List UInt8} {lo hi : ℤ} {v : List UInt8} (ok : slice s lo hi = .ok v)
    (extra : List UInt8) : slice (s ++ extra) lo hi = .ok v := by
  unfold slice at ok ⊢
  split at ok
  · rename_i inside
    have within : hi.toNat ≤ s.length := by omega
    rw [if_pos (by rw [List.length_append]; omega), List.take_append_of_le_length within]
    exact ok
  · cases ok

theorem sliceFrom_append {s : List UInt8} {lo : ℤ} {v : List UInt8} (ok : sliceFrom s lo = .ok v)
    (extra : List UInt8) : sliceFrom (s ++ extra) lo = .ok (v ++ extra) := by
  unfold sliceFrom slice at ok ⊢
  split at ok
  · rename_i inside
    have within : lo.toNat ≤ s.length := by omega
    rw [if_pos (by rw [List.length_append]; omega)]
    cases ok
    rw [Int.toNat_natCast, Int.toNat_natCast, List.take_length, List.take_length,
      List.drop_append_of_le_length within]
    rfl
  · cases ok

theorem take_drop_congr {s t : List UInt8} {lo hi : ℕ}
    (agree : ∀ i, lo ≤ i → i < hi → s[i]? = t[i]?) :
    (s.take hi).drop lo = (t.take hi).drop lo := by
  apply List.ext_getElem?
  intro n
  rw [List.getElem?_drop, List.getElem?_drop]
  by_cases inside : lo + n < hi
  · rw [List.getElem?_take_of_lt inside, List.getElem?_take_of_lt inside]
    exact agree (lo + n) (by omega) inside
  · rw [List.getElem?_take_eq_none (by omega), List.getElem?_take_eq_none (by omega)]

theorem slice_congr {s t : List UInt8} (sameLength : s.length = t.length) {lo hi : ℤ}
    (agree : ∀ i : ℕ, lo ≤ i → i < hi → s[i]? = t[i]?) :
    slice s lo hi = slice t lo hi := by
  unfold slice
  rw [sameLength, take_drop_congr fun i low high => agree i (by omega) (by omega)]

theorem slice_of_neg (s : List UInt8) {lo : ℤ} (negative : lo < 0) (hi : ℤ) :
    slice s lo hi = .error (.panic "runtime error: slice bounds out of range") := by
  rw [slice, if_neg (by omega)]
  rfl

theorem sliceFrom_congr {s t : List UInt8} (sameLength : s.length = t.length) {lo : ℤ}
    (agree : ∀ i : ℕ, lo ≤ i → s[i]? = t[i]?) : sliceFrom s lo = sliceFrom t lo := by
  unfold sliceFrom
  rw [slice_congr sameLength fun i low _ => agree i low, sameLength]

namespace Vm

open ExceptSeq

variable (big : MathBig)

def errInvalidInputRangeProof : Failure := .error "invalid input to range proof"

def true32Byte : List UInt8 := List.replicate 31 0 ++ [1]

def false32Byte : List UInt8 := List.replicate 32 0

def OFFSET : ℤ := 4

/-- `zkpRangeProof.Run(input)`. `Int64()` keeps the low 64 bits, and `+` on `int64` wraps. -/
def run (input : List UInt8) : Except Failure (List UInt8) := do
  if (input.length : ℤ) < OFFSET + 6 * 32 then throw errInvalidInputRangeProof
  let lower := MathBig.setBytes (← slice input 4 36)
  let upper := MathBig.setBytes (← slice input 36 68)
  let startProof :=
    MathBig.addInt64 (MathBig.int64 (MathBig.setBytes (← slice input 100 132))) OFFSET
  if startProof ≤ 164 ∨ MathBig.addInt64 startProof 32 > input.length then
    throw errInvalidInputRangeProof
  let commitmentLength := MathBig.int64 (MathBig.setBytes (← slice input 132 164))
  let byteArrayCommitment ← slice input 164 startProof
  let proofLength :=
    MathBig.int64 (MathBig.setBytes (← slice input startProof (MathBig.addInt64 startProof 32)))
  let byteArrayProof ← sliceFrom input (MathBig.addInt64 startProof 32)
  if commitmentLength ≤ 0 ∨ proofLength ≤ 0 ∨ commitmentLength > byteArrayCommitment.length ∨
      proofLength > byteArrayProof.length then
    throw errInvalidInputRangeProof
  -- Strip the padding zero bytes at the end, and parse the result
  let parsedCommitment ← ByteConversion.parseInput big (← slice byteArrayCommitment 0 commitmentLength)
  let parsedProof ← ByteConversion.parseInput big (← slice byteArrayProof 0 proofLength)
  if validateRangeProof big lower upper parsedCommitment parsedProof then pure true32Byte
  else pure false32Byte

/-! ### A wrapped proof offset -/

theorem slices_head {input : List UInt8} (long : 196 ≤ input.length) :
    slice input 4 36 = .ok ((input.take 36).drop 4) ∧
      slice input 36 68 = .ok ((input.take 68).drop 36) ∧
      slice input 100 132 = .ok ((input.take 132).drop 100) ∧
      slice input 132 164 = .ok ((input.take 164).drop 132) :=
  ⟨slice_of_le_length input 4 36 (by norm_num) (by omega),
    slice_of_le_length input 36 68 (by norm_num) (by omega),
    slice_of_le_length input 100 132 (by norm_num) (by omega),
    slice_of_le_length input 132 164 (by norm_num) (by omega)⟩

/-- When the proof offset makes `startProof + 32` wrap around, the length check passes and
`input[164:startProof]` panics. -/
theorem run_of_wrapped_offset (input : List UInt8) (long : 196 ≤ input.length)
    (short : input.length < 2 ^ 63 - 32)
    (wrapped : 2 ^ 63 - 32 ≤
      MathBig.addInt64 (MathBig.int64 (MathBig.setBytes ((input.take 132).drop 100))) OFFSET) :
    run big input = .error (.panic "runtime error: slice bounds out of range") := by
  have notShort : ¬(input.length : ℤ) < OFFSET + 6 * 32 := by rw [OFFSET]; omega
  obtain ⟨lowerSlice, upperSlice, offsetSlice, commitmentLengthSlice⟩ := slices_head long
  have below := MathBig.addInt64_lt (MathBig.int64 (MathBig.setBytes ((input.take 132).drop 100)))
    OFFSET
  simp only [run]
  rw [if_neg notShort, lowerSlice, ok_bind, upperSlice, ok_bind, offsetSlice, ok_bind]
  generalize MathBig.addInt64 (MathBig.int64 (MathBig.setBytes ((input.take 132).drop 100)))
    OFFSET = startProof at wrapped below ⊢
  have wraps : MathBig.addInt64 startProof 32 = startProof + 32 - 2 ^ 64 :=
    MathBig.bmod_int64_of_overflow (by omega) (by omega)
  have passes : ¬(startProof ≤ 164 ∨ MathBig.addInt64 startProof 32 > input.length) := by
    rw [wraps]
    omega
  have beyond := slice_of_length_lt input 164 (by omega : (input.length : ℤ) < startProof)
  rw [if_neg passes, commitmentLengthSlice, ok_bind, beyond, error_bind]

/-- A proof offset word ending in `7F FF FF FF FF FF FF DC` puts `startProof` at `2^63 - 32`:
`Run` panics on these 196 bytes. -/
theorem run_wrapped_offset_panics :
    run big (List.replicate 124 0 ++ [127, 255, 255, 255, 255, 255, 255, 220] ++
      List.replicate 64 0) = .error (.panic "runtime error: slice bounds out of range") :=
  run_of_wrapped_offset big _
    (by simp only [List.length_append, List.length_replicate, List.length_cons, List.length_nil]; norm_num)
    (by simp only [List.length_append, List.length_replicate, List.length_cons, List.length_nil]; norm_num)
    (by decide +kernel)

/-! ### The call data Solidity builds -/

/-- The call data Solidity builds for `validate(uint lower, uint upper, string commitment,
string proof)`: the selector; the head, which holds the two numbers and the offsets of the two
strings from the start of the arguments; then the two strings. -/
def validateCall (selector : List UInt8) (lower upper : ℕ) (commitment proof : List UInt8) :
    List UInt8 :=
  selector ++ Abi.word lower ++ Abi.word upper ++ Abi.word 128 ++
    Abi.word (160 + (Abi.pad32 commitment).length) ++ Abi.encodeBytes commitment ++
    Abi.encodeBytes proof

theorem setBytes_word {n : ℕ} (small : n < 2 ^ 256) : MathBig.setBytes (Abi.word n) = n := by
  rw [MathBig.setBytes, Abi.value_word small]

theorem int64_setBytes_word {n : ℕ} (small : n < 2 ^ 63) :
    MathBig.int64 (MathBig.setBytes (Abi.word n)) = n := by
  rw [setBytes_word (by omega), MathBig.int64_of_lt (by positivity) (by exact_mod_cast small)]

theorem slice_pad32 (bytes : List UInt8) : slice (Abi.pad32 bytes) 0 bytes.length = .ok bytes :=
  slice_middle [] bytes _ (by rw [Abi.pad32, List.nil_append]) (by simp) (by simp)

section Layout

variable {selector : List UInt8} (sized : selector.length = 4) (lower upper : ℕ)
  (commitment proof : List UInt8)

include sized

theorem length_validateCall :
    (validateCall selector lower upper commitment proof).length =
      196 + (Abi.pad32 commitment).length + (Abi.pad32 proof).length := by
  simp only [validateCall, Abi.encodeBytes, List.length_append, Abi.length_word, sized]
  omega

/-- Each slice `Run` takes of the call data is one part of its layout: the four head words
it reads, the padded commitment, and the proof's length word and padded bytes. -/
theorem slices_validateCall :
    slice (validateCall selector lower upper commitment proof) 4 36 = .ok (Abi.word lower) ∧
    slice (validateCall selector lower upper commitment proof) 36 68 = .ok (Abi.word upper) ∧
    slice (validateCall selector lower upper commitment proof) 100 132 =
      .ok (Abi.word (160 + (Abi.pad32 commitment).length)) ∧
    slice (validateCall selector lower upper commitment proof) 132 164 =
      .ok (Abi.word commitment.length) ∧
    slice (validateCall selector lower upper commitment proof) 164
      (164 + (Abi.pad32 commitment).length) = .ok (Abi.pad32 commitment) ∧
    slice (validateCall selector lower upper commitment proof)
      (164 + (Abi.pad32 commitment).length) (196 + (Abi.pad32 commitment).length) =
      .ok (Abi.word proof.length) ∧
    sliceFrom (validateCall selector lower upper commitment proof)
      (196 + (Abi.pad32 commitment).length) = .ok (Abi.pad32 proof) := by
  have parts : validateCall selector lower upper commitment proof =
      selector ++ Abi.word lower ++ Abi.word upper ++ Abi.word 128 ++
        Abi.word (160 + (Abi.pad32 commitment).length) ++
        (Abi.word commitment.length ++ Abi.pad32 commitment) ++
        (Abi.word proof.length ++ Abi.pad32 proof) := rfl
  generalize paddedDef : (Abi.pad32 commitment).length = P at parts ⊢
  refine ⟨?_, ?_, ?_, ?_, ?_, ?_, ?_⟩
  · exact slice_middle selector _ (Abi.word upper ++ Abi.word 128 ++ Abi.word (160 + P) ++
        (Abi.word commitment.length ++ Abi.pad32 commitment) ++
        (Abi.word proof.length ++ Abi.pad32 proof))
      (by rw [parts]; simp only [List.append_assoc]) (by simp [sized]) (by simp [sized])
  · exact slice_middle (selector ++ Abi.word lower) _ (Abi.word 128 ++ Abi.word (160 + P) ++
        (Abi.word commitment.length ++ Abi.pad32 commitment) ++
        (Abi.word proof.length ++ Abi.pad32 proof))
      (by rw [parts]; simp only [List.append_assoc]) (by simp [sized]) (by simp [sized])
  · exact slice_middle (selector ++ Abi.word lower ++ Abi.word upper ++ Abi.word 128) _
      ((Abi.word commitment.length ++ Abi.pad32 commitment) ++
        (Abi.word proof.length ++ Abi.pad32 proof))
      (by rw [parts]; simp only [List.append_assoc]) (by simp [sized]) (by simp [sized])
  · exact slice_middle (selector ++ Abi.word lower ++ Abi.word upper ++ Abi.word 128 ++
        Abi.word (160 + P)) _ (Abi.pad32 commitment ++ (Abi.word proof.length ++ Abi.pad32 proof))
      (by rw [parts]; simp only [List.append_assoc]) (by simp [sized]) (by simp [sized])
  · exact slice_middle (selector ++ Abi.word lower ++ Abi.word upper ++ Abi.word 128 ++
        Abi.word (160 + P) ++ Abi.word commitment.length) _
        (Abi.word proof.length ++ Abi.pad32 proof)
      (by rw [parts]; simp only [List.append_assoc]) (by simp [sized]) (by simp [sized, paddedDef])
  · exact slice_middle (selector ++ Abi.word lower ++ Abi.word upper ++ Abi.word 128 ++
        Abi.word (160 + P) ++ Abi.word commitment.length ++ Abi.pad32 commitment) _
        (Abi.pad32 proof)
      (by rw [parts]; simp only [List.append_assoc]) (by simp [sized, paddedDef]; ring)
      (by simp [sized, paddedDef]; ring)
  · exact sliceFrom_back (selector ++ Abi.word lower ++ Abi.word upper ++ Abi.word 128 ++
        Abi.word (160 + P) ++ Abi.word commitment.length ++ Abi.pad32 commitment ++
        Abi.word proof.length) _
      (by rw [parts]; simp only [List.append_assoc]) (by simp [sized, paddedDef]; ring)

end Layout

theorem run_validateCall {selector : List UInt8} (sized : selector.length = 4) {lower upper : ℕ}
    (lowerWord : lower < 2 ^ 256) (upperWord : upper < 2 ^ 256) {commitment proof : List UInt8}
    (commitmentNonempty : commitment ≠ []) (proofNonempty : proof ≠ [])
    (fits : (validateCall selector lower upper commitment proof).length < 2 ^ 63) :
    run big (validateCall selector lower upper commitment proof) = (do
      let parsedCommitment ← ByteConversion.parseInput big commitment
      let parsedProof ← ByteConversion.parseInput big proof
      pure (if validateRangeProof big lower upper parsedCommitment parsedProof then true32Byte
        else false32Byte)) := by
  obtain ⟨lowerSlice, upperSlice, offsetSlice, commitmentLengthSlice, commitmentSlice,
    proofLengthSlice, proofSlice⟩ := slices_validateCall sized lower upper commitment proof
  have length := length_validateCall sized lower upper commitment proof
  set input := validateCall selector lower upper commitment proof
  clear_value input
  have commitmentPadded := Abi.word_le_length_pad32 commitmentNonempty
  have proofPadded := Abi.word_le_length_pad32 proofNonempty
  have commitmentInside := Abi.length_le_length_pad32 commitment
  have proofInside := Abi.length_le_length_pad32 proof
  have notShort : ¬(input.length : ℤ) < OFFSET + 6 * 32 := by rw [OFFSET]; omega
  have lengthsPass : ¬((commitment.length : ℤ) ≤ 0 ∨ (proof.length : ℤ) ≤ 0 ∨
      (commitment.length : ℤ) > (Abi.pad32 commitment).length ∨
      (proof.length : ℤ) > (Abi.pad32 proof).length) := by
    have : 0 < commitment.length := List.length_pos_iff.mpr commitmentNonempty
    have : 0 < proof.length := List.length_pos_iff.mpr proofNonempty
    omega
  set P := (Abi.pad32 commitment).length
  have passes : ¬((164 + P : ℤ) ≤ 164 ∨ (196 + P : ℤ) > input.length) := by omega
  have offsetSmall : 160 + P < 2 ^ 63 := by omega
  have startBounds : -2 ^ 63 ≤ ((160 + P : ℕ) : ℤ) + 4 ∧ ((160 + P : ℕ) : ℤ) + 4 < 2 ^ 63 := by
    omega
  have endBounds : -2 ^ 63 ≤ (164 + P : ℤ) + 32 ∧ (164 + P : ℤ) + 32 < 2 ^ 63 := by omega
  have commitmentSmall : commitment.length < 2 ^ 63 := by omega
  have proofSmall : proof.length < 2 ^ 63 := by omega
  -- from here on no `omega`: the kernel would unfold the `int64` atoms it sees in the context
  have startProofEq :
      MathBig.addInt64 (MathBig.int64 (MathBig.setBytes (Abi.word (160 + P)))) OFFSET = 164 + P := by
    rw [int64_setBytes_word offsetSmall, OFFSET, MathBig.addInt64_of_lt startBounds.1 startBounds.2]
    push_cast
    ring
  have endEq : MathBig.addInt64 (164 + P) 32 = 196 + P := by
    rw [MathBig.addInt64_of_lt endBounds.1 endBounds.2]
    ring
  simp only [run]
  rw [if_neg notShort, lowerSlice, ok_bind, upperSlice, ok_bind, offsetSlice, ok_bind, startProofEq,
    endEq, if_neg passes, commitmentLengthSlice, ok_bind, commitmentSlice, ok_bind,
    proofLengthSlice, ok_bind, proofSlice, ok_bind, int64_setBytes_word commitmentSmall,
    int64_setBytes_word proofSmall,
    if_neg lengthsPass, slice_pad32, ok_bind, slice_pad32, setBytes_word lowerWord,
    setBytes_word upperWord]
  refine bind_congr fun parsedCommitment => ?_
  rw [ok_bind]
  refine bind_congr fun parsedProof => ?_
  split <;> rfl

theorem run_validateCall_short :
    run MathBig.bezout (validateCall [205, 46, 61, 121] 18 200 [49] [50]) = (do
      let parsedCommitment ← ByteConversion.parseInput MathBig.bezout [49]
      let parsedProof ← ByteConversion.parseInput MathBig.bezout [50]
      pure (if validateRangeProof MathBig.bezout 18 200 parsedCommitment parsedProof then
        true32Byte else false32Byte)) :=
  run_validateCall MathBig.bezout rfl (by norm_num) (by norm_num) (List.cons_ne_nil _ _)
    (List.cons_ne_nil _ _) (by decide +kernel)

/-! ### Trailing call data -/

/-- `Run` ignores call data past what it decodes: every input it decodes returns the same word
with any bytes appended. Every slice it takes lies inside the input, the two length checks only
get easier, and the proof bytes are cut to `proofLength` before they are parsed. -/
theorem run_append {input out : List UInt8} (decoded : run big input = .ok out)
    (extra : List UInt8) : run big (input ++ extra) = .ok out := by
  simp only [run, bind_eq_ok_iff, ite_throw_join_eq_ok_iff] at decoded ⊢
  obtain ⟨notShort, lower, lowerSlice, upper, upperSlice, offset, offsetSlice, passes,
    commitmentLength, commitmentLengthSlice, commitment, commitmentSlice, proofLength,
    proofLengthSlice, proofBytes, proofSlice, lengthsPass, commitmentData, commitmentDataSlice,
    parsedCommitment, parsedCommitmentOk, proofData, proofDataSlice, parsedProof, parsedProofOk,
    result⟩ := decoded
  have longer : (input.length : ℤ) ≤ (input ++ extra).length := by simp
  have proofLonger : (proofBytes.length : ℤ) ≤ (proofBytes ++ extra).length := by simp
  refine ⟨fun short => notShort (lt_of_le_of_lt longer short), lower, slice_append lowerSlice extra,
    upper, slice_append upperSlice extra, offset, slice_append offsetSlice extra,
    fun fails => passes (fails.imp id (lt_of_le_of_lt longer)), commitmentLength,
    slice_append commitmentLengthSlice extra, commitment, slice_append commitmentSlice extra,
    proofLength, slice_append proofLengthSlice extra, proofBytes ++ extra,
    sliceFrom_append proofSlice extra, fun fails => lengthsPass ?_, commitmentData,
    commitmentDataSlice, parsedCommitment, parsedCommitmentOk, proofData,
    slice_append proofDataSlice extra, parsedProof, parsedProofOk, result⟩
  exact fails.imp id (Or.imp id (Or.imp id (lt_of_le_of_lt proofLonger)))

theorem run_append_short :
    run MathBig.bezout (validateCall [205, 46, 61, 121] 18 200 [49] [50] ++ [7]) =
      .ok false32Byte :=
  run_append MathBig.bezout (by decide +kernel) [7]

/-! ### Bytes `Run` never reads -/

/-- `Run` never reads the selector, bytes `0` to `4`, nor the commitment's offset word, bytes
`68` to `100`: two call data of one length that agree on every other byte give the same result,
error and panic included. Every slice it takes lies in `[4, 68)` or starts past `100`, the proof
offset having passed the check `startProof > 164`; the end of the proof's length word is past
`100` too, or wrapped below zero, where both slices panic alike. -/
theorem run_eq_of_agree {s t : List UInt8} (sameLength : s.length = t.length)
    (agree : ∀ i : ℕ, 4 ≤ i → i < 68 ∨ 100 ≤ i → s[i]? = t[i]?) :
    run big s = run big t := by
  have head (lo hi : ℤ) (inside : 4 ≤ lo ∧ hi ≤ 68) : slice s lo hi = slice t lo hi :=
    slice_congr sameLength fun i low high => agree i (by omega) (.inl (by omega))
  have tail (lo hi : ℤ) (past : 100 ≤ lo) : slice s lo hi = slice t lo hi :=
    slice_congr sameLength fun i low _ => agree i (by omega) (.inr (by omega))
  have tailFrom (lo : ℤ) (away : 100 ≤ lo ∨ lo < 0) : sliceFrom s lo = sliceFrom t lo := by
    rcases away with past | negative
    · exact sliceFrom_congr sameLength fun i low => agree i (by omega) (.inr (by omega))
    · rw [sliceFrom, sliceFrom, slice_of_neg s negative, slice_of_neg t negative]
  have commitmentSlice (hi : ℤ) : slice s 164 hi = slice t 164 hi := tail 164 hi (by norm_num)
  simp only [run, sameLength, commitmentSlice]
  by_cases short : (t.length : ℤ) < OFFSET + 6 * 32
  · rw [if_pos short, if_pos short, ExceptSeq.throw_eq_error, ExceptSeq.error_bind,
      ExceptSeq.error_bind]
  rw [if_neg short, if_neg short, head 4 36 ⟨by norm_num, by norm_num⟩,
    head 36 68 ⟨by norm_num, by norm_num⟩, tail 100 132 (by norm_num),
    tail 132 164 (by norm_num)]
  refine bind_congr fun lowerBytes => bind_congr fun upperBytes => bind_congr fun offsetBytes => ?_
  have startSmall := MathBig.addInt64_lt (MathBig.int64 (MathBig.setBytes offsetBytes)) OFFSET
  generalize MathBig.addInt64 (MathBig.int64 (MathBig.setBytes offsetBytes)) OFFSET = startProof
    at startSmall ⊢
  by_cases fails : startProof ≤ 164 ∨ MathBig.addInt64 startProof 32 > t.length
  · rw [if_pos fails, if_pos fails, ExceptSeq.throw_eq_error, ExceptSeq.error_bind,
      ExceptSeq.error_bind]
  have ends := MathBig.addInt64_of_nonneg (b := 32) (by omega) (by norm_num) startSmall
    (by norm_num)
  rw [if_neg fails, if_neg fails, tail startProof _ (by omega),
    tailFrom (MathBig.addInt64 startProof 32) (by omega)]

theorem agree_of_replaced {input selector word : List UInt8} (long : 100 ≤ input.length)
    (selectorSized : selector.length = 4) (wordSized : word.length = 32) :
    (selector ++ (input.take 68).drop 4 ++ word ++ input.drop 100).length = input.length ∧
      ∀ i : ℕ, 4 ≤ i → i < 68 ∨ 100 ≤ i →
        (selector ++ (input.take 68).drop 4 ++ word ++ input.drop 100)[i]? = input[i]? := by
  have middle : ((input.take 68).drop 4).length = 64 := by simp; omega
  constructor
  · simp only [List.length_append, middle, selectorSized, wordSized, List.length_drop]
    omega
  · intro i low away
    have front : (selector ++ (input.take 68).drop 4).length = 68 := by
      rw [List.length_append, middle, selectorSized]
    have beforeTail : (selector ++ (input.take 68).drop 4 ++ word).length = 100 := by
      rw [List.length_append, front, wordSized]
    rcases away with head | tail
    · rw [List.getElem?_append_left (by omega), List.getElem?_append_left (by omega),
        List.getElem?_append_right (by omega), List.getElem?_drop,
        List.getElem?_take_of_lt (by omega), selectorSized, Nat.add_sub_cancel' low]
    · rw [List.getElem?_append_right (by omega), List.getElem?_drop, beforeTail,
        Nat.add_sub_cancel' tail]

theorem run_eq_of_agree_selector_offset :
    run MathBig.bezout ([0, 0, 0, 0] ++
        ((validateCall [205, 46, 61, 121] 18 200 [49] [50]).take 68).drop 4 ++
        List.replicate 32 255 ++ (validateCall [205, 46, 61, 121] 18 200 [49] [50]).drop 100) =
      run MathBig.bezout (validateCall [205, 46, 61, 121] 18 200 [49] [50]) := by
  have long : 100 ≤ (validateCall [205, 46, 61, 121] 18 200 [49] [50]).length := by
    rw [length_validateCall rfl]
    omega
  exact run_eq_of_agree MathBig.bezout (agree_of_replaced long rfl rfl).1
    (agree_of_replaced long rfl rfl).2

/-! ### What `Run` returns, raises and panics on -/

section Outcomes

theorem slice_outcome {s : List UInt8} {lo hi : ℤ} (inside : 0 ≤ lo ∧ lo ≤ hi ∧ hi ≤ s.length)
    (errors : Failure → Prop) : Outcome (fun _ => True) errors (slice s lo hi) := by
  rw [slice, if_pos inside]
  exact .ok trivial

/-- `Run` returns one of its two words, or raises `errInvalidInputRangeProof` or the parser's
`errInvalidBigInteger`, or panics at a slice; and a panic needs the wrapped offset. Each check
of `Run` is a case split, and each slice after a check that passed lies inside its bounds. -/
theorem run_outcome (input : List UInt8) (fits : input.length < 2 ^ 63 - 32) :
    Outcome (fun out => out = true32Byte ∨ out = false32Byte)
      (fun e => e = errInvalidInputRangeProof ∨ e = ByteConversion.errInvalidBigInteger ∨
        e = .panic "runtime error: slice bounds out of range" ∧ 196 ≤ input.length ∧
          2 ^ 63 - 32 ≤ MathBig.addInt64
            (MathBig.int64 (MathBig.setBytes ((input.take 132).drop 100))) OFFSET)
      (run big input) := by
  simp only [run]
  by_cases short : (input.length : ℤ) < OFFSET + 6 * 32
  · rw [if_pos short]
    exact .error (Or.inl rfl)
  rw [if_neg short]
  have long : 196 ≤ input.length := by rw [OFFSET] at short; omega
  obtain ⟨lowerSlice, upperSlice, offsetSlice, commitmentLengthSlice⟩ := slices_head long
  rw [lowerSlice, ok_bind, upperSlice, ok_bind, offsetSlice, ok_bind]
  generalize MathBig.addInt64 (MathBig.int64 (MathBig.setBytes ((input.take 132).drop 100)))
    OFFSET = startProof
  by_cases fails : startProof ≤ 164 ∨ MathBig.addInt64 startProof 32 > input.length
  · rw [if_pos fails]
    exact .error (Or.inl rfl)
  rw [if_neg fails, commitmentLengthSlice, ok_bind]
  by_cases wrapped : 2 ^ 63 - 32 ≤ startProof
  · rw [slice_of_length_lt input 164 (by omega : (input.length : ℤ) < startProof), error_bind]
    exact .error (Or.inr (Or.inr ⟨rfl, long, wrapped⟩))
  have endEq : MathBig.addInt64 startProof 32 = startProof + 32 :=
    MathBig.addInt64_of_lt (by omega) (by omega)
  rw [endEq] at fails ⊢
  apply outcome_bind (slice_outcome ⟨by omega, by omega, by omega⟩ _)
  rintro byteArrayCommitment -
  apply outcome_bind (slice_outcome ⟨by omega, by omega, by omega⟩ _)
  rintro proofLengthWord -
  apply outcome_bind (slice_outcome ⟨by omega, by omega, le_rfl⟩ _)
  rintro byteArrayProof -
  generalize MathBig.int64 (MathBig.setBytes ((input.take 164).drop 132)) = commitmentLength
  generalize MathBig.int64 (MathBig.setBytes proofLengthWord) = proofLength
  by_cases lengthsFail : commitmentLength ≤ 0 ∨ proofLength ≤ 0 ∨
      commitmentLength > byteArrayCommitment.length ∨ proofLength > byteArrayProof.length
  · rw [if_pos lengthsFail]
    exact .error (Or.inl rfl)
  rw [if_neg lengthsFail]
  apply outcome_bind (slice_outcome ⟨le_rfl, by omega, by omega⟩ _)
  rintro commitmentBytes -
  apply outcome_bind (outcome_imp (ByteConversion.parseInput_outcome big commitmentBytes)
    (fun _ holds => holds) fun _ raised => Or.inr (Or.inl raised))
  rintro parsedCommitment -
  apply outcome_bind (slice_outcome ⟨le_rfl, by omega, by omega⟩ _)
  rintro proofBytes -
  apply outcome_bind (outcome_imp (ByteConversion.parseInput_outcome big proofBytes)
    (fun _ holds => holds) fun _ raised => Or.inr (Or.inl raised))
  rintro parsedProof -
  split
  · exact .ok (Or.inl rfl)
  · exact .ok (Or.inr rfl)

/-- What `Run` does with call data of any length below `2^63 - 32` bytes: it returns
`true32Byte` or `false32Byte`, raises `errInvalidInputRangeProof` or the parser's
`errInvalidBigInteger`, or panics at a slice; and it panics exactly when the call data holds the
six head words and the proof offset puts `startProof` at `2^63 - 32` or above, where
`startProof + 32` wraps around. -/
theorem run_panics_iff_wrapped (input : List UInt8) (fits : input.length < 2 ^ 63 - 32) :
    (run big input = .ok true32Byte ∨ run big input = .ok false32Byte ∨
      run big input = .error errInvalidInputRangeProof ∨
      run big input = .error ByteConversion.errInvalidBigInteger ∨
      run big input = .error (.panic "runtime error: slice bounds out of range")) ∧
    ((∃ reason, run big input = .error (.panic reason)) ↔
      196 ≤ input.length ∧ 2 ^ 63 - 32 ≤
        MathBig.addInt64 (MathBig.int64 (MathBig.setBytes ((input.take 132).drop 100))) OFFSET) := by
  have outcome := run_outcome big input fits
  have wrappedPanics := fun long wrapped => run_of_wrapped_offset big input long fits wrapped
  generalize run big input = result at outcome wrappedPanics ⊢
  cases outcome with
  | ok returned =>
    refine ⟨?_, ⟨?_, ?_⟩⟩
    · rcases returned with rfl | rfl
      · exact Or.inl rfl
      · exact Or.inr (Or.inl rfl)
    · rintro ⟨reason, ⟨⟩⟩
    · rintro ⟨long, wrapped⟩
      cases wrappedPanics long wrapped
  | error raised =>
    refine ⟨?_, ⟨?_, fun ⟨long, wrapped⟩ => ⟨_, wrappedPanics long wrapped⟩⟩⟩
    · rcases raised with rfl | rfl | ⟨rfl, -⟩
      · exact Or.inr (Or.inr (Or.inl rfl))
      · exact Or.inr (Or.inr (Or.inr (Or.inl rfl)))
      · exact Or.inr (Or.inr (Or.inr (Or.inr rfl)))
    · rintro ⟨reason, panics⟩
      rcases raised with rfl | rfl | ⟨-, panicked⟩
      · cases panics
      · cases panics
      · exact panicked

/-- The 196 bytes of `run_wrapped_offset_panics`: their offset word makes `startProof + 32`
wrap, and `Run` panics on them. -/
theorem run_panics_iff_wrapped_offset :
    let input : List UInt8 :=
      List.replicate 124 0 ++ [127, 255, 255, 255, 255, 255, 255, 220] ++ List.replicate 64 0
    (∃ reason, run MathBig.bezout input = .error (.panic reason)) ∧ 196 ≤ input.length ∧
      2 ^ 63 - 32 ≤
        MathBig.addInt64 (MathBig.int64 (MathBig.setBytes ((input.take 132).drop 100))) OFFSET := by
  intro input
  have long : input.length = 196 := by
    simp only [input, List.length_append, List.length_replicate, List.length_cons, List.length_nil]
  have wrapped : 2 ^ 63 - 32 ≤
      MathBig.addInt64 (MathBig.int64 (MathBig.setBytes ((input.take 132).drop 100))) OFFSET := by
    decide +kernel
  exact ⟨(run_panics_iff_wrapped MathBig.bezout input (by omega)).2.mpr ⟨long.ge, wrapped⟩,
    long.ge, wrapped⟩

end Outcomes

/-! ### Gas -/

section Gas

/-- `zkpRangeProof.RequiredGas(input)`: a fixed price, whatever the input. -/
def requiredGas (_input : List UInt8) : UInt64 := 180000

structure Contract where
  gas : UInt64
  deriving DecidableEq, Repr

def Contract.useGas (contract : Contract) (gas : UInt64) : Bool × Contract :=
  if contract.gas < gas then (false, contract) else (true, ⟨contract.gas - gas⟩)

def errOutOfGas : Failure := .error "out of gas"

/-- `RunPrecompiledContract(p, input, contract)` for `p = &zkpRangeProof{}`: `Run`'s result,
and the contract after the charge. -/
def runPrecompiledContract (input : List UInt8) (contract : Contract) :
    Except Failure (List UInt8) × Contract :=
  let gas := requiredGas input
  match contract.useGas gas with
  | (true, contract) => (run big input, contract)
  | (false, contract) => (.error errOutOfGas, contract)

theorem runPrecompiledContract_eq (input : List UInt8) (contract : Contract) :
    runPrecompiledContract big input contract =
      if contract.gas < 180000 then (.error errOutOfGas, contract)
      else (run big input, ⟨contract.gas - 180000⟩) := by
  by_cases short : contract.gas < 180000
  · rw [if_pos short, runPrecompiledContract, Contract.useGas, requiredGas, if_pos short]
  · rw [if_neg short, runPrecompiledContract, Contract.useGas, requiredGas, if_neg short]

end Gas

end Vm

end ZkRangeProof.Go
