import ZkRangeProof.Go.MathBig
import ZkRangeProof.Library.ExceptSeq

/-! `byteconversion/parse.go`: `ParseInput` reads comma-separated decimals in one pass, and
`ConvertToBigInt` checks the bytes of one field and hands it to `SetString`, whose failure flag
it drops. The loop is the split at every comma followed by one conversion per field
(`parseInput_eq_mapM`), so the comma-joined numerals of any integers parse back to them, and
it accepts exactly the inputs whose fields are digits behind at most one `-`
(`parseInput_eq_ok_iff`). A field that passes the byte test but that `SetString` rejects, the
empty field or a lone `-`, is accepted with whatever value `SetString` left behind. -/

namespace ZkRangeProof.Go

namespace ByteConversion

open ExceptSeq

variable (big : MathBig)

def errInvalidBigInteger : Failure := .error "invalid ASCII for big integer"

/-- The byte test in `ConvertToBigInt`: a decimal digit, or a `-` at index 0. -/
def validByte (index : ℕ) (element : UInt8) : Bool :=
  (element ≥ 48 && element ≤ 57) || (index == 0 && element == 45)

/-- `ConvertToBigInt(in)`. Its loop returns the same error at whichever byte fails the test
first, so it is the test that every byte passes. -/
def convertToBigInt (input : List UInt8) : Except Failure ℤ :=
  if input.zipIdx.all (fun (element, index) => validByte index element) then
    pure (big.setString input)
  else throw errInvalidBigInteger

/-- The `for index, element := range in` loop of `ParseInput` over the pairs it has still to
visit, with its `prevIndex` and `output`: a comma at `index` converts `in[prevIndex:index]`. -/
def parseFields (input : List UInt8) :
    List (UInt8 × ℕ) → ℕ → List ℤ → Except Failure (ℕ × List ℤ)
  | [], prevIndex, output => pure (prevIndex, output)
  | (element, index) :: rest, prevIndex, output =>
    if element = 44 then do
      let newInt ← convertToBigInt big ((input.take index).drop prevIndex)
      parseFields input rest (index + 1) (output ++ [newInt])
    else parseFields input rest prevIndex output

/-- `ParseInput(in)`: the loop, then the field after the last comma. -/
def parseInput (input : List UInt8) : Except Failure (List ℤ) := do
  let (prevIndex, output) ← parseFields big input input.zipIdx 0 []
  let newInt ← convertToBigInt big (input.drop prevIndex)
  pure (output ++ [newInt])

/-! ### The loop splits at commas -/

/-- The loop from the byte after `pre`, where the field in progress is `pre.drop prevIndex`:
with the conversion after the loop, it converts the fields of that field followed by
`suffix`. -/
theorem parseFields_spec (input pre suffix : List UInt8) (prevIndex : ℕ) (output : List ℤ)
    (split : input = pre ++ suffix) (behind : prevIndex ≤ pre.length)
    (noComma : 44 ∉ pre.drop prevIndex) :
    (do
      let (prevIndex, output) ← parseFields big input (suffix.zipIdx pre.length) prevIndex output
      let newInt ← convertToBigInt big (input.drop prevIndex)
      pure (output ++ [newInt])) =
    (do
      let fields ← ((pre.drop prevIndex ++ suffix).splitOn 44).mapM (convertToBigInt big)
      pure (output ++ fields)) := by
  -- induction on the bytes still to visit; the invariant is the field in progress
  induction suffix generalizing pre prevIndex output with
  | nil =>
    subst split
    rw [List.append_nil, List.append_nil, List.splitOn_eq_singleton noComma]
    simp only [List.zipIdx_nil, parseFields, pure_eq_ok, ok_bind, List.mapM_cons, List.mapM_nil]
    cases convertToBigInt big (pre.drop prevIndex) <;> rfl
  | cons byte rest ih =>
    have prefixTake : input.take pre.length = pre := by rw [split, List.take_left' rfl]
    rw [List.zipIdx_cons, parseFields]
    by_cases comma : byte = 44
    · -- a comma ends the field in progress; the next one starts empty
      subst comma
      rw [if_pos rfl, prefixTake, List.splitOn_append_cons_self_of_not_mem noComma,
        List.mapM_cons]
      cases converted : convertToBigInt big (pre.drop prevIndex) with
      | error failure => rfl
      | ok newInt =>
        have next := ih (pre ++ [44]) (pre.length + 1) (output ++ [newInt])
          (by rw [split, List.append_assoc, List.singleton_append]) (by simp) (by simp)
        simp only [ok_bind, List.length_append, List.length_singleton] at next ⊢
        rw [next, List.drop_eq_nil_of_le (by simp), List.nil_append]
        cases rest.splitOn 44 |>.mapM (convertToBigInt big) <;> simp
    · -- any other byte extends the field in progress
      rw [if_neg comma]
      have next := ih (pre ++ [byte]) prevIndex output
        (by rw [split, List.append_assoc, List.singleton_append]) (by simp; omega)
        (by
          rw [List.drop_append_of_le_length behind, List.mem_append, List.mem_singleton]
          exact fun inField => inField.elim noComma (fun same => comma same.symm))
      rw [List.length_append, List.length_singleton, List.drop_append_of_le_length behind,
        List.append_assoc, List.singleton_append] at next
      exact next

theorem parseInput_eq_mapM (input : List UInt8) :
    parseInput big input = (input.splitOn 44).mapM (convertToBigInt big) := by
  have whole := parseFields_spec big input [] input 0 [] rfl le_rfl (by simp)
  simp only [List.drop_nil, List.nil_append, List.length_nil] at whole
  rw [parseInput, whole]
  cases (input.splitOn 44).mapM (convertToBigInt big) <;> rfl

theorem convertToBigInt_outcome (input : List UInt8) :
    Outcome (fun _ => True) (· = errInvalidBigInteger) (convertToBigInt big input) := by
  unfold convertToBigInt
  split
  · exact .ok trivial
  · exact .error rfl

theorem parseInput_outcome (input : List UInt8) :
    Outcome (fun _ => True) (· = errInvalidBigInteger) (parseInput big input) := by
  rw [parseInput_eq_mapM]
  exact outcome_mapM _ fun field _ => convertToBigInt_outcome big field

/-! ### What the byte test lets through -/

theorem all_validByte_of_digits (digits : List UInt8) (start : ℕ)
    (allDigits : digits.all Decimal.isDigit = true) :
    (digits.zipIdx start).all (fun (element, index) => validByte index element) = true := by
  induction digits generalizing start with
  | nil => rfl
  | cons first rest ih =>
    rw [List.all_cons, Bool.and_eq_true] at allDigits
    have firstValid : validByte start first = true := by
      rw [validByte, Bool.or_eq_true]
      exact .inl allDigits.1
    rw [List.zipIdx_cons, List.all_cons, ih (start + 1) allDigits.2, Bool.and_true]
    exact firstValid

theorem convertToBigInt_ofInt (x : ℤ) : convertToBigInt big (Decimal.ofInt x) = .ok x := by
  have valid : (Decimal.ofInt x).zipIdx.all (fun (element, index) => validByte index element) =
      true := by
    rw [Decimal.ofInt]
    split
    · rw [List.zipIdx_cons, List.all_cons, Bool.and_eq_true]
      exact ⟨rfl, all_validByte_of_digits _ 1 (Decimal.all_isDigit_digits _)⟩
    · exact all_validByte_of_digits _ 0 (Decimal.all_isDigit_digits _)
  rw [convertToBigInt, if_pos valid, MathBig.setString_ofInt]
  rfl

theorem all_validByte_zipIdx_succ (rest : List UInt8) (k : ℕ) :
    (rest.zipIdx (k + 1)).all (fun (element, index) => validByte index element) =
      rest.all Decimal.isDigit := by
  induction rest generalizing k with
  | nil => rfl
  | cons byte rest ih =>
    rw [List.zipIdx_cons, List.all_cons, List.all_cons, ih]
    simp [validByte, Decimal.isDigit]

/-- A field passes the byte test of `ConvertToBigInt` exactly when it is decimal digits behind
at most one leading `-`. -/
theorem validField_iff (field : List UInt8) :
    field.zipIdx.all (fun (element, index) => validByte index element) = true ↔
      field.all Decimal.isDigit = true ∨ ∃ digits, field = 45 :: digits ∧
        digits.all Decimal.isDigit = true := by
  cases field with
  | nil => simp
  | cons first digits =>
    rw [List.zipIdx_cons, List.all_cons, all_validByte_zipIdx_succ, List.all_cons]
    simp only [validByte, Decimal.isDigit, Bool.and_eq_true, Bool.or_eq_true, List.cons.injEq,
      decide_eq_true_eq, beq_self_eq_true, beq_iff_eq, true_and, ge_iff_le]
    constructor
    · rintro ⟨digit | sign, rest⟩
      · exact .inl ⟨digit, rest⟩
      · exact .inr ⟨digits, ⟨sign, rfl⟩, rest⟩
    · rintro (⟨digit, rest⟩ | ⟨_, ⟨sign, rfl⟩, rest⟩)
      · exact ⟨.inl digit, rest⟩
      · exact ⟨.inr sign, rest⟩

/-! ### What `ParseInput` accepts -/

/-- `ParseInput` accepts exactly the inputs whose comma-separated fields are decimal digits
behind at most one leading `-`, and returns what `SetString` makes of each field, in order. -/
theorem parseInput_eq_ok_iff (input : List UInt8) (values : List ℤ) :
    parseInput big input = .ok values ↔
      (∀ field ∈ input.splitOn 44, field.all Decimal.isDigit = true ∨
        ∃ digits, field = 45 :: digits ∧ digits.all Decimal.isDigit = true) ∧
      values = (input.splitOn 44).map big.setString := by
  rw [parseInput_eq_mapM]
  apply ExceptSeq.mapM_eq_ok_iff
  intro field value
  rw [convertToBigInt, ← validField_iff]
  by_cases test : field.zipIdx.all (fun (element, index) => validByte index element) = true
  · rw [if_pos test, ExceptSeq.pure_eq_ok, Except.ok.injEq]
    exact ⟨fun same => ⟨test, same.symm⟩, fun ⟨_, same⟩ => same.symm⟩
  · rw [if_neg test, ExceptSeq.throw_eq_error]
    exact ⟨fun raised => (by cases raised), fun ⟨passes, _⟩ => absurd passes test⟩

theorem mapM_convertToBigInt_ofInt (xs : List ℤ) :
    (xs.map Decimal.ofInt).mapM (convertToBigInt big) = .ok xs := by
  induction xs with
  | nil => rfl
  | cons x rest ih =>
    rw [List.map_cons, List.mapM_cons, convertToBigInt_ofInt, ok_bind, ih]
    rfl

/-- `ParseInput` reads back the comma-joined numerals of every non-empty list of integers. -/
theorem parseInput_intercalate (xs : List ℤ) (nonempty : xs ≠ []) :
    parseInput big ([44].intercalate (xs.map Decimal.ofInt)) = .ok xs := by
  have noComma : ∀ numeral ∈ xs.map Decimal.ofInt, (44 : UInt8) ∉ numeral := by
    intro numeral written comma
    obtain ⟨x, -, rfl⟩ := List.mem_map.mp written
    rcases Decimal.mem_ofInt comma with digit | minus
    · exact absurd digit (by decide)
    · exact absurd minus (by decide)
  rw [parseInput_eq_mapM, List.splitOn_intercalate 44 noComma (by simpa using nonempty),
    mapM_convertToBigInt_ofInt]

theorem parseInput_intercalate_pair :
    parseInput MathBig.bezout ([44].intercalate ([7, -3].map Decimal.ofInt)) = .ok [7, -3] :=
  parseInput_intercalate MathBig.bezout [7, -3] (by simp)

example : parseInput MathBig.bezout [49, 44, 45, 50] = .ok [1, -2] := by decide

/-- A lone `-` passes the byte test, `SetString` rejects it, and `ConvertToBigInt` returns
what `SetString` left behind with no error. -/
theorem parseInput_lone_minus : parseInput big [45] = .ok [big.setStringFailed [45]] := rfl

end ByteConversion

end ZkRangeProof.Go
