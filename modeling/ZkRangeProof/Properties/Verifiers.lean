import ZkRangeProof.Properties.Completeness

/-! What the two verifiers accept beyond honest proofs, and how they differ.

A square proof whose `F` is the modulus `N` passes both verifiers: with the negative challenge
`calculateHash(0, 0)` both recomputed witnesses are `N`-multiples, so `0`, and the challenge
matches. Neither verifier checks that the group elements it is given are units. For a commitment
value `c ≥ 0` the two verifiers accept the same proofs on units modulo `N > 1`, and every proof
the Java verifier accepts the Go verifier accepts; at `N = 1` the Go verifier accepts a proof the
Java one rejects. A commitment that is not a unit makes the Java verifier throw
`ArithmeticException`. -/

namespace ZkRangeProof

open Java ModularUnits FujisakiOkamoto Protocol ExceptSeq

/-! ### A square proof over `F = N` -/

theorem calculateHash_zero_zero_neg : DigestUtil.calculateHash [0, 0] < 0 := by decide +kernel

/-- The square proof with `F = N`, challenge `calculateHash(0, 0)` and responses `1, 0, 0`. -/
def degenerateSquare (N : ℤ) : SquareProof := ⟨N, ⟨DigestUtil.calculateHash [0, 0], 1, 0, 0⟩⟩

section Degenerate

variable {N : ℤ}

theorem modPow_self_of_pos (positive : 0 < N) {e : ℤ} (exponent : 0 < e) :
    BigInteger.modPow N e N = .ok 0 := by
  rw [BigInteger.modPow_of_nonneg positive exponent.le]
  congr 1
  exact Int.emod_eq_zero_of_dvd (dvd_pow_self N (by omega))

theorem recomputeWitness_eq_zero (positive : 0 < N) {g h E c D D1 gD hD1 Ec : ℤ}
    (gDOk : BigInteger.modPow g D N = .ok gD) (hD1Ok : BigInteger.modPow h D1 N = .ok hD1)
    (EcOk : BigInteger.modPow E (-c) N = .ok Ec) (vanishes : gD * hD1 * Ec % N = 0) :
    HPAKEEqualityConstraint.recomputeWitness N g h E c D D1 = .ok 0 := by
  rw [HPAKEEqualityConstraint.recomputeWitness, gDOk, ok_bind, hD1Ok, ok_bind, EcOk, ok_bind,
    BigInteger.mod_of_pos positive, vanishes]

/-- The degenerate square proof passes `HPAKESquare`'s check for every `g`, `h` and non-zero
`E`. -/
theorem validateZeroKnowledgeProof_degenerateSquare (positive : 0 < N) (g h : ℤ) {E : ℤ}
    (nonzero : E ≠ 0) :
    HPAKESquare.validateZeroKnowledgeProof N g h E (degenerateSquare N) = .ok () := by
  have challenge := calculateHash_zero_zero_neg
  have W1 : HPAKEEqualityConstraint.recomputeWitness N g h N (DigestUtil.calculateHash [0, 0]) 1 0
      = .ok 0 :=
    recomputeWitness_eq_zero positive (BigInteger.modPow_of_nonneg positive (by norm_num))
      (BigInteger.modPow_of_nonneg positive le_rfl) (modPow_self_of_pos positive (by omega))
      (by simp)
  have EPower : BigInteger.modPow E (-DigestUtil.calculateHash [0, 0]) N =
      .ok (E ^ (-DigestUtil.calculateHash [0, 0]).toNat % N) :=
    BigInteger.modPow_of_nonneg positive (by omega)
  have W2 : HPAKEEqualityConstraint.recomputeWitness N N h E (DigestUtil.calculateHash [0, 0]) 1 0
      = .ok 0 :=
    recomputeWitness_eq_zero positive (modPow_self_of_pos positive (by norm_num))
      (BigInteger.modPow_of_nonneg positive le_rfl) EPower (by simp)
  have guard : ¬((degenerateSquare N).F = 0 ∨ E = 0) := by
    simp only [degenerateSquare]
    omega
  rw [HPAKESquare.validateZeroKnowledgeProof, HPAKEEqualityConstraint.validateZeroKnowledgeProof,
    if_neg guard]
  simp only [degenerateSquare, W1, W2, ok_bind, ne_eq, not_true_eq_false, if_false]
  rfl

theorem validateZeroKnowledgeProof_nonzero {g1 g2 h1 h2 E F : ℤ} {ecProof : ECProof}
    (accepted : HPAKEEqualityConstraint.validateZeroKnowledgeProof N g1 g2 h1 h2 E F ecProof =
      .ok ()) : E ≠ 0 ∧ F ≠ 0 := by
  simp only [HPAKEEqualityConstraint.validateZeroKnowledgeProof, ite_throw_join_eq_ok_iff] at accepted
  exact not_or.mp accepted.1

/-- An accepted proof stays accepted when its first square proof is replaced by the degenerate
one: the `F` of that square proof is then `N`, which is not a unit. -/
theorem validateRangeProof_degenerateSquare {proof : RangeProof} {commitment : Commitment}
    {range : ClosedRange}
    (accepted : HPAKErangeProof.validateRangeProof proof commitment range = .ok ()) :
    HPAKErangeProof.validateRangeProof { proof with sqrProof3 := degenerateSquare commitment.group.N }
      commitment range = .ok () := by
  simp only [HPAKErangeProof.validateRangeProof, bind_eq_ok_iff, exists_unit_ok_and,
    HPAKErangeProof.rethrow_eq_ok_iff] at accepted ⊢
  obtain ⟨lower, lowerOk, c1, c1Ok, upper, upperOk, c2, c2Ok, cPrimePrime, cPrimePrimeOk, equality,
    square3, rest⟩ := accepted
  -- the replaced check is the only one that reads `sqrProof3`; its guard kept `cPrimePrime ≠ 0`
  have nonzero := (validateZeroKnowledgeProof_nonzero square3).2
  exact ⟨lower, lowerOk, c1, c1Ok, upper, upperOk, c2, c2Ok, cPrimePrime, cPrimePrimeOk, equality,
    validateZeroKnowledgeProof_degenerateSquare (Go.positive_of_mod cPrimePrimeOk) _ _ nonzero,
    rest⟩

end Degenerate

theorem honestProof_fifteen_accepted :
    ∃ (c : ℤ) (proof : RangeProof), TTPGenerator.commit ⟨15, 2, 7⟩ 2 5 = .ok ⟨⟨15, 2, 7⟩, c⟩ ∧
      0 ≤ c ∧ HPAKErangeProof.validateRangeProof proof ⟨⟨15, 2, 7⟩, c⟩ ⟨1, 3⟩ = .ok () := by
  obtain ⟨commitment, proof, committed, -, accepted, -⟩ := rangeProof_accepted_of_pos
    (by norm_num : 1 < 15) (by decide : Int.gcd 2 15 = 1) (by decide : Int.gcd 7 15 = 1)
    2 5 1 3 (by norm_num) lowestCoins Go.MathBig.bezout
  obtain ⟨group, c⟩ := commitment
  obtain rfl : group = ⟨15, 2, 7⟩ := TTPGenerator.commit_group committed
  exact ⟨c, proof, committed, TTPGenerator.commit_nonneg committed, accepted⟩

/-- Both verifiers accept a range proof whose first square proof has `F = N = 15`, which shares
a factor with `N`: the honest proof for the secret `2` in `[1, 3]` with its `sqrProof3`
replaced. -/
theorem rangeProof_accepted_square_modulus :
    ∃ commitment proof, TTPGenerator.commit ⟨15, 2, 7⟩ 2 5 = .ok commitment ∧
      HPAKErangeProof.validateRangeProof proof commitment ⟨1, 3⟩ = .ok () ∧
      Go.validateRangeProof Go.MathBig.bezout 1 3 [commitment.commitmentValue, (15 : ℕ), 2, 7]
        proof.toArray = true ∧
      Int.gcd proof.sqrProof3.F 15 ≠ 1 := by
  obtain ⟨c, proof, committed, cNonneg, accepted⟩ := honestProof_fifteen_accepted
  have degenerate := validateRangeProof_degenerateSquare accepted
  have shared : Int.gcd 15 15 ≠ 1 := by decide
  exact ⟨_, _, committed, degenerate,
    Go.validateRangeProof_of_java Go.MathBig.bezout cNonneg degenerate, shared⟩

/-! ### The Go verifier against the Java verifier -/

/-- For a commitment value `c ≥ 0`, every 22-entry array the Java verifier accepts (read by
`fromArray`) the Go verifier accepts; and on units modulo `N > 1` the two accept the same
proofs. -/
theorem validateRangeProof_go_java (big : Go.MathBig) :
    (∀ (lower upper c N g h : ℤ) (array : List ℤ), array.length = 22 → 0 ≤ c →
      HPAKErangeProof.validateRangeProof (RangeProof.fromArray array) ⟨⟨N, g, h⟩, c⟩
          ⟨lower, upper⟩ = .ok () →
        Go.validateRangeProof big lower upper [c, N, g, h] array = true) ∧
    (∀ (n : ℕ) (g h c : ℤ) (G H C : (ZMod n)ˣ) (proof : RangeProof)
        (p : GroupRangeProof (ZMod n)ˣ) (lower upper : ℤ),
      1 < n → 0 ≤ c → (g : ZMod n) = G → (h : ZMod n) = H → (c : ZMod n) = C →
        proof.Represents n p →
        (Go.validateRangeProof big lower upper [c, n, g, h] proof.toArray = true ↔
          HPAKErangeProof.validateRangeProof proof ⟨⟨n, g, h⟩, c⟩ ⟨lower, upper⟩ = .ok ())) := by
  constructor
  · intro lower upper c N g h array sized cNonneg accepted
    rw [← RangeProof.toArray_fromArray sized]
    exact Go.validateRangeProof_of_java big cNonneg accepted
  · intro n g h c G H C proof p lower upper large cNonneg gNamed hNamed cNamed represents
    have : NeZero n := ⟨by omega⟩
    exact (Go.validateRangeProof_eq_true_iff big gNamed hNamed cNamed cNonneg represents
      ⟨lower, upper⟩).trans
      (validateRangeProof_eq_ok_iff large gNamed hNamed cNamed represents ⟨lower, upper⟩).symm

/-- The agreement at `N = 15` under Go 1.7's `ModInverse`: the honest proof for `2` in
`[1, 3]`, and a proof whose group elements are all `1`. -/
theorem validateRangeProof_go_java_fifteen :
    (∃ (commitment : Commitment) (proof : RangeProof),
      TTPGenerator.commit ⟨15, 2, 7⟩ 2 5 = .ok commitment ∧
      Go.validateRangeProof Go.MathBig.go17 1 3 [commitment.commitmentValue, 15, 2, 7]
        proof.toArray = true) ∧
    (Go.validateRangeProof Go.MathBig.go17 1 3 [4, (15 : ℕ), 2, 7]
        (RangeProof.ofGroup (⟨⟨0, 0, 0, 0⟩, 1, ⟨0, 0, 0, 0⟩, 1, ⟨0, 0, 0, 0⟩, 1, 1, 1, 1, 0, 0, 0, 0⟩ :
          GroupRangeProof (ZMod 15)ˣ)).toArray = true ↔
      HPAKErangeProof.validateRangeProof
        (RangeProof.ofGroup (⟨⟨0, 0, 0, 0⟩, 1, ⟨0, 0, 0, 0⟩, 1, ⟨0, 0, 0, 0⟩, 1, 1, 1, 1, 0, 0, 0, 0⟩ :
          GroupRangeProof (ZMod 15)ˣ)) ⟨⟨(15 : ℕ), 2, 7⟩, 4⟩ ⟨1, 3⟩ = .ok ()) := by
  constructor
  · obtain ⟨c, proof, committed, cNonneg, accepted⟩ := honestProof_fifteen_accepted
    exact ⟨_, proof, committed, (validateRangeProof_go_java Go.MathBig.go17).1 1 3 c 15 2 7
      proof.toArray (RangeProof.length_toArray proof) cNonneg accepted⟩
  · exact (validateRangeProof_go_java Go.MathBig.go17).2 15 2 7 4
      (ZMod.unitOfCoprime 2 (by decide)) (ZMod.unitOfCoprime 7 (by decide))
      (ZMod.unitOfCoprime 4 (by decide)) _ _ 1 3 (by norm_num) (by norm_num) (by decide)
      (by decide) (by decide) (RangeProof.represents_ofGroup _)

/-- The 22 entries of a proof modulo `1`: each challenge `calculateHash(0, 0)`, `x = y = 1`,
and `0` elsewhere. -/
def modulusOneArray : List ℤ :=
  let C := DigestUtil.calculateHash [0, 0]
  [0, 0, 0, 0, 0, C, 0, 0, 0, 0, C, 0, 0, 0, C, 0, 0, 0, 0, 0, 1, 1]

/-- Modulo `1` every recomputed witness is `0`, so the Go verifier accepts `modulusOneArray`;
the Java verifier finds `c2 = 0` and rejects it at its zero guard. -/
theorem validateRangeProof_modulus_one :
    Go.validateRangeProof Go.MathBig.bezout 0 0 [0, 1, 0, 0] modulusOneArray = true ∧
      HPAKErangeProof.validateRangeProof (RangeProof.fromArray modulusOneArray) ⟨⟨1, 0, 0⟩, 0⟩
        ⟨0, 0⟩ ≠ .ok () := by
  constructor
  · simp [Go.validateRangeProof, Go.hpakeSquareValidateZeroKnowledgeProof,
      Go.hpakeEqualityConstraintValidateZeroKnowledgeProof, Go.mod,
      Go.calculateHash_pair le_rfl le_rfl, modulusOneArray]
  · intro accepted
    simp only [HPAKErangeProof.validateRangeProof, bind_eq_ok_iff, exists_unit_ok_and,
      HPAKErangeProof.rethrow_eq_ok_iff] at accepted
    obtain ⟨lower, -, c1, -, upper, -, c2, c2Ok, cPrimePrime, -, equality, -⟩ := accepted
    have zero : c2 = 0 := by
      rw [← (Go.divMod_of_java Go.MathBig.bezout le_rfl c2Ok).1, Go.mod, Int.emod_one]
    exact (validateZeroKnowledgeProof_nonzero equality).1 zero

/-! ### A commitment that is not a unit -/

/-- For a generator coprime to `N > 1` and a commitment value that is not, the Java verifier
throws `ArithmeticException` from `divMod`'s `modInverse`, whatever the proof and the range. -/
theorem validateRangeProof_commitment_not_coprime {n : ℕ} (large : 1 < n) {g h c : ℤ}
    (gCoprime : Int.gcd g n = 1) (shared : Int.gcd c n ≠ 1) (proof : RangeProof)
    (range : ClosedRange) :
    HPAKErangeProof.validateRangeProof proof ⟨⟨n, g, h⟩, c⟩ range = .error .arithmetic := by
  have : NeZero n := ⟨by omega⟩
  obtain ⟨G, gNamed⟩ := exists_named_of_gcd gCoprime
  have inverseFails : BigInteger.modInverse c n = .error .arithmetic :=
    BigInteger.modInverse_of_not_coprime (by rwa [Int.isCoprime_iff_gcd_eq_one])
  simp only [HPAKErangeProof.validateRangeProof, BigInteger.modPow_unit gNamed, ok_bind,
    BigIntUtil.divMod_unit c (intCast_rep (↑(G ^ (range.start - 1)) : ZMod n))]
  simp only [BigIntUtil.divMod, inverseFails, error_bind]

/-- The commitment value `0` modulo `15`. -/
theorem validateRangeProof_commitment_zero :
    HPAKErangeProof.validateRangeProof (RangeProof.fromArray []) ⟨⟨15, 2, 7⟩, 0⟩ ⟨1, 3⟩ =
      .error .arithmetic :=
  validateRangeProof_commitment_not_coprime (n := 15) (by norm_num) (by decide) (by decide) _ _

end ZkRangeProof
