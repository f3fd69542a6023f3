import ZkRangeProof.Java.Prover
import ZkRangeProof.Protocol.RangeProof

/-! The Java code against the group-level protocol. Read in the units of `ZMod N`, the Java
verifier is exactly `RangeAccepts` (`validateRangeProof_eq_ok_iff`) and the Java prover returns
the representatives of `honestRangeProof` (`calculateRangeProof_unit`); completeness of the
Java pair (`calculateRangeProof_accepted`) then follows from completeness in any group. The
Fiat–Shamir challenge is `DigestUtil.calculateHash` of the two representatives. -/

namespace ZkRangeProof.Java

open ModularUnits FujisakiOkamoto Protocol BigInteger ExceptSeq

variable {n : ℕ}

/-- The challenge both Java sides compute: the hash of the representatives of the two first
messages of an equality proof. -/
def javaChallenge (n : ℕ) (W1 W2 : (ZMod n)ˣ) : ℤ :=
  DigestUtil.calculateHash [rep (W1 : ZMod n), rep (W2 : ZMod n)]

/-- `s` and `t` of checks 9 and 10: the hash of a derived commitment modulo `k1`, plus one. -/
def javaMultiplier (n : ℕ) (c : (ZMod n)ˣ) : ℤ :=
  DigestUtil.calculateHash [rep (c : ZMod n)] % HPAKErangeProof.k1 + 1

theorem one_le_javaMultiplier (c : (ZMod n)ˣ) : 1 ≤ javaMultiplier n c := by
  have := Int.emod_nonneg (DigestUtil.calculateHash [rep (c : ZMod n)])
    (show HPAKErangeProof.k1 ≠ 0 by decide)
  unfold javaMultiplier; omega

namespace RangeProof

/-- The integers of `proof` name the group range proof `p` modulo `n`: every group element
is congruent to its unit, and the transcripts and exponents are equal. -/
structure Represents (n : ℕ) (proof : RangeProof) (p : GroupRangeProof (ZMod n)ˣ) : Prop where
  ecProof2 : proof.ecProof2 = p.ecProof2
  F3 : (proof.sqrProof3.F : ZMod n) = p.F3
  ecProof3 : proof.sqrProof3.ecProof = p.ecProof3
  F4 : (proof.sqrProof4.F : ZMod n) = p.F4
  ecProof4 : proof.sqrProof4.ecProof = p.ecProof4
  cPrime : (proof.cPrime : ZMod n) = p.cPrime
  cPrime1 : (proof.cPrime1 : ZMod n) = p.cPrime1
  cPrime2 : (proof.cPrime2 : ZMod n) = p.cPrime2
  cPrime3 : (proof.cPrime3 : ZMod n) = p.cPrime3
  x : proof.x = p.x
  y : proof.y = p.y
  u : proof.u = p.u
  v : proof.v = p.v

end RangeProof

section Verifier

variable [NeZero n]

theorem validateZeroKnowledgeProof_eq_ok_iff (large : 1 < n) {g1 g2 h1 h2 E F : ℤ}
    {u1 u2 v1 v2 e f : (ZMod n)ˣ} (g1Named : (g1 : ZMod n) = u1)
    (g2Named : (g2 : ZMod n) = u2) (h1Named : (h1 : ZMod n) = v1) (h2Named : (h2 : ZMod n) = v2)
    (eNamed : (E : ZMod n) = e) (fNamed : (F : ZMod n) = f) (ecProof : ECProof) :
    HPAKEEqualityConstraint.validateZeroKnowledgeProof n g1 g2 h1 h2 E F ecProof = .ok () ↔
      EqualityAccepts (javaChallenge n) u1 u2 v1 v2 e f ecProof := by
  rw [HPAKEEqualityConstraint.validateZeroKnowledgeProof_unit g1Named g2Named h1Named h2Named
    eNamed fNamed (ne_zero_of_named large eNamed) (ne_zero_of_named large fNamed),
    ite_ok_error_eq_ok_iff]
  rfl

/-- The Java verifier refines `RangeAccepts`: on a commitment and a proof that name units modulo
`n > 1`, it returns normally exactly when the group-level proof is accepted. -/
theorem validateRangeProof_eq_ok_iff (large : 1 < n) {g h c : ℤ} {G H C : (ZMod n)ˣ}
    (gNamed : (g : ZMod n) = G) (hNamed : (h : ZMod n) = H) (cNamed : (c : ZMod n) = C)
    {proof : RangeProof} {p : GroupRangeProof (ZMod n)ˣ} (represents : proof.Represents n p)
    (range : ClosedRange) :
    HPAKErangeProof.validateRangeProof proof ⟨⟨n, g, h⟩, c⟩ range = .ok () ↔
      RangeAccepts (javaChallenge n) (javaMultiplier n) G H C range.start range.end p := by
  have c1 : BigIntUtil.divMod c (rep (↑(G ^ (range.start - 1)) : ZMod n)) n =
      .ok (rep (↑(lowerCommitment G C range.start) : ZMod n)) :=
    BigIntUtil.divMod_units cNamed (intCast_rep _)
  have c2 : BigIntUtil.divMod (rep (↑(G ^ (range.end + 1)) : ZMod n)) c n =
      .ok (rep (↑(upperCommitment G C range.end) : ZMod n)) :=
    BigIntUtil.divMod_units (intCast_rep _) cNamed
  have product : ((proof.cPrime1 * proof.cPrime2 * proof.cPrime3 : ℤ) : ZMod n) =
      ↑(p.cPrime1 * p.cPrime2 * p.cPrime3) := by
    push_cast [represents.cPrime1, represents.cPrime2, represents.cPrime3]; rfl
  have nineLeft (s : ℤ) : mod (rep (↑(p.cPrime1 ^ s) : ZMod n) * proof.cPrime2 * proof.cPrime3) n =
      .ok (rep (↑(p.cPrime1 ^ s * p.cPrime2 * p.cPrime3) : ZMod n)) := by
    apply mod_unit
    push_cast [intCast_rep, represents.cPrime2, represents.cPrime3]; rfl
  have tenLeft (t : ℤ) : mod (proof.cPrime1 * rep (↑(p.cPrime2 ^ t) : ZMod n) * proof.cPrime3) n =
      .ok (rep (↑(p.cPrime1 * p.cPrime2 ^ t * p.cPrime3) : ZMod n)) := by
    apply mod_unit
    push_cast [intCast_rep, represents.cPrime1, represents.cPrime3]; rfl
  simp only [HPAKErangeProof.validateRangeProof, modPow_unit gNamed, ok_bind, c1, c2,
    mod_unit product, unit_bind_eq_ok_iff, HPAKErangeProof.rethrow_eq_ok_iff,
    HPAKESquare.validateZeroKnowledgeProof,
    validateZeroKnowledgeProof_eq_ok_iff large gNamed (intCast_rep _) hNamed hNamed (intCast_rep _) represents.cPrime,
    validateZeroKnowledgeProof_eq_ok_iff large represents.cPrime represents.F3 hNamed hNamed represents.F3 (intCast_rep _),
    validateZeroKnowledgeProof_eq_ok_iff large gNamed represents.F4 hNamed hNamed represents.F4 represents.cPrime3,
    modPow_unit represents.cPrime1, modPow_unit represents.cPrime2, nineLeft, tenLeft,
    powProduct_unit gNamed hNamed, ite_throw_join_eq_ok_iff, ite_throw_eq_ok_iff, not_not, rep_units_eq_iff, not_le]
  rw [represents.ecProof2, represents.ecProof3, represents.ecProof4, represents.x, represents.y,
    represents.u, represents.v, rangeAccepts_iff]
  rfl

end Verifier

namespace RangeProof

def ofGroup (p : GroupRangeProof (ZMod n)ˣ) : RangeProof :=
  { ecProof2 := p.ecProof2
    sqrProof3 := ⟨rep (p.F3 : ZMod n), p.ecProof3⟩
    sqrProof4 := ⟨rep (p.F4 : ZMod n), p.ecProof4⟩
    cPrime := rep (p.cPrime : ZMod n)
    cPrime1 := rep (p.cPrime1 : ZMod n)
    cPrime2 := rep (p.cPrime2 : ZMod n)
    cPrime3 := rep (p.cPrime3 : ZMod n)
    x := p.x
    y := p.y
    u := p.u
    v := p.v }

theorem represents_ofGroup [NeZero n] (p : GroupRangeProof (ZMod n)ˣ) : (ofGroup p).Represents n p :=
  ⟨rfl, intCast_rep _, rfl, intCast_rep _, rfl, intCast_rep _, intCast_rep _, intCast_rep _,
    intCast_rep _, rfl, rfl, rfl, rfl⟩

end RangeProof

section Prover

variable [NeZero n]

private theorem one_le_modulus : (1 : ℤ) ≤ n := by
  exact_mod_cast Nat.one_le_iff_ne_zero.mpr (NeZero.ne n)

theorem calculateZeroKnowledgeProof_unit {g1 g2 h1 h2 : ℤ} {u1 u2 v1 v2 : (ZMod n)ˣ}
    (g1Named : (g1 : ZMod n) = u1) (g2Named : (g2 : ZMod n) = u2) (h1Named : (h1 : ZMod n) = v1)
    (h2Named : (h2 : ZMod n) = v2) (x r1 r2 : ℤ) (coins : EqualityCoins) :
    ∃ d : EqualityDraws,
      HPAKEEqualityConstraint.calculateZeroKnowledgeProof n g1 g2 h1 h2 x r1 r2 coins =
        .ok (equalityTranscript (javaChallenge n) u1 u2 v1 v2 x r1 r2 d) := by
  have wRange : (1 : ℤ) ≤ 2 ^ (HPAKEEqualityConstraint.l + HPAKEEqualityConstraint.t) *
      HPAKEEqualityConstraint.b - 1 := by
    norm_num [HPAKEEqualityConstraint.l, HPAKEEqualityConstraint.t, HPAKEEqualityConstraint.b]
  have nRange (s : ℕ) : (1 : ℤ) ≤ 2 ^ (HPAKEEqualityConstraint.l + HPAKEEqualityConstraint.t + s) * n - 1 := by
    have : (2 : ℤ) ≤ 2 ^ (HPAKEEqualityConstraint.l + HPAKEEqualityConstraint.t + s) :=
      le_self_pow₀ (by norm_num) (by simp [HPAKEEqualityConstraint.l])
    nlinarith [one_le_modulus (n := n)]
  obtain ⟨w, drawW, -⟩ := createRandomInRange_draw wRange coins.w
  obtain ⟨n1, drawN1, -⟩ := createRandomInRange_draw (nRange HPAKEEqualityConstraint.s1) coins.n1
  obtain ⟨n2, drawN2, -⟩ := createRandomInRange_draw (nRange HPAKEEqualityConstraint.s2) coins.n2
  refine ⟨⟨w, n1, n2⟩, ?_⟩
  simp only [HPAKEEqualityConstraint.calculateZeroKnowledgeProof, drawW, drawN1, drawN2, ok_bind,
    powProduct_unit g1Named h1Named, powProduct_unit g2Named h2Named, pure_eq_ok]
  rfl

theorem calculateSquareProof_unit {g h : ℤ} {u v : (ZMod n)ˣ} (gNamed : (g : ZMod n) = u)
    (hNamed : (h : ZMod n) = v) (x r1 : ℤ) (coins : SquareCoins) :
    ∃ d : SquareDraws,
      HPAKESquare.calculateZeroKnowledgeProof n g h x r1 coins =
        .ok ⟨rep (↑(squareProof (javaChallenge n) u v x r1 d).1 : ZMod n),
          (squareProof (javaChallenge n) u v x r1 d).2⟩ := by
  have keyRange : -(2 ^ TTPGenerator.s * (n : ℤ) - 1) ≤ 2 ^ TTPGenerator.s * n - 1 := by
    have : (1 : ℤ) ≤ 2 ^ TTPGenerator.s * n := one_le_mul_of_one_le_of_one_le (one_le_pow₀ (by norm_num)) one_le_modulus
    omega
  obtain ⟨r2, drawR2, -⟩ := createRandomInRange_draw keyRange coins.r2
  obtain ⟨d, equality⟩ := calculateZeroKnowledgeProof_unit gNamed
    (intCast_rep (↑(commit u v x r2) : ZMod n)) hNamed hNamed x r2 (r1 - r2 * x) coins.equality
  refine ⟨⟨r2, d⟩, ?_⟩
  simp only [HPAKESquare.calculateZeroKnowledgeProof, TTPGenerator.generateKey, drawR2, ok_bind,
    powProduct_unit gNamed hNamed, equality, pure_eq_ok]
  rfl

/-- Steps 1 to 3 of `calculateRangeProof` on units, for every coin: `c1` and `c2` are the
derived commitments, and the draws of `r'`, `w ≥ 1` and `r''` give the honest equality proof
and the honest first square proof. -/
theorem calculateRangeProof_steps {g h c : ℤ} {G H : (ZMod n)ˣ} (gNamed : (g : ZMod n) = G)
    (hNamed : (h : ZMod n) = H) {m r : ℤ} (cNamed : (c : ZMod n) = ↑(commit G H m r)) (a b : ℤ)
    (coins : RangeProofCoins) :
    ∃ (rPrime w rPrimePrime : ℤ) (d2 : EqualityDraws) (d3 : SquareDraws), 1 ≤ w ∧
      BigIntUtil.divMod c (rep (↑(G ^ (a - 1)) : ZMod n)) n =
        .ok (rep (↑(lowerCommitment G (commit G H m r) a) : ZMod n)) ∧
      BigIntUtil.divMod (rep (↑(G ^ (b + 1)) : ZMod n)) c n =
        .ok (rep (↑(upperCommitment G (commit G H m r) b) : ZMod n)) ∧
      createRandomInRange 0 HPAKErangeProof.k2 coins.rPrime = .ok rPrime ∧
      HPAKEEqualityConstraint.calculateZeroKnowledgeProof n g
          (rep (↑(lowerCommitment G (commit G H m r) a) : ZMod n)) h h (b - m + 1) (-r) rPrime
          coins.equality2 =
        .ok (equalityTranscript (javaChallenge n) G (lowerCommitment G (commit G H m r) a) H H
          (b - m + 1) (-r) rPrime d2) ∧
      createRandomInRange 1 HPAKErangeProof.k2 coins.w = .ok w ∧
      createRandomInRange 0 HPAKErangeProof.k2 coins.rPrimePrime = .ok rPrimePrime ∧
      HPAKESquare.calculateZeroKnowledgeProof n
          (rep (↑(commit (lowerCommitment G (commit G H m r) a) H (b - m + 1) rPrime) : ZMod n))
          h w rPrimePrime coins.square3 =
        .ok ⟨rep (↑(squareProof (javaChallenge n) (commit (lowerCommitment G (commit G H m r) a) H
            (b - m + 1) rPrime) H w rPrimePrime d3).1 : ZMod n),
          (squareProof (javaChallenge n) (commit (lowerCommitment G (commit G H m r) a) H
            (b - m + 1) rPrime) H w rPrimePrime d3).2⟩ := by
  have k2Nonneg : (0 : ℤ) ≤ HPAKErangeProof.k2 := by unfold HPAKErangeProof.k2; positivity
  have k2Positive : (1 : ℤ) ≤ HPAKErangeProof.k2 := one_le_pow₀ (by norm_num)
  obtain ⟨rPrime, drawRPrime, -⟩ := createRandomInRange_draw k2Nonneg coins.rPrime
  obtain ⟨d2, equality2⟩ := calculateZeroKnowledgeProof_unit gNamed (intCast_rep _) hNamed hNamed
    (b - m + 1) (-r) rPrime coins.equality2
  obtain ⟨w, drawW, wLow, -⟩ := createRandomInRange_draw k2Positive coins.w
  obtain ⟨rPrimePrime, drawRPrimePrime, -⟩ := createRandomInRange_draw k2Nonneg coins.rPrimePrime
  obtain ⟨d3, square3⟩ := calculateSquareProof_unit (intCast_rep _) hNamed w rPrimePrime
    coins.square3
  exact ⟨rPrime, w, rPrimePrime, d2, d3, wLow, BigIntUtil.divMod_units cNamed (intCast_rep _),
    BigIntUtil.divMod_units (intCast_rep _) cNamed, drawRPrime, equality2, drawW, drawRPrimePrime,
    square3⟩

/-- The Java prover refines the honest prover: for `(m - a + 1) (b - m + 1) ≥ 0` it returns, for
every coin, the representatives of `honestRangeProof` at draws that `takeRandomM` splits. -/
theorem calculateRangeProof_unit {g h c : ℤ} {G H : (ZMod n)ˣ} (gNamed : (g : ZMod n) = G)
    (hNamed : (h : ZMod n) = H) {m r : ℤ} (cNamed : (c : ZMod n) = ↑(commit G H m r)) {a b : ℤ}
    (nonneg : 0 ≤ (m - a + 1) * (b - m + 1)) (coins : RangeProofCoins) :
    ∃ d : RangeDraws, 1 ≤ d.w ∧ d.Split a b m ∧
      HPAKErangeProof.calculateRangeProof ⟨⟨⟨n, g, h⟩, c⟩, m, r⟩ ⟨a, b⟩ coins =
        .ok (RangeProof.ofGroup (honestRangeProof (javaChallenge n) (javaMultiplier n) G H
          (commit G H m r) a b m r d)) := by
  obtain ⟨rPrime, w, rPrimePrime, d2, d3, wLow, c1, c2, drawRPrime, equality2, drawW,
    drawRPrimePrime, square3⟩ := calculateRangeProof_steps gNamed hNamed cNamed a b coins
  set C1 := lowerCommitment G (commit G H m r) a
  have hiddenNonneg : 0 ≤ w * w * (m - a + 1) * (b - m + 1) := by
    rw [mul_assoc]; exact mul_nonneg (mul_self_nonneg w) nonneg
  obtain ⟨m1, m2, m4, split, m1Nonneg, m2Nonneg, -, sum⟩ :=
    HPAKErangeProof.takeRandomM_spec hiddenNonneg coins.m4 coins.m1
  obtain ⟨r1, r2, shares⟩ := HPAKErangeProof.takeRandomR_spec (Int.natCast_nonneg n)
    (w * w * ((b - m + 1) * r + rPrime) + rPrimePrime) coins.res0 coins.res1
  have cPrime3 : BigIntUtil.divMod
      (rep (↑(commit (commit C1 H (b - m + 1) rPrime) H (w * w) rPrimePrime) : ZMod n))
      (rep (↑(commit G H m1 r1) : ZMod n) * rep (↑(commit G H m2 r2) : ZMod n)) n =
      .ok (rep (↑(commit (commit C1 H (b - m + 1) rPrime) H (w * w) rPrimePrime *
        (commit G H m1 r1 * commit G H m2 r2)⁻¹) : ZMod n)) := by
    apply BigIntUtil.divMod_units (intCast_rep _)
    push_cast [intCast_rep]; rfl
  obtain ⟨d4, square4⟩ := calculateSquareProof_unit gNamed hNamed m4
    (w * w * ((b - m + 1) * r + rPrime) + rPrimePrime - r1 - r2) coins.square4
  refine ⟨⟨rPrime, d2, w, rPrimePrime, d3, m1, m2, m4, r1, r2, d4⟩, wLow,
    ⟨m1Nonneg, m2Nonneg, ?_⟩, ?_⟩
  · rw [RangeDraws.hidden]; exact sum
  simp only [HPAKErangeProof.calculateRangeProof, modPow_unit gNamed, ok_bind, c1, c2, drawRPrime,
    powProduct_unit (intCast_rep (↑C1 : ZMod n)) hNamed, equality2, drawW, drawRPrimePrime,
    powProduct_unit (intCast_rep (↑(commit C1 H (b - m + 1) rPrime) : ZMod n)) hNamed, square3,
    split, shares, powProduct_unit gNamed hNamed, cPrime3, square4, pure_eq_ok]
  rfl

/-- For `(m - a + 1) (b - m + 1) < 0` the Java prover raises, for every coin: steps 1 to 3
succeed on units, and step 4 asks `takeRandomM` to split `w ^ 2 (m - a + 1) (b - m + 1)`,
which is negative as `w ≥ 1`. -/
theorem calculateRangeProof_of_neg {g h c : ℤ} {G H : (ZMod n)ˣ} (gNamed : (g : ZMod n) = G)
    (hNamed : (h : ZMod n) = H) {m r : ℤ} (cNamed : (c : ZMod n) = ↑(commit G H m r)) {a b : ℤ}
    (negative : (m - a + 1) * (b - m + 1) < 0) (coins : RangeProofCoins) :
    HPAKErangeProof.calculateRangeProof ⟨⟨⟨n, g, h⟩, c⟩, m, r⟩ ⟨a, b⟩ coins =
      .error (.illegalArgument (some "Negative number does not have square root")) := by
  obtain ⟨rPrime, w, rPrimePrime, d2, d3, wLow, c1, c2, drawRPrime, equality2, drawW,
    drawRPrimePrime, square3⟩ := calculateRangeProof_steps gNamed hNamed cNamed a b coins
  set C1 := lowerCommitment G (commit G H m r) a
  have hiddenNegative : w * w * (m - a + 1) * (b - m + 1) < 0 := by
    rw [mul_assoc]
    exact mul_neg_of_pos_of_neg (mul_pos (by omega) (by omega)) negative
  simp only [HPAKErangeProof.calculateRangeProof, modPow_unit gNamed, ok_bind, c1, c2, drawRPrime,
    powProduct_unit (intCast_rep (↑C1 : ZMod n)) hNamed, equality2, drawW, drawRPrimePrime,
    powProduct_unit (intCast_rep (↑(commit C1 H (b - m + 1) rPrime) : ZMod n)) hNamed, square3,
    HPAKErangeProof.takeRandomM_of_neg hiddenNegative, error_bind]

/-- Completeness of the Java prover against the Java verifier, for every coin, whenever
`(m - a + 1) (b - m + 1) > 0`: the proof it returns for `c = g ^ m * h ^ r` is accepted. -/
theorem calculateRangeProof_accepted (large : 1 < n) {g h c : ℤ} {G H : (ZMod n)ˣ}
    (gNamed : (g : ZMod n) = G) (hNamed : (h : ZMod n) = H) {m r : ℤ}
    (cNamed : (c : ZMod n) = ↑(commit G H m r)) {a b : ℤ} (inside : 0 < (m - a + 1) * (b - m + 1))
    (coins : RangeProofCoins) :
    ∃ proof, HPAKErangeProof.calculateRangeProof ⟨⟨⟨n, g, h⟩, c⟩, m, r⟩ ⟨a, b⟩ coins = .ok proof ∧
      HPAKErangeProof.validateRangeProof proof ⟨⟨n, g, h⟩, c⟩ ⟨a, b⟩ = .ok () := by
  obtain ⟨d, wLow, split, proved⟩ := calculateRangeProof_unit gNamed hNamed cNamed inside.le coins
  have hidden : 0 < d.hidden a b m := by
    rw [RangeDraws.hidden, mul_assoc]
    exact mul_pos (mul_pos (by omega) (by omega)) inside
  have accepted := honestRangeProof_accepts (javaChallenge n) (javaMultiplier n) (g := G) (h := H)
    (r := r) one_le_javaMultiplier split hidden
  exact ⟨_, proved, (validateRangeProof_eq_ok_iff large gNamed hNamed cNamed
    (RangeProof.represents_ofGroup _) ⟨a, b⟩).mpr accepted⟩

end Prover

end ZkRangeProof.Java
