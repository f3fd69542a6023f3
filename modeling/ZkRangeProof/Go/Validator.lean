import ZkRangeProof.Go.ByteConversion
import ZkRangeProof.Java.Refinement

/-! The Go package `zkrangeproof`: `ValidateRangeProof` with its two sigma-proof checks and
the `big.Int` helpers it calls. The proof arrives as the 22 numbers of
`RangeProofTests.toArray` and the commitment as `[c, N, g, h]`; the checks are Java's, in
Java's order, without Java's zero guard and with `ModInverse` returning a number where Java
throws. Every call that returns normally in Java returns the same number here when its argument
is not negative (`modPow_of_java`), and on units the verifier is `RangeAccepts`
(`validateRangeProof_eq_true_iff`). The one argument that can be negative is the commitment
value `c`, which `ModInverse` inverts: Go 1.7 to `0`, Go 1.8 and 1.9 as Java does. -/

namespace ZkRangeProof.Go

open Java ModularUnits FujisakiOkamoto Protocol ExceptSeq

variable (big : MathBig)

def k1 : ℤ := 2 ^ 160

def add (x y : ℤ) : ℤ := x + y

def sub (x y : ℤ) : ℤ := x - y

/-- `Mod(base, modulo)`: `big.Int.Mod`, the Euclidean remainder. It panics on a zero modulus;
every call passes `N > 0` or `k1`. -/
def mod (base modulo : ℤ) : ℤ := base % modulo

def multiply (factor1 factor2 : ℤ) : ℤ := factor1 * factor2

def modInverse (base modulo : ℤ) : ℤ := big.modInverse base modulo

/-- `ModPow(base, exponent, modulo)`: `Exp` for a non-negative exponent, else the inverse of
the power by the absolute value. -/
def modPow (base exponent modulo : ℤ) : ℤ :=
  if exponent ≥ 0 then MathBig.exp base exponent modulo
  else modInverse big (MathBig.exp base |exponent| modulo) modulo

/-- `CalculateHash(b1, b2)`: SHA-256 of `ToByteArray(b1)` and, unless `b2` is nil, of
`ToByteArray(b2)`, decoded by `FromByteArray`. The source returns both results of
`FromByteArray` from a function with one result, which Go rejects; read here as the integer,
whose error is nil on the 32-byte digest. -/
def calculateHash (b1 : ℤ) (b2 : Option ℤ) : ℤ :=
  let written := ByteConversion.toByteArray b1 ++ (b2.map ByteConversion.toByteArray).getD []
  match ByteConversion.fromByteArray (Sha256.hash written) with
  | .ok value => value
  | .error _ => 0

/-- `HPAKEEqualityConstraintValidateZeroKnowledgeProof(N, g1, g2, h1, h2, E, F, ecProof)`;
its callers pass four-element slices `[C, D, D1, D2]`. -/
def hpakeEqualityConstraintValidateZeroKnowledgeProof (N g1 g2 h1 h2 E F : ℤ)
    (ecProof : List ℤ) : Bool :=
  let C := ecProof.getD 0 0
  let D := ecProof.getD 1 0
  let D1 := ecProof.getD 2 0
  let D2 := ecProof.getD 3 0
  let W1 := mod (multiply (multiply (modPow big g1 D N) (modPow big h1 D1 N))
    (modPow big E (multiply C (-1)) N)) N
  let W2 := mod (multiply (multiply (modPow big g2 D N) (modPow big h2 D2 N))
    (modPow big F (multiply C (-1)) N)) N
  decide (C = calculateHash W1 (some W2))

/-- `HPAKESquareValidateZeroKnowledgeProof(N, g, h, E, sqProof)` on `[F, C, D, D1, D2]`. -/
def hpakeSquareValidateZeroKnowledgeProof (N g h E : ℤ) (sqProof : List ℤ) : Bool :=
  let F := sqProof.getD 0 0
  let ecProof := sqProof.drop 1
  hpakeEqualityConstraintValidateZeroKnowledgeProof big N g F h h F E ecProof

/-- `ValidateRangeProof(lowerLimit, upperLimit, commitment, proof)`. -/
def validateRangeProof (lowerLimit upperLimit : ℤ) (commitment proof : List ℤ) : Bool :=
  if commitment.length < 4 ∨ proof.length < 22 then false else
  let c := commitment.getD 0 0
  let N := commitment.getD 1 0
  let g := commitment.getD 2 0
  let h := commitment.getD 3 0
  if N ≤ 0 then false else
  let equalityProof2 := (proof.drop 14).take 4
  let squareProof3 := (proof.drop 4).take 5
  let squareProof4 := (proof.drop 9).take 5
  let cPrime := proof.getD 0 0
  let cPrime1 := proof.getD 1 0
  let cPrime2 := proof.getD 2 0
  let cPrime3 := proof.getD 3 0
  let u := proof.getD 18 0
  let v := proof.getD 19 0
  let x := proof.getD 20 0
  let y := proof.getD 21 0
  -- derived information
  let tmp := modPow big g (sub lowerLimit 1) N
  let c1 := mod (multiply (modInverse big tmp N) c) N
  let c2 := mod (multiply (modPow big g (add upperLimit 1) N) (modInverse big c N)) N
  let cPrimePrime := mod (multiply (multiply cPrime1 cPrime2) cPrime3) N
  if !hpakeEqualityConstraintValidateZeroKnowledgeProof big N g c1 h h c2 cPrime equalityProof2
  then false else
  let s := add (mod (calculateHash c1 none) k1) 1
  let t := add (mod (calculateHash c2 none) k1) 1
  if !hpakeSquareValidateZeroKnowledgeProof big N cPrime h cPrimePrime squareProof3 then false else
  if !hpakeSquareValidateZeroKnowledgeProof big N g h cPrime3 squareProof4 then false else
  let nineLeft := mod (multiply (multiply (modPow big cPrime1 s N) cPrime2) cPrime3) N
  let nineRight := mod (multiply (modPow big g x N) (modPow big h u N)) N
  if nineLeft ≠ nineRight then false else
  let tenLeft := mod (multiply (multiply cPrime1 (modPow big cPrime2 t N)) cPrime3) N
  let tenRight := mod (multiply (modPow big g y N) (modPow big h v N)) N
  if tenLeft ≠ tenRight then false else
  if x ≤ 0 then false else
  if y ≤ 0 then false else
  true

/-! ### Where Java returns a number, Go returns the same one -/

section Java

variable {big} {N x e v : ℤ}

theorem modInverse_of_java (nonneg : 0 ≤ x) (positive : 0 < N)
    (ok : BigInteger.modInverse x N = .ok v) : modInverse big x N = v := by
  unfold BigInteger.modInverse at ok
  rw [if_neg (not_le.mpr positive)] at ok
  split at ok
  · rename_i coprime
    cases ok
    exact big.modInverse_coprime x N nonneg positive coprime
  · cases ok

theorem modPow_of_java (positive : 0 < N) (ok : BigInteger.modPow x e N = .ok v) :
    modPow big x e N = v := by
  unfold BigInteger.modPow at ok
  rw [if_neg (not_le.mpr positive)] at ok
  unfold modPow
  split at ok
  · rename_i nonneg
    cases ok
    rw [if_pos nonneg, MathBig.exp_of_pos positive]
  · rename_i negative
    rw [if_neg negative, MathBig.exp_of_pos positive]
    rw [Int.abs_eq_natAbs, Int.toNat_natCast]
    exact modInverse_of_java (Int.emod_nonneg _ positive.ne') positive ok

theorem positive_of_mod (ok : BigInteger.mod x N = .ok v) : 0 < N := by
  unfold BigInteger.mod at ok
  split at ok
  · cases ok
  · omega

theorem mod_of_java (ok : BigInteger.mod x N = .ok v) : mod x N = v ∧ 0 ≤ v := by
  have computed := ok
  rw [BigInteger.mod_of_pos (positive_of_mod ok)] at computed
  cases computed
  exact ⟨rfl, BigInteger.mod_nonneg ok⟩

variable (big)

theorem powProduct_of_java {g h r : ℤ} (ok : powProduct N g x h r = .ok v) :
    mod (multiply (modPow big g x N) (modPow big h r N)) N = v ∧ 0 ≤ v := by
  simp only [powProduct, bind_eq_ok_iff] at ok
  obtain ⟨gx, gxOk, hr, hrOk, modOk⟩ := ok
  have positive := positive_of_mod modOk
  rw [multiply, modPow_of_java positive gxOk, modPow_of_java positive hrOk]
  exact mod_of_java modOk

theorem recomputeWitness_of_java {g h E c D D1 : ℤ}
    (ok : HPAKEEqualityConstraint.recomputeWitness N g h E c D D1 = .ok v) :
    mod (multiply (multiply (modPow big g D N) (modPow big h D1 N))
      (modPow big E (multiply c (-1)) N)) N = v ∧ 0 ≤ v := by
  simp only [HPAKEEqualityConstraint.recomputeWitness, bind_eq_ok_iff] at ok
  obtain ⟨gD, gDOk, hD1, hD1Ok, Ec, EcOk, modOk⟩ := ok
  have positive := positive_of_mod modOk
  rw [multiply, multiply, multiply, mul_neg_one, modPow_of_java positive gDOk,
    modPow_of_java positive hD1Ok, modPow_of_java positive EcOk]
  exact mod_of_java modOk

/-- Java's `divMod(c, tmp, N)` is Go's `Mod(Multiply(ModInverse(tmp, N), c), N)` for every
`tmp ≥ 0`; Go 1.7 inverts a negative `tmp` to `0`. -/
theorem divMod_of_java {a b : ℤ} (nonneg : 0 ≤ b) (ok : BigIntUtil.divMod a b N = .ok v) :
    mod (multiply (modInverse big b N) a) N = v ∧ 0 ≤ v := by
  simp only [BigIntUtil.divMod, bind_eq_ok_iff] at ok
  obtain ⟨inverse, inverseOk, modOk⟩ := ok
  rw [multiply, modInverse_of_java nonneg (positive_of_mod modOk) inverseOk, mul_comm]
  exact mod_of_java modOk

end Java

/-! ### Both hashes read the same bytes -/

theorem decode_digest (message : List UInt8) :
    (match ByteConversion.fromByteArray (Sha256.hash message) with
      | .ok value => value
      | .error _ => 0) = BigInteger.ofByteArray (Sha256.hash message) := by
  obtain ⟨first, rest, digest⟩ :=
    List.exists_cons_of_ne_nil (List.ne_nil_of_length_pos (by simp : 0 < (Sha256.hash message).length))
  rw [digest, ByteConversion.fromByteArray_cons]
  rfl

theorem calculateHash_single {b1 : ℤ} (nonneg : 0 ≤ b1) :
    calculateHash b1 none = DigestUtil.calculateHash [b1] := by
  simp only [calculateHash, Option.map_none, Option.getD_none, DigestUtil.calculateHash,
    List.flatMap_cons, List.flatMap_nil, ByteConversion.toByteArray_of_nonneg nonneg]
  exact decode_digest _

theorem calculateHash_pair {b1 b2 : ℤ} (nonneg1 : 0 ≤ b1) (nonneg2 : 0 ≤ b2) :
    calculateHash b1 (some b2) = DigestUtil.calculateHash [b1, b2] := by
  simp only [calculateHash, Option.map_some, Option.getD_some, DigestUtil.calculateHash,
    List.flatMap_cons, List.flatMap_nil, List.append_nil,
    ByteConversion.toByteArray_of_nonneg nonneg1, ByteConversion.toByteArray_of_nonneg nonneg2]
  exact decode_digest _

theorem add_mod_calculateHash_single {z : ℤ} (nonneg : 0 ≤ z) :
    add (mod (calculateHash z none) k1) 1 =
      DigestUtil.calculateHash [z] % HPAKErangeProof.k1 + 1 := by
  rw [calculateHash_single nonneg]
  rfl

/-! ### Every proof the Java verifier accepts, the Go verifier accepts -/

section JavaAccepts

variable {big} {N : ℤ}

theorem hpakeEqualityConstraintValidateZeroKnowledgeProof_of_java {g1 g2 h1 h2 E F : ℤ}
    {ecProof : ECProof}
    (accepted : HPAKEEqualityConstraint.validateZeroKnowledgeProof N g1 g2 h1 h2 E F ecProof = .ok ()) :
    hpakeEqualityConstraintValidateZeroKnowledgeProof big N g1 g2 h1 h2 E F
      [ecProof.c, ecProof.D, ecProof.D1, ecProof.D2] = true := by
  simp only [HPAKEEqualityConstraint.validateZeroKnowledgeProof, ite_throw_join_eq_ok_iff,
    bind_eq_ok_iff, ite_throw_eq_ok_iff, not_not] at accepted
  obtain ⟨-, W1, W1Ok, W2, W2Ok, same⟩ := accepted
  obtain ⟨W1Eq, W1Nonneg⟩ := recomputeWitness_of_java big W1Ok
  obtain ⟨W2Eq, W2Nonneg⟩ := recomputeWitness_of_java big W2Ok
  simp only [hpakeEqualityConstraintValidateZeroKnowledgeProof, List.getD_cons_zero,
    List.getD_cons_succ, W1Eq, W2Eq, calculateHash_pair W1Nonneg W2Nonneg, decide_eq_true_eq]
  exact same

variable (big) in
/-- Every proof the Java verifier accepts for a commitment value `c ≥ 0`, laid out by
`toArray`, the Go verifier accepts. -/
theorem validateRangeProof_of_java {proof : RangeProof} {N g h c lower upper : ℤ} (cNonneg : 0 ≤ c)
    (accepted : HPAKErangeProof.validateRangeProof proof ⟨⟨N, g, h⟩, c⟩ ⟨lower, upper⟩ = .ok ()) :
    validateRangeProof big lower upper [c, N, g, h] proof.toArray = true := by
  simp only [HPAKErangeProof.validateRangeProof, bind_eq_ok_iff, exists_unit_ok_and,
    HPAKErangeProof.rethrow_eq_ok_iff, ite_throw_join_eq_ok_iff, ite_throw_eq_ok_iff, not_not,
    not_le, HPAKESquare.validateZeroKnowledgeProof] at accepted
  obtain ⟨tmp, tmpOk, c1, c1Ok, tmp2, tmp2Ok, c2, c2Ok, cPrimePrime, cPrimePrimeOk, equality,
    square3, square4, a, aOk, nineLeft, nineLeftOk, nineRight, nineRightOk, nine, b, bOk, tenLeft,
    tenLeftOk, tenRight, tenRightOk, ten, xPositive, yPositive⟩ := accepted
  have positive := positive_of_mod cPrimePrimeOk
  have tmpGo : modPow big g (sub lower 1) N = tmp := modPow_of_java positive tmpOk
  obtain ⟨c1Go, c1Nonneg⟩ := divMod_of_java big (BigInteger.modPow_nonneg tmpOk) c1Ok
  have tmp2Go : modPow big g (add upper 1) N = tmp2 := modPow_of_java positive tmp2Ok
  obtain ⟨c2Go, c2Nonneg⟩ := divMod_of_java big cNonneg c2Ok
  rw [multiply, mul_comm, ← multiply, ← tmp2Go] at c2Go
  have cPrimePrimeGo : mod (multiply (multiply proof.cPrime1 proof.cPrime2) proof.cPrime3) N =
      cPrimePrime := (mod_of_java cPrimePrimeOk).1
  have sGo := add_mod_calculateHash_single c1Nonneg
  have tGo := add_mod_calculateHash_single c2Nonneg
  have nineGo : mod (multiply (multiply (modPow big proof.cPrime1
      (DigestUtil.calculateHash [c1] % HPAKErangeProof.k1 + 1) N) proof.cPrime2) proof.cPrime3) N =
        nineLeft := by
    rw [modPow_of_java positive aOk]
    exact (mod_of_java nineLeftOk).1
  have tenGo : mod (multiply (multiply proof.cPrime1 (modPow big proof.cPrime2
      (DigestUtil.calculateHash [c2] % HPAKErangeProof.k1 + 1) N)) proof.cPrime3) N =
        tenLeft := by
    rw [modPow_of_java positive bOk]
    exact (mod_of_java tenLeftOk).1
  simp only [validateRangeProof, RangeProof.toArray, List.length_cons, List.length_nil,
    List.getD_cons_zero, List.getD_cons_succ, List.drop_succ_cons, List.drop_zero,
    List.take_succ_cons, List.take_zero, Nat.reduceAdd, Nat.lt_irrefl, or_self,
    if_false, not_le.mpr positive, tmpGo, c1Go, c2Go, cPrimePrimeGo, sGo, tGo, nineGo, tenGo,
    (powProduct_of_java big nineRightOk).1, (powProduct_of_java big tenRightOk).1,
    hpakeSquareValidateZeroKnowledgeProof, List.drop_succ_cons,
    hpakeEqualityConstraintValidateZeroKnowledgeProof_of_java equality,
    hpakeEqualityConstraintValidateZeroKnowledgeProof_of_java square3,
    hpakeEqualityConstraintValidateZeroKnowledgeProof_of_java square4, nine, ten,
    not_le.mpr xPositive, not_le.mpr yPositive, Bool.not_true, Bool.false_eq_true, ne_eq,
    not_true_eq_false]

end JavaAccepts

/-! ### On units the Go verifier is `RangeAccepts` -/

section Units

variable {n : ℕ} [NeZero n] {x : ℤ} {u : (ZMod n)ˣ}

private theorem modulus_pos : (0 : ℤ) < n := by
  exact_mod_cast Nat.pos_of_ne_zero (NeZero.ne n)

theorem modPow_unit (named : (x : ZMod n) = u) (e : ℤ) :
    modPow big x e n = rep (↑(u ^ e) : ZMod n) :=
  modPow_of_java modulus_pos (BigInteger.modPow_unit named e)

theorem mod_unit (named : (x : ZMod n) = u) : mod x n = rep (u : ZMod n) :=
  (mod_of_java (BigInteger.mod_unit named)).1

theorem hpakeEqualityConstraintValidateZeroKnowledgeProof_unit {g1 g2 h1 h2 E F : ℤ}
    {u1 u2 v1 v2 e f : (ZMod n)ˣ} (g1Named : (g1 : ZMod n) = u1) (g2Named : (g2 : ZMod n) = u2)
    (h1Named : (h1 : ZMod n) = v1) (h2Named : (h2 : ZMod n) = v2) (eNamed : (E : ZMod n) = e)
    (fNamed : (F : ZMod n) = f) (ecProof : ECProof) :
    hpakeEqualityConstraintValidateZeroKnowledgeProof big n g1 g2 h1 h2 E F
        [ecProof.c, ecProof.D, ecProof.D1, ecProof.D2] =
      decide (EqualityAccepts (javaChallenge n) u1 u2 v1 v2 e f ecProof) := by
  obtain ⟨W1Eq, -⟩ := recomputeWitness_of_java big
    (HPAKEEqualityConstraint.recomputeWitness_unit g1Named h1Named eNamed ecProof.c ecProof.D ecProof.D1)
  obtain ⟨W2Eq, -⟩ := recomputeWitness_of_java big
    (HPAKEEqualityConstraint.recomputeWitness_unit g2Named h2Named fNamed ecProof.c ecProof.D ecProof.D2)
  simp only [hpakeEqualityConstraintValidateZeroKnowledgeProof, List.getD_cons_zero,
    List.getD_cons_succ, W1Eq, W2Eq, calculateHash_pair (rep_nonneg _) (rep_nonneg _)]
  rfl

/-- The Go verifier refines `RangeAccepts`: on a commitment and a proof that name units it
returns true exactly when the group-level proof is accepted. -/
theorem validateRangeProof_eq_true_iff {g h c : ℤ} {G H C : (ZMod n)ˣ}
    (gNamed : (g : ZMod n) = G) (hNamed : (h : ZMod n) = H) (cNamed : (c : ZMod n) = C)
    (cNonneg : 0 ≤ c)
    {proof : RangeProof} {p : GroupRangeProof (ZMod n)ˣ} (represents : proof.Represents n p)
    (range : ClosedRange) :
    validateRangeProof big range.start range.end [c, n, g, h] proof.toArray = true ↔
      RangeAccepts (javaChallenge n) (javaMultiplier n) G H C range.start range.end p := by
  have tmpGo : modPow big g (sub range.start 1) n = rep (↑(G ^ (range.start - 1)) : ZMod n) :=
    modPow_unit big gNamed _
  have c1Go : mod (multiply (modInverse big (rep (↑(G ^ (range.start - 1)) : ZMod n)) n) c) n =
      rep (↑(lowerCommitment G C range.start) : ZMod n) :=
    (divMod_of_java big (rep_nonneg _) (BigIntUtil.divMod_units cNamed (intCast_rep _))).1
  have c2Go : mod (multiply (modPow big g (add range.end 1) n) (modInverse big c n)) n =
      rep (↑(upperCommitment G C range.end) : ZMod n) := by
    have fromJava := (divMod_of_java big cNonneg
      (BigIntUtil.divMod_units (intCast_rep (↑(G ^ (range.end + 1)) : ZMod n)) cNamed)).1
    rw [multiply, mul_comm, ← multiply, ← modPow_unit big gNamed] at fromJava
    exact fromJava
  have cPrimePrimeGo : mod (multiply (multiply proof.cPrime1 proof.cPrime2) proof.cPrime3) n =
      rep (↑(p.cPrime1 * p.cPrime2 * p.cPrime3) : ZMod n) := by
    apply mod_unit
    push_cast [multiply, represents.cPrime1, represents.cPrime2, represents.cPrime3]; rfl
  have nineGo (s : ℤ) : mod (multiply (multiply (modPow big proof.cPrime1 s n) proof.cPrime2)
      proof.cPrime3) n = rep (↑(p.cPrime1 ^ s * p.cPrime2 * p.cPrime3) : ZMod n) := by
    rw [modPow_unit big represents.cPrime1]
    apply mod_unit
    push_cast [multiply, intCast_rep, represents.cPrime2, represents.cPrime3]; rfl
  have tenGo (t : ℤ) : mod (multiply (multiply proof.cPrime1 (modPow big proof.cPrime2 t n))
      proof.cPrime3) n = rep (↑(p.cPrime1 * p.cPrime2 ^ t * p.cPrime3) : ZMod n) := by
    rw [modPow_unit big represents.cPrime2]
    apply mod_unit
    push_cast [multiply, intCast_rep, represents.cPrime1, represents.cPrime3]; rfl
  have rightGo (e r : ℤ) : mod (multiply (modPow big g e n) (modPow big h r n)) n =
      rep (↑(commit G H e r) : ZMod n) :=
    (powProduct_of_java big (powProduct_unit gNamed hNamed e r)).1
  have multiplierGo (z : (ZMod n)ˣ) :
      add (mod (calculateHash (rep (z : ZMod n)) none) k1) 1 = javaMultiplier n z :=
    add_mod_calculateHash_single (rep_nonneg _)
  have positive : ¬(n : ℤ) ≤ 0 := not_le.mpr modulus_pos
  simp only [validateRangeProof, RangeProof.toArray, List.length_cons, List.length_nil,
    List.getD_cons_zero, List.getD_cons_succ, List.drop_succ_cons, List.drop_zero,
    List.take_succ_cons, List.take_zero, Nat.reduceAdd, Nat.lt_irrefl, or_self, if_false,
    positive, tmpGo, c1Go, c2Go, cPrimePrimeGo, multiplierGo, nineGo, tenGo, rightGo,
    hpakeSquareValidateZeroKnowledgeProof, List.drop_succ_cons,
    hpakeEqualityConstraintValidateZeroKnowledgeProof_unit big gNamed (intCast_rep _) hNamed hNamed
      (intCast_rep _) represents.cPrime,
    hpakeEqualityConstraintValidateZeroKnowledgeProof_unit big represents.cPrime represents.F3 hNamed
      hNamed represents.F3 (intCast_rep _),
    hpakeEqualityConstraintValidateZeroKnowledgeProof_unit big gNamed represents.F4 hNamed hNamed
      represents.F4 represents.cPrime3, Bool.not_eq_eq_eq_not, Bool.not_true, decide_eq_false_iff_not,
    Bool.ite_eq_true_distrib, Bool.false_eq_true, if_false_left, ne_eq, not_not, rep_units_eq_iff,
    not_le, and_true]
  rw [represents.ecProof2, represents.ecProof3, represents.ecProof4, represents.x, represents.y,
    represents.u, represents.v, rangeAccepts_iff]
  rfl

end Units

end ZkRangeProof.Go
