import ZkRangeProof.Java.BigIntUtil
import ZkRangeProof.Java.Dto
import ZkRangeProof.Library.Commitment
import ZkRangeProof.Library.ExceptSeq

/-! The Java verifier: `HPAKEEqualityConstraint.validateZeroKnowledgeProof`,
`HPAKESquare.validateZeroKnowledgeProof` and `HPAKErangeProof.validateRangeProof`. A check
that fails throws `ZeroKnowledgeException`; the calls into `BigInteger` may throw
`ArithmeticException` on their own, and nothing catches that. -/

namespace ZkRangeProof.Java

open BigInteger

/-- `g.modPow(x, N).multiply(h.modPow(r, N)).mod(N)`, the commitment shape the prover and
the verifier write out inline. -/
def powProduct (N g x h r : ℤ) : Except JavaException ℤ := do
  let gx ← modPow g x N
  let hr ← modPow h r N
  mod (gx * hr) N

theorem powProduct_nonneg {N g x h r v : ℤ} (ok : powProduct N g x h r = .ok v) : 0 ≤ v := by
  simp only [powProduct, ExceptSeq.bind_eq_ok_iff] at ok
  obtain ⟨gx, -, hr, -, modOk⟩ := ok
  exact mod_nonneg modOk

section Units

open ModularUnits FujisakiOkamoto

variable {n : ℕ} [NeZero n] {g h : ℤ} {u v : (ZMod n)ˣ}

theorem powProduct_unit (gNamed : (g : ZMod n) = u) (hNamed : (h : ZMod n) = v) (x r : ℤ) :
    powProduct n g x h r = .ok (rep (↑(commit u v x r) : ZMod n)) := by
  simp only [powProduct, modPow_unit gNamed, modPow_unit hNamed, bind, Except.bind, mod_rep]
  push_cast [intCast_rep, commit]
  rfl

end Units

namespace HPAKEEqualityConstraint

def validationFailed : JavaException :=
  .zeroKnowledge "Zero-knowledge proof validation failed" none

/-- `g.modPow(D, N).multiply(h.modPow(D1, N)).multiply(E.modPow(c.negate(), N)).mod(N)`. -/
def recomputeWitness (N g h E c D D1 : ℤ) : Except JavaException ℤ := do
  let gD ← modPow g D N
  let hD1 ← modPow h D1 N
  let Ec ← modPow E (-c) N
  mod (gD * hD1 * Ec) N

section Units

open ModularUnits FujisakiOkamoto

variable {n : ℕ} [NeZero n] {g h E : ℤ} {u v e : (ZMod n)ˣ}

theorem recomputeWitness_unit (gNamed : (g : ZMod n) = u) (hNamed : (h : ZMod n) = v)
    (eNamed : (E : ZMod n) = e) (c D D1 : ℤ) :
    recomputeWitness n g h E c D D1 = .ok (rep (↑(recompute u v e c D D1) : ZMod n)) := by
  simp only [recomputeWitness, modPow_unit gNamed, modPow_unit hNamed, modPow_unit eNamed, bind,
    Except.bind, mod_rep]
  push_cast [intCast_rep, recompute]
  rfl

end Units

def validateZeroKnowledgeProof (N g1 g2 h1 h2 E F : ℤ) (ecProof : ECProof) :
    Except JavaException Unit := do
  -- the source's own guard, "To prevent failure at 0 ^ -c"
  if E = 0 ∨ F = 0 then throw validationFailed
  let W1 ← recomputeWitness N g1 h1 E ecProof.c ecProof.D ecProof.D1
  let W2 ← recomputeWitness N g2 h2 F ecProof.c ecProof.D ecProof.D2
  if ecProof.c ≠ DigestUtil.calculateHash [W1, W2] then throw validationFailed

section Units

open ModularUnits FujisakiOkamoto

variable {n : ℕ} [NeZero n] {g1 g2 h1 h2 E F : ℤ} {u1 u2 v1 v2 e f : (ZMod n)ˣ}

/-- On units with non-zero `E` and `F`, the only check left is the hash comparison. -/
theorem validateZeroKnowledgeProof_unit (g1Named : (g1 : ZMod n) = u1)
    (g2Named : (g2 : ZMod n) = u2) (h1Named : (h1 : ZMod n) = v1) (h2Named : (h2 : ZMod n) = v2)
    (eNamed : (E : ZMod n) = e) (fNamed : (F : ZMod n) = f) (eNonzero : E ≠ 0) (fNonzero : F ≠ 0)
    (ecProof : ECProof) :
    validateZeroKnowledgeProof n g1 g2 h1 h2 E F ecProof =
      if ecProof.c = DigestUtil.calculateHash
          [rep (↑(recompute u1 v1 e ecProof.c ecProof.D ecProof.D1) : ZMod n),
           rep (↑(recompute u2 v2 f ecProof.c ecProof.D ecProof.D2) : ZMod n)]
      then .ok () else .error validationFailed := by
  simp only [validateZeroKnowledgeProof, eNonzero, fNonzero, or_self, ↓reduceIte,
    recomputeWitness_unit g1Named h1Named eNamed, recomputeWitness_unit g2Named h2Named fNamed,
    bind, Except.bind]
  by_cases same : ecProof.c = DigestUtil.calculateHash
      [rep (↑(recompute u1 v1 e ecProof.c ecProof.D ecProof.D1) : ZMod n),
       rep (↑(recompute u2 v2 f ecProof.c ecProof.D ecProof.D2) : ZMod n)]
  · rw [if_pos same, if_neg (not_not.mpr same)]; rfl
  · rw [if_neg same, if_pos same]; rfl

end Units

end HPAKEEqualityConstraint

namespace HPAKESquare

/-- The square proof is the equality proof that `F` and `E` hide `x` in bases `g` and `F`. -/
def validateZeroKnowledgeProof (N g h E : ℤ) (proof : SquareProof) : Except JavaException Unit :=
  HPAKEEqualityConstraint.validateZeroKnowledgeProof N g proof.F h h proof.F E proof.ecProof

end HPAKESquare

namespace HPAKErangeProof

def k1 : ℤ := 2 ^ 160

def k2 : ℤ := 2 ^ 2048

/-- `try { check } catch (ZeroKnowledgeException e) { throw new ZeroKnowledgeException(message, e); }`. -/
def rethrow (message : String) (check : Except JavaException Unit) : Except JavaException Unit :=
  match check with
  | .error (.zeroKnowledge inner _) => throw (.zeroKnowledge message (some inner))
  | other => other

theorem rethrow_eq_ok_iff (message : String) (check : Except JavaException Unit) :
    rethrow message check = .ok () ↔ check = .ok () := by
  unfold rethrow
  split <;> simp_all

/-- `validateRangeProof(proof, commitment, range)`; normal return is acceptance. -/
def validateRangeProof (proof : RangeProof) (commitment : Commitment) (range : ClosedRange) :
    Except JavaException Unit := do
  let N := commitment.group.N
  let g := commitment.group.g
  let h := commitment.group.h
  let c := commitment.commitmentValue
  -- Derived information: the source's checks 6, 7 and 8
  let c1 ← BigIntUtil.divMod c (← modPow g (range.start - 1) N) N
  let c2 ← BigIntUtil.divMod (← modPow g (range.end + 1) N) c N
  let cPrimePrime ← mod (proof.cPrime1 * proof.cPrime2 * proof.cPrime3) N
  -- `.mod(k1)` has a positive modulus and cannot throw
  let s := DigestUtil.calculateHash [c1] % k1 + 1
  let t := DigestUtil.calculateHash [c2] % k1 + 1
  rethrow "Crypto Exception at EL check (3)"
    (HPAKEEqualityConstraint.validateZeroKnowledgeProof N g c1 h h c2 proof.cPrime proof.ecProof2)
  rethrow "Crypto Exception at SQR check (4)"
    (HPAKESquare.validateZeroKnowledgeProof N proof.cPrime h cPrimePrime proof.sqrProof3)
  rethrow "Crypto Exception at SQR check (5)"
    (HPAKESquare.validateZeroKnowledgeProof N g h proof.cPrime3 proof.sqrProof4)
  let nineLeft ← do
    let a ← modPow proof.cPrime1 s N
    mod (a * proof.cPrime2 * proof.cPrime3) N
  let nineRight ← powProduct N g proof.x h proof.u
  if nineLeft ≠ nineRight then throw (.zeroKnowledge "Crypto Exception at check (9)" none)
  let tenLeft ← do
    let b ← modPow proof.cPrime2 t N
    mod (proof.cPrime1 * b * proof.cPrime3) N
  let tenRight ← powProduct N g proof.y h proof.v
  if tenLeft ≠ tenRight then throw (.zeroKnowledge "Crypto Exception at check (10)" none)
  if proof.x ≤ 0 then throw (.zeroKnowledge "Crypto Exception at check (11)" none)
  if proof.y ≤ 0 then throw (.zeroKnowledge "Crypto Exception at check (12)" none)

end HPAKErangeProof

end ZkRangeProof.Java
