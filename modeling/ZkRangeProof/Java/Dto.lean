import Mathlib.Algebra.Group.Int.Defs
import Mathlib.Data.List.Basic

/-! The data-transfer objects of `com.ing.blockchain.zk.dto` that the prover builds and the
verifier reads, and the 22-number layout in which `RangeProofTests.toArray` flattens a
range proof and `fromArray` reads it back; the Go verifier takes proofs in that layout. -/

namespace ZkRangeProof.Java

/-- `ECProof`: the challenge `c` and the responses of an equality-constraint proof. -/
structure ECProof where
  c : ℤ
  D : ℤ
  D1 : ℤ
  D2 : ℤ
  deriving DecidableEq, Repr

/-- `SquareProof`: the auxiliary commitment `F` and the equality proof about it. -/
structure SquareProof where
  F : ℤ
  ecProof : ECProof
  deriving DecidableEq, Repr

/-- `RangeProof`, in the order of its constructor. -/
structure RangeProof where
  ecProof2 : ECProof
  sqrProof3 : SquareProof
  sqrProof4 : SquareProof
  cPrime : ℤ
  cPrime1 : ℤ
  cPrime2 : ℤ
  cPrime3 : ℤ
  x : ℤ
  y : ℤ
  u : ℤ
  v : ℤ
  deriving DecidableEq, Repr

/-- `SecretOrderGroup(N, g, h)`. -/
structure SecretOrderGroup where
  N : ℤ
  g : ℤ
  h : ℤ
  deriving DecidableEq, Repr

/-- `Commitment(group, commitmentValue)`. -/
structure Commitment where
  group : SecretOrderGroup
  commitmentValue : ℤ
  deriving DecidableEq, Repr

/-- `ClosedRange.of(lo, hi)`; an empty range is allowed. -/
structure ClosedRange where
  start : ℤ
  «end» : ℤ
  deriving DecidableEq, Repr

/-- `TTPMessage`: the commitment with its secret `x` and key `y`. -/
structure TTPMessage where
  commitment : Commitment
  x : ℤ
  y : ℤ
  deriving DecidableEq, Repr

namespace RangeProof

/-- `RangeProofTests.toArray`. -/
def toArray (proof : RangeProof) : List ℤ :=
  [proof.cPrime, proof.cPrime1, proof.cPrime2, proof.cPrime3,
   proof.sqrProof3.F, proof.sqrProof3.ecProof.c, proof.sqrProof3.ecProof.D,
   proof.sqrProof3.ecProof.D1, proof.sqrProof3.ecProof.D2,
   proof.sqrProof4.F, proof.sqrProof4.ecProof.c, proof.sqrProof4.ecProof.D,
   proof.sqrProof4.ecProof.D1, proof.sqrProof4.ecProof.D2,
   proof.ecProof2.c, proof.ecProof2.D, proof.ecProof2.D1, proof.ecProof2.D2,
   proof.u, proof.v, proof.x, proof.y]

/-- `RangeProofTests.fromArray`, reading the first 22 entries. -/
def fromArray (proof : List ℤ) : RangeProof :=
  let p := fun i => proof.getD i 0
  { ecProof2 := ⟨p 14, p 15, p 16, p 17⟩
    sqrProof3 := ⟨p 4, ⟨p 5, p 6, p 7, p 8⟩⟩
    sqrProof4 := ⟨p 9, ⟨p 10, p 11, p 12, p 13⟩⟩
    cPrime := p 0
    cPrime1 := p 1
    cPrime2 := p 2
    cPrime3 := p 3
    x := p 20
    y := p 21
    u := p 18
    v := p 19 }

@[simp] theorem length_toArray (proof : RangeProof) : proof.toArray.length = 22 := rfl

@[simp] theorem fromArray_toArray (proof : RangeProof) : fromArray proof.toArray = proof := rfl

theorem toArray_fromArray {proof : List ℤ} (sized : proof.length = 22) :
    (fromArray proof).toArray = proof := by
  match proof, sized with
  | [_, _, _, _, _, _, _, _, _, _, _, _, _, _, _, _, _, _, _, _, _, _], _ => rfl

end RangeProof

end ZkRangeProof.Java
