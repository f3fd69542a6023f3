import ZkRangeProof.Java.Refinement
import Mathlib.Data.Nat.Totient

/-! Special soundness of the two sigma proofs as the Java verifier computes them. The verifier
rebuilds each first message with `recomputeWitness`; in the interactive protocol the prover
sends it, and two conversations that share their first messages but differ in the challenge
determine an opening. Modulo `N` the group of units has `φ(N)` elements, so the difference of
the two challenges must be coprime to `φ(N)`; the openings are then commitments as the code
computes them, `powProduct N g x h r`. -/

namespace ZkRangeProof.Java

open ModularUnits FujisakiOkamoto Protocol

variable {n : ℕ} [NeZero n]

/-- Two recomputations that agree on units agree as group elements. -/
theorem recompute_eq_of_recomputeWitness_eq {g h E : ℤ} {u v e : (ZMod n)ˣ}
    (gNamed : (g : ZMod n) = u) (hNamed : (h : ZMod n) = v) (eNamed : (E : ZMod n) = e)
    {c D D1 c' D' D1' : ℤ}
    (same : HPAKEEqualityConstraint.recomputeWitness n g h E c D D1 =
      HPAKEEqualityConstraint.recomputeWitness n g h E c' D' D1') :
    recompute u v e c D D1 = recompute u v e c' D' D1' := by
  rw [HPAKEEqualityConstraint.recomputeWitness_unit gNamed hNamed eNamed,
    HPAKEEqualityConstraint.recomputeWitness_unit gNamed hNamed eNamed, Except.ok.injEq,
    rep_units_eq_iff] at same
  exact same

theorem powProduct_of_commit {g h E : ℤ} {u v e : (ZMod n)ˣ} (gNamed : (g : ZMod n) = u)
    (hNamed : (h : ZMod n) = v) (eNamed : (E : ZMod n) = e) {x r : ℤ}
    (opens : e = commit u v x r) : powProduct n g x h r = .ok (E % n) := by
  rw [powProduct_unit gNamed hNamed, emod_eq_rep eNamed, opens]

namespace HPAKEEqualityConstraint

/-- Special soundness of the equality proof: for `g1, g2, h1, h2, E, F` coprime to `N`, two
transcripts on which `validateZeroKnowledgeProof` rebuilds the same `W1` and `W2`, with
challenges whose difference is coprime to `φ(N)`, give one `x` and keys `r1`, `r2` with
`E ≡ g1 ^ x * h1 ^ r1` and `F ≡ g2 ^ x * h2 ^ r2` modulo `N`. -/
theorem recomputeWitness_extract {g1 g2 h1 h2 E F : ℤ} (g1Coprime : Int.gcd g1 n = 1)
    (g2Coprime : Int.gcd g2 n = 1) (h1Coprime : Int.gcd h1 n = 1) (h2Coprime : Int.gcd h2 n = 1)
    (eCoprime : Int.gcd E n = 1) (fCoprime : Int.gcd F n = 1) {p q : ECProof}
    (first : recomputeWitness n g1 h1 E p.c p.D p.D1 = recomputeWitness n g1 h1 E q.c q.D q.D1)
    (second : recomputeWitness n g2 h2 F p.c p.D p.D2 = recomputeWitness n g2 h2 F q.c q.D q.D2)
    (challenges : IsCoprime (p.c - q.c) (Nat.totient n)) :
    ∃ x r1 r2, powProduct n g1 x h1 r1 = .ok (E % n) ∧ powProduct n g2 x h2 r2 = .ok (F % n) := by
  obtain ⟨u1, g1Named⟩ := exists_named_of_gcd g1Coprime
  obtain ⟨u2, g2Named⟩ := exists_named_of_gcd g2Coprime
  obtain ⟨v1, h1Named⟩ := exists_named_of_gcd h1Coprime
  obtain ⟨v2, h2Named⟩ := exists_named_of_gcd h2Coprime
  obtain ⟨e, eNamed⟩ := exists_named_of_gcd eCoprime
  obtain ⟨f, fNamed⟩ := exists_named_of_gcd fCoprime
  rw [← ZMod.card_units_eq_totient] at challenges
  obtain ⟨x, r1, r2, opensE, opensF⟩ := equality_extract
    (recompute_eq_of_recomputeWitness_eq g1Named h1Named eNamed first)
    (recompute_eq_of_recomputeWitness_eq g2Named h2Named fNamed second) challenges
  exact ⟨x, r1, r2, powProduct_of_commit g1Named h1Named eNamed opensE,
    powProduct_of_commit g2Named h2Named fNamed opensF⟩

theorem recomputeWitness_extract_fifteen :
    ∃ x r1 r2, powProduct 15 2 x 7 r1 = .ok (2 % 15) ∧ powProduct 15 4 x 7 r2 = .ok (4 % 15) :=
  recomputeWitness_extract (n := 15) (by decide) (by decide) (by decide) (by decide) (by decide)
    (by decide) (p := ⟨0, 0, 0, 0⟩) (q := ⟨1, 1, 0, 0⟩) (by decide +kernel) (by decide +kernel)
    ⟨-1, 0, by ring⟩

end HPAKEEqualityConstraint

namespace HPAKESquare

/-- Special soundness of the square proof: `validateZeroKnowledgeProof(N, g, h, E, ⟨F, _⟩)` is the
equality proof in bases `(g, h)` and `(F, h)`. Two transcripts for one `F` that rebuild the same
first messages, with challenges whose difference is coprime to `φ(N)`, show that `E` hides a
square: `E ≡ g ^ (x * x) * h ^ r` modulo `N`. -/
theorem recomputeWitness_square {g h E F : ℤ} (gCoprime : Int.gcd g n = 1)
    (hCoprime : Int.gcd h n = 1) (eCoprime : Int.gcd E n = 1) (fCoprime : Int.gcd F n = 1)
    {p q : ECProof}
    (first : HPAKEEqualityConstraint.recomputeWitness n g h F p.c p.D p.D1 =
      HPAKEEqualityConstraint.recomputeWitness n g h F q.c q.D q.D1)
    (second : HPAKEEqualityConstraint.recomputeWitness n F h E p.c p.D p.D2 =
      HPAKEEqualityConstraint.recomputeWitness n F h E q.c q.D q.D2)
    (challenges : IsCoprime (p.c - q.c) (Nat.totient n)) :
    ∃ x r, powProduct n g (x * x) h r = .ok (E % n) := by
  obtain ⟨u, gNamed⟩ := exists_named_of_gcd gCoprime
  obtain ⟨v, hNamed⟩ := exists_named_of_gcd hCoprime
  obtain ⟨e, eNamed⟩ := exists_named_of_gcd eCoprime
  obtain ⟨f, fNamed⟩ := exists_named_of_gcd fCoprime
  rw [← ZMod.card_units_eq_totient] at challenges
  obtain ⟨x, r, opens⟩ := square_extract
    (recompute_eq_of_recomputeWitness_eq gNamed hNamed fNamed first)
    (recompute_eq_of_recomputeWitness_eq fNamed hNamed eNamed second) challenges
  exact ⟨x, r, powProduct_of_commit gNamed hNamed eNamed opens⟩

theorem recomputeWitness_square_fifteen : ∃ x r, powProduct 15 2 (x * x) 7 r = .ok (1 % 15) :=
  recomputeWitness_square (n := 15) (F := 4) (by decide) (by decide) (by decide) (by decide)
    (p := ⟨0, 0, 0, 0⟩) (q := ⟨1, 2, 0, 0⟩) (by decide +kernel) (by decide +kernel)
    ⟨-1, 0, by ring⟩

end HPAKESquare

end ZkRangeProof.Java
