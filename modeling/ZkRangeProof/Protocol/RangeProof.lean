import ZkRangeProof.Library.Commitment
import ZkRangeProof.Java.Dto
import Mathlib.Tactic.Linarith
import Mathlib.RingTheory.Coprime.Basic

/-! The range proof of Peng and Bao as both verifiers mean it, stated in an arbitrary
commutative group. The Fiat–Shamir hash of the two first messages of an equality proof is an
arbitrary function `challenge`, and the multipliers `s` and `t` of checks 9 and 10 an
arbitrary function `multiplier` of the derived commitments; the honest prover is accepted for
every choice of the two (`honestRangeProof_accepts`), and two conversations of the equality or
square proof that share their first messages open the committed elements (`equality_extract`,
`square_extract`). The Java and Go verifiers refine
`RangeAccepts` in the units of `ZMod N`, and the Java prover refines `honestRangeProof`. -/

namespace ZkRangeProof.Protocol

open FujisakiOkamoto Java

variable {G : Type*} [CommGroup G]

section Equality

variable (challenge : G → G → ℤ)

/-- Boudot's equality proof that `E` and `F` hide one number in the bases `(g1, h1)` and
`(g2, h2)`: the verifier rebuilds both first messages and compares the challenge. -/
def EqualityAccepts (g1 g2 h1 h2 E F : G) (p : ECProof) : Prop :=
  p.c = challenge (recompute g1 h1 E p.c p.D p.D1) (recompute g2 h2 F p.c p.D p.D2)

instance (g1 g2 h1 h2 E F : G) (p : ECProof) :
    Decidable (EqualityAccepts challenge g1 g2 h1 h2 E F p) :=
  inferInstanceAs (Decidable (_ = _))

/-- Boudot's square proof that `E` hides the square of what `F` hides: `F = g ^ x * h ^ r2`
and `E = F ^ x * h ^ r3` hide the same `x`. -/
def SquareAccepts (g h E F : G) (p : ECProof) : Prop :=
  EqualityAccepts challenge g F h h F E p

structure EqualityDraws where
  w : ℤ
  n1 : ℤ
  n2 : ℤ

/-- The honest equality transcript for `E = g1 ^ x * h1 ^ r1` and `F = g2 ^ x * h2 ^ r2`. -/
def equalityTranscript (g1 g2 h1 h2 : G) (x r1 r2 : ℤ) (d : EqualityDraws) : ECProof :=
  let c := challenge (commit g1 h1 d.w d.n1) (commit g2 h2 d.w d.n2)
  ⟨c, d.w + c * x, d.n1 + c * r1, d.n2 + c * r2⟩

theorem equalityTranscript_accepts (g1 g2 h1 h2 : G) (x r1 r2 : ℤ) (d : EqualityDraws) :
    EqualityAccepts challenge g1 g2 h1 h2 (commit g1 h1 x r1) (commit g2 h2 x r2)
      (equalityTranscript challenge g1 g2 h1 h2 x r1 r2 d) := by
  simp only [EqualityAccepts, equalityTranscript, recompute_commit]

structure SquareDraws where
  r2 : ℤ
  equality : EqualityDraws

/-- The honest square proof for `E = g ^ (x * x) * h ^ r1`: the commitment `F` to `x` and
the equality proof about `F` and `E = F ^ x * h ^ (r1 - r2 * x)`. -/
def squareProof (g h : G) (x r1 : ℤ) (d : SquareDraws) : G × ECProof :=
  let F := commit g h x d.r2
  (F, equalityTranscript challenge g F h h x d.r2 (r1 - d.r2 * x) d.equality)

theorem squareProof_accepts (g h : G) (x r1 : ℤ) (d : SquareDraws) :
    SquareAccepts challenge g h (commit g h (x * x) r1) (squareProof challenge g h x r1 d).1
      (squareProof challenge g h x r1 d).2 := by
  rw [SquareAccepts, ← commit_square g h x r1 d.r2]
  exact equalityTranscript_accepts challenge g _ h h x d.r2 (r1 - d.r2 * x) d.equality

end Equality

section Extraction

/-! Special soundness. An accepting conversation of the interactive proof has first messages
`W1, W2` that the verifier rebuilds from the responses; two conversations with the same first
messages and challenges `c ≠ c'` open the committed elements. In a group of unknown order the
difference `c - c'` must be invertible modulo the order. -/

variable [Fintype G] {p q : ECProof}

/-- Two equality transcripts for `E` and `F` that rebuild the same first messages, with
challenges whose difference is coprime to the group's order, open `E` and `F` to one number. -/
theorem equality_extract {g1 g2 h1 h2 E F : G}
    (first : recompute g1 h1 E p.c p.D p.D1 = recompute g1 h1 E q.c q.D q.D1)
    (second : recompute g2 h2 F p.c p.D p.D2 = recompute g2 h2 F q.c q.D q.D2)
    (challenges : IsCoprime (p.c - q.c) (Fintype.card G)) :
    ∃ x r1 r2, E = commit g1 h1 x r1 ∧ F = commit g2 h2 x r2 := by
  obtain ⟨u, v, bezout⟩ := challenges
  -- both openings divide the same response difference `D - D'` by `c - c'`
  exact ⟨(p.D - q.D) * u, (p.D1 - q.D1) * u, (p.D2 - q.D2) * u,
    commit_of_zpow g1 h1 (zpow_sub_of_recompute_eq g1 h1 first) bezout,
    commit_of_zpow g2 h2 (zpow_sub_of_recompute_eq g2 h2 second) bezout⟩

/-- Two square transcripts about `F` and `E` that rebuild the same first messages open `E` to
a square: `F = g ^ x * h ^ r1` and `E = F ^ x * h ^ r2 = g ^ (x * x) * h ^ (r1 * x + r2)`. -/
theorem square_extract {g h E F : G}
    (first : recompute g h F p.c p.D p.D1 = recompute g h F q.c q.D q.D1)
    (second : recompute F h E p.c p.D p.D2 = recompute F h E q.c q.D q.D2)
    (challenges : IsCoprime (p.c - q.c) (Fintype.card G)) :
    ∃ x r, E = commit g h (x * x) r := by
  obtain ⟨x, r1, r2, opensF, opensE⟩ := equality_extract first second challenges
  refine ⟨x, r1 * x + r2, ?_⟩
  rw [opensE, opensF, commit_commit]

end Extraction

/-- A range proof read in the group: the prover's commitments as group elements, the three
sigma transcripts, and the integers of checks 9 to 12. -/
structure GroupRangeProof (G : Type*) where
  ecProof2 : ECProof
  F3 : G
  ecProof3 : ECProof
  F4 : G
  ecProof4 : ECProof
  cPrime : G
  cPrime1 : G
  cPrime2 : G
  cPrime3 : G
  x : ℤ
  y : ℤ
  u : ℤ
  v : ℤ

/-- `c1 = c / g ^ (a - 1)`, which hides `m - a + 1`. -/
def lowerCommitment (g c : G) (a : ℤ) : G := c * (g ^ (a - 1))⁻¹

/-- `c2 = g ^ (b + 1) / c`, which hides `b - m + 1`. -/
def upperCommitment (g c : G) (b : ℤ) : G := g ^ (b + 1) * c⁻¹

section Commitments

variable (g h : G)

theorem lowerCommitment_commit (a m r : ℤ) :
    lowerCommitment g (commit g h m r) a = commit g h (m - a + 1) r := by
  rw [lowerCommitment, base_zpow g h, commit_inv, commit_mul]
  apply commit_congr <;> ring

theorem upperCommitment_commit (b m r : ℤ) :
    upperCommitment g (commit g h m r) b = commit g h (b - m + 1) (-r) := by
  rw [upperCommitment, base_zpow g h, commit_inv, commit_mul]
  apply commit_congr <;> ring

end Commitments

/-- What both verifiers accept, checks 3 to 12 of the paper: the equality proof that `c2`
and `c' = c1 ^ (b - m + 1) * h ^ r'` hide one number, the square proofs about
`c'' = c'1 * c'2 * c'3` and `c'3`, the two linear combinations, and positive `x` and `y`. -/
@[mk_iff]
structure RangeAccepts (challenge : G → G → ℤ) (multiplier : G → ℤ) (g h c : G) (a b : ℤ)
    (p : GroupRangeProof G) : Prop where
  equality : EqualityAccepts challenge g (lowerCommitment g c a) h h (upperCommitment g c b)
    p.cPrime p.ecProof2
  square3 : SquareAccepts challenge p.cPrime h (p.cPrime1 * p.cPrime2 * p.cPrime3) p.F3 p.ecProof3
  square4 : SquareAccepts challenge g h p.cPrime3 p.F4 p.ecProof4
  nine : p.cPrime1 ^ multiplier (lowerCommitment g c a) * p.cPrime2 * p.cPrime3 =
    commit g h p.x p.u
  ten : p.cPrime1 * p.cPrime2 ^ multiplier (upperCommitment g c b) * p.cPrime3 =
    commit g h p.y p.v
  xPositive : 0 < p.x
  yPositive : 0 < p.y

/-- The values the honest range prover draws, in the order it draws them; `m1, m2, m4` and
`r1, r2` are the outputs of `takeRandomM` and `takeRandomR`. -/
structure RangeDraws where
  rPrime : ℤ
  equality2 : EqualityDraws
  w : ℤ
  rPrimePrime : ℤ
  square3 : SquareDraws
  m1 : ℤ
  m2 : ℤ
  m4 : ℤ
  r1 : ℤ
  r2 : ℤ
  square4 : SquareDraws

namespace RangeDraws

/-- `w ^ 2 (m - a + 1) (b - m + 1)`, the number that `c''` hides and `takeRandomM` splits. -/
def hidden (d : RangeDraws) (a b m : ℤ) : ℤ := d.w * d.w * (m - a + 1) * (b - m + 1)

def key (d : RangeDraws) (b m r : ℤ) : ℤ := d.w * d.w * ((b - m + 1) * r + d.rPrime) + d.rPrimePrime

def r3 (d : RangeDraws) (b m r : ℤ) : ℤ := d.key b m r - d.r1 - d.r2

/-- For `w ≥ 1` the hidden number is positive exactly when `(m - a + 1) (b - m + 1)` is. -/
theorem hidden_pos_iff (d : RangeDraws) (wPositive : 1 ≤ d.w) (a b m : ℤ) :
    0 < d.hidden a b m ↔ 0 < (m - a + 1) * (b - m + 1) := by
  have square : 0 < d.w * d.w := mul_pos (by omega) (by omega)
  rw [hidden, mul_assoc]
  exact mul_pos_iff_of_pos_left square

/-- What `takeRandomM` guarantees of its split. -/
structure Split (d : RangeDraws) (a b m : ℤ) : Prop where
  m1_nonneg : 0 ≤ d.m1
  m2_nonneg : 0 ≤ d.m2
  sum : d.m1 + d.m2 + d.m4 * d.m4 = d.hidden a b m

end RangeDraws

section Honest

variable (challenge : G → G → ℤ) (multiplier : G → ℤ)

/-- The honest prover of Peng and Bao, steps 1 to 6, for `c = g ^ m * h ^ r`. -/
def honestRangeProof (g h c : G) (a b m r : ℤ) (d : RangeDraws) : GroupRangeProof G :=
  let c1 := lowerCommitment g c a
  let c2 := upperCommitment g c b
  let cPrime := commit c1 h (b - m + 1) d.rPrime
  let cPrimePrime := commit cPrime h (d.w * d.w) d.rPrimePrime
  let square3 := squareProof challenge cPrime h d.w d.rPrimePrime d.square3
  let cPrime1 := commit g h d.m1 d.r1
  let cPrime2 := commit g h d.m2 d.r2
  let square4 := squareProof challenge g h d.m4 (d.r3 b m r) d.square4
  let s := multiplier c1
  let t := multiplier c2
  { ecProof2 := equalityTranscript challenge g c1 h h (b - m + 1) (-r) d.rPrime d.equality2
    F3 := square3.1
    ecProof3 := square3.2
    F4 := square4.1
    ecProof4 := square4.2
    cPrime := cPrime
    cPrime1 := cPrime1
    cPrime2 := cPrime2
    cPrime3 := cPrimePrime * (cPrime1 * cPrime2)⁻¹
    x := s * d.m1 + d.m2 + d.m4 * d.m4
    y := d.m1 + t * d.m2 + d.m4 * d.m4
    u := s * d.r1 + d.r2 + d.r3 b m r
    v := d.r1 + t * d.r2 + d.r3 b m r }

variable {g h : G} {a b m r : ℤ} {d : RangeDraws}

theorem cPrimePrime_commit :
    commit (commit (lowerCommitment g (commit g h m r) a) h (b - m + 1) d.rPrime) h
      (d.w * d.w) d.rPrimePrime = commit g h (d.hidden a b m) (d.key b m r) := by
  rw [lowerCommitment_commit, commit_commit, commit_commit, RangeDraws.hidden, RangeDraws.key]
  apply commit_congr <;> ring

theorem cPrime3_commit (split : d.Split a b m) :
    (honestRangeProof challenge multiplier g h (commit g h m r) a b m r d).cPrime3 =
      commit g h (d.m4 * d.m4) (d.r3 b m r) := by
  simp only [honestRangeProof]
  rw [cPrimePrime_commit, commit_mul, commit_inv, commit_mul, RangeDraws.r3]
  apply commit_congr
  · linarith [split.sum]
  · ring

/-- Completeness of the range proof, for every hash and every multiplier of at least 1: the
honest proof for `c = g ^ m * h ^ r` is accepted whenever the number it splits is positive,
that is `w ≠ 0` and `(m - a + 1) (b - m + 1) > 0`. -/
theorem honestRangeProof_accepts (multiplier_pos : ∀ z, 1 ≤ multiplier z)
    (split : d.Split a b m) (positive : 0 < d.hidden a b m) :
    RangeAccepts challenge multiplier g h (commit g h m r) a b
      (honestRangeProof challenge multiplier g h (commit g h m r) a b m r d) := by
  have cPrime3 := cPrime3_commit challenge multiplier (g := g) (h := h) (r := r) split
  constructor
  case equality =>
    rw [upperCommitment_commit]
    exact equalityTranscript_accepts challenge g _ h h _ _ _ _
  case square3 =>
    have product : (honestRangeProof challenge multiplier g h (commit g h m r) a b m r d).cPrime1 *
        (honestRangeProof challenge multiplier g h (commit g h m r) a b m r d).cPrime2 *
        (honestRangeProof challenge multiplier g h (commit g h m r) a b m r d).cPrime3 =
        commit (commit (lowerCommitment g (commit g h m r) a) h (b - m + 1) d.rPrime) h
          (d.w * d.w) d.rPrimePrime := by
      simp only [honestRangeProof]
      exact mul_inv_cancel_comm_assoc _ _
    rw [product]
    exact squareProof_accepts challenge _ h d.w d.rPrimePrime d.square3
  case square4 =>
    rw [cPrime3]
    exact squareProof_accepts challenge g h d.m4 (d.r3 b m r) d.square4
  case nine =>
    rw [cPrime3]
    simp only [honestRangeProof, commit_zpow, commit_mul]
    apply commit_congr <;> ring
  case ten =>
    rw [cPrime3]
    simp only [honestRangeProof, commit_zpow, commit_mul]
    apply commit_congr <;> ring
  case xPositive =>
    have scaled := le_mul_of_one_le_left split.m1_nonneg (multiplier_pos (lowerCommitment g (commit g h m r) a))
    simp only [honestRangeProof]
    linarith [split.sum]
  case yPositive =>
    have scaled := le_mul_of_one_le_left split.m2_nonneg (multiplier_pos (upperCommitment g (commit g h m r) b))
    simp only [honestRangeProof]
    linarith [split.sum]

/-- The converse of completeness for the honest prover: its proof is accepted only when the
number it splits is positive. Otherwise the split is `0 + 0 + 0 ^ 2`, so `x = 0`. -/
theorem honestRangeProof_accepts_iff (multiplier_pos : ∀ z, 1 ≤ multiplier z)
    (split : d.Split a b m) :
    RangeAccepts challenge multiplier g h (commit g h m r) a b
        (honestRangeProof challenge multiplier g h (commit g h m r) a b m r d) ↔
      0 < d.hidden a b m := by
  constructor
  · intro accepted
    have xPositive := accepted.xPositive
    simp only [honestRangeProof] at xPositive
    by_contra notPositive
    have square := mul_self_nonneg d.m4
    have m1Zero : d.m1 = 0 := by linarith [split.sum, split.m1_nonneg, split.m2_nonneg]
    have m2Zero : d.m2 = 0 := by linarith [split.sum, split.m1_nonneg, split.m2_nonneg]
    have m4Zero : d.m4 * d.m4 = 0 := by linarith [split.sum, split.m1_nonneg, split.m2_nonneg]
    rw [m1Zero, m2Zero, m4Zero, mul_zero, add_zero, add_zero] at xPositive
    exact lt_irrefl 0 xPositive
  · exact honestRangeProof_accepts challenge multiplier multiplier_pos split

end Honest

end ZkRangeProof.Protocol
