import ZkRangeProof.Java.Refinement
import ZkRangeProof.Go.Validator

/-! Completeness across the three implementations: the Java prover's proof for the
commitment `TTPGenerator.commit` makes is accepted by the Java verifier and, laid out by
`toArray`, by the Go verifier. The prover hides `w² (m - a + 1)(b - m + 1)`, and the verifiers
check only that this is positive; so the proof is accepted exactly as far as that product is
positive (`rangeProof_accepted_iff`), which for `lower > upper` includes every `m` strictly
between `upper + 1` and `lower - 1`. Where the product is negative the prover raises. -/

namespace ZkRangeProof

open Java ModularUnits FujisakiOkamoto

section Completeness

variable {n : ℕ} {g h : ℤ}

theorem commit_unit [NeZero n] {G H : (ZMod n)ˣ} (gNamed : (g : ZMod n) = G)
    (hNamed : (h : ZMod n) = H) (m r : ℤ) :
    TTPGenerator.commit ⟨n, g, h⟩ m r = .ok ⟨⟨n, g, h⟩, rep (↑(commit G H m r) : ZMod n)⟩ := by
  rw [TTPGenerator.commit, powProduct_unit gNamed hNamed]
  rfl

/-- For generators coprime to `N > 1`, the prover's proof is accepted by both verifiers whenever
the hidden product `(m - a + 1)(b - m + 1)` is positive, whatever the prover's coins. -/
theorem rangeProof_accepted_of_pos (large : 1 < n) (gCoprime : Int.gcd g n = 1)
    (hCoprime : Int.gcd h n = 1) (m r a b : ℤ) (inside : 0 < (m - a + 1) * (b - m + 1))
    (coins : RangeProofCoins) (big : Go.MathBig) :
    ∃ commitment proof, TTPGenerator.commit ⟨n, g, h⟩ m r = .ok commitment ∧
      HPAKErangeProof.calculateRangeProof ⟨commitment, m, r⟩ ⟨a, b⟩ coins = .ok proof ∧
      HPAKErangeProof.validateRangeProof proof commitment ⟨a, b⟩ = .ok () ∧
      Go.validateRangeProof big a b [commitment.commitmentValue, n, g, h] proof.toArray = true := by
  have : NeZero n := ⟨by omega⟩
  obtain ⟨G, gNamed⟩ := exists_named_of_gcd gCoprime
  obtain ⟨H, hNamed⟩ := exists_named_of_gcd hCoprime
  obtain ⟨proof, proved, accepted⟩ := calculateRangeProof_accepted large gNamed hNamed
    (intCast_rep (↑(commit G H m r) : ZMod n)) inside coins
  exact ⟨_, proof, commit_unit gNamed hNamed m r, proved, accepted,
    Go.validateRangeProof_of_java big (rep_nonneg _) accepted⟩

/-- Completeness: for every `a ≤ m ≤ b`, every key and all coins, both verifiers accept the
prover's proof. -/
theorem rangeProof_complete (large : 1 < n) (gCoprime : Int.gcd g n = 1)
    (hCoprime : Int.gcd h n = 1) (m r a b : ℤ) (lowerBound : a ≤ m) (upperBound : m ≤ b)
    (coins : RangeProofCoins) (big : Go.MathBig) :
    ∃ commitment proof, TTPGenerator.commit ⟨n, g, h⟩ m r = .ok commitment ∧
      HPAKErangeProof.calculateRangeProof ⟨commitment, m, r⟩ ⟨a, b⟩ coins = .ok proof ∧
      HPAKErangeProof.validateRangeProof proof commitment ⟨a, b⟩ = .ok () ∧
      Go.validateRangeProof big a b [commitment.commitmentValue, n, g, h] proof.toArray = true :=
  rangeProof_accepted_of_pos large gCoprime hCoprime m r a b
    (mul_pos (by omega) (by omega)) coins big

/-- The coins that draw the lowest value of every range. -/
def lowestCoins : RangeProofCoins :=
  ⟨0, ⟨0, 0, 0⟩, 0, 0, ⟨0, ⟨0, 0, 0⟩⟩, 0, 0, 0, 0, ⟨0, ⟨0, 0, 0⟩⟩⟩

theorem rangeProof_complete_fifteen :
    ∃ commitment proof, TTPGenerator.commit ⟨15, 2, 7⟩ 2 5 = .ok commitment ∧
      HPAKErangeProof.calculateRangeProof ⟨commitment, 2, 5⟩ ⟨1, 3⟩ lowestCoins = .ok proof ∧
      HPAKErangeProof.validateRangeProof proof commitment ⟨1, 3⟩ = .ok () ∧
      Go.validateRangeProof Go.MathBig.bezout 1 3 [commitment.commitmentValue, (15 : ℕ), 2, 7]
        proof.toArray = true :=
  rangeProof_complete (by norm_num) (by decide) (by decide) 2 5 1 3 (by norm_num) (by norm_num)
    lowestCoins Go.MathBig.bezout

/-- An empty range `[a, b]` with `a > b + 2` still has accepted proofs: for every `m` strictly
between `b + 1` and `a - 1` both factors of the hidden product are negative. -/
theorem rangeProof_accepted_empty_range (large : 1 < n) (gCoprime : Int.gcd g n = 1)
    (hCoprime : Int.gcd h n = 1) (m r a b : ℤ) (aboveUpper : b + 1 < m) (belowLower : m < a - 1)
    (coins : RangeProofCoins) (big : Go.MathBig) :
    ∃ commitment proof, TTPGenerator.commit ⟨n, g, h⟩ m r = .ok commitment ∧
      HPAKErangeProof.calculateRangeProof ⟨commitment, m, r⟩ ⟨a, b⟩ coins = .ok proof ∧
      HPAKErangeProof.validateRangeProof proof commitment ⟨a, b⟩ = .ok () ∧
      Go.validateRangeProof big a b [commitment.commitmentValue, n, g, h] proof.toArray = true :=
  rangeProof_accepted_of_pos large gCoprime hCoprime m r a b
    (mul_pos_of_neg_of_neg (by omega) (by omega)) coins big

/-- Both verifiers accept a proof for the empty range `[10, 0]`: the secret `5`, modulo `15`. -/
theorem rangeProof_accepted_ten_zero :
    ∃ commitment proof, TTPGenerator.commit ⟨15, 2, 7⟩ 5 5 = .ok commitment ∧
      HPAKErangeProof.validateRangeProof proof commitment ⟨10, 0⟩ = .ok () ∧
      Go.validateRangeProof Go.MathBig.bezout 10 0 [commitment.commitmentValue, (15 : ℕ), 2, 7]
        proof.toArray = true := by
  obtain ⟨commitment, proof, committed, -, accepted, goAccepts⟩ := rangeProof_accepted_empty_range
    (by norm_num : 1 < 15) (by decide : Int.gcd 2 15 = 1) (by decide : Int.gcd 7 15 = 1) 5 5 10 0
    (by norm_num) (by norm_num) lowestCoins Go.MathBig.bezout
  exact ⟨commitment, proof, committed, accepted, goAccepts⟩

/-- The honest pipeline decides exactly the secrets whose hidden product is positive. For
generators coprime to `N > 1`, every secret, key, range and all coins: when
`(m - a + 1) (b - m + 1) < 0` the prover raises `IllegalArgumentException` from
`floorSquareRoot`; otherwise it returns a proof that each verifier accepts exactly when the
product is positive. For `a ≤ b` that is `a ≤ m ≤ b`: at `m = a - 1` and `m = b + 1` the proof
has `x = 0` and both reject it. -/
theorem rangeProof_accepted_iff (large : 1 < n) (gCoprime : Int.gcd g n = 1)
    (hCoprime : Int.gcd h n = 1) (m r a b : ℤ) (coins : RangeProofCoins) (big : Go.MathBig) :
    ∃ commitment, TTPGenerator.commit ⟨n, g, h⟩ m r = .ok commitment ∧
      ((m - a + 1) * (b - m + 1) < 0 →
        HPAKErangeProof.calculateRangeProof ⟨commitment, m, r⟩ ⟨a, b⟩ coins =
          .error (.illegalArgument (some "Negative number does not have square root"))) ∧
      (0 ≤ (m - a + 1) * (b - m + 1) → ∃ proof,
        HPAKErangeProof.calculateRangeProof ⟨commitment, m, r⟩ ⟨a, b⟩ coins = .ok proof ∧
        (HPAKErangeProof.validateRangeProof proof commitment ⟨a, b⟩ = .ok () ↔
          0 < (m - a + 1) * (b - m + 1)) ∧
        (Go.validateRangeProof big a b [commitment.commitmentValue, n, g, h] proof.toArray = true ↔
          0 < (m - a + 1) * (b - m + 1))) := by
  have : NeZero n := ⟨by omega⟩
  obtain ⟨G, gNamed⟩ := exists_named_of_gcd gCoprime
  obtain ⟨H, hNamed⟩ := exists_named_of_gcd hCoprime
  have cNamed := intCast_rep (↑(commit G H m r) : ZMod n)
  refine ⟨_, commit_unit gNamed hNamed m r, fun negative => ?_, fun nonneg => ?_⟩
  · exact calculateRangeProof_of_neg gNamed hNamed cNamed negative coins
  obtain ⟨d, wPositive, split, proved⟩ := calculateRangeProof_unit gNamed hNamed cNamed nonneg coins
  have decides := (Protocol.honestRangeProof_accepts_iff (javaChallenge n) (javaMultiplier n)
    (g := G) (h := H) (r := r) one_le_javaMultiplier split).trans
      (d.hidden_pos_iff wPositive a b m)
  refine ⟨_, proved, ?_, ?_⟩
  · rw [validateRangeProof_eq_ok_iff large gNamed hNamed cNamed (RangeProof.represents_ofGroup _)
      ⟨a, b⟩]
    exact decides
  · rw [Go.validateRangeProof_eq_true_iff big gNamed hNamed cNamed (rep_nonneg _)
      (RangeProof.represents_ofGroup _) ⟨a, b⟩]
    exact decides

theorem rangeProof_accepted_iff_fifteen :
    ∃ commitment, TTPGenerator.commit ⟨15, 2, 7⟩ 2 5 = .ok commitment ∧
      (((2 : ℤ) - 3 + 1) * (3 - 2 + 1) < 0 →
        HPAKErangeProof.calculateRangeProof ⟨commitment, 2, 5⟩ ⟨3, 3⟩ lowestCoins =
          .error (.illegalArgument (some "Negative number does not have square root"))) ∧
      (0 ≤ ((2 : ℤ) - 3 + 1) * (3 - 2 + 1) → ∃ proof,
        HPAKErangeProof.calculateRangeProof ⟨commitment, 2, 5⟩ ⟨3, 3⟩ lowestCoins = .ok proof ∧
        (HPAKErangeProof.validateRangeProof proof commitment ⟨3, 3⟩ = .ok () ↔
          0 < ((2 : ℤ) - 3 + 1) * (3 - 2 + 1)) ∧
        (Go.validateRangeProof Go.MathBig.bezout 3 3
            [commitment.commitmentValue, (15 : ℕ), 2, 7] proof.toArray = true ↔
          0 < ((2 : ℤ) - 3 + 1) * (3 - 2 + 1))) :=
  rangeProof_accepted_iff (by norm_num) (by decide) (by decide) 2 5 3 3 lowestCoins
    Go.MathBig.bezout

end Completeness

end ZkRangeProof
