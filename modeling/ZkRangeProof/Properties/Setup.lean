import ZkRangeProof.Java.Generator
import ZkRangeProof.Properties.Completeness

/-! The trusted set-up end to end. `TTPGenerator.generateTTPMessage(secretValue)` makes a group
with `SecretOrderGroupGenerator.generate()` and commits to the secret in it; the prover's range
proof for that message is accepted by the Java verifier and, with the group's `[C, N, g, h]` as
the contract's input, by the Go verifier. The glue is `generate_returns` (distinct safe primes,
so generators that are units modulo `N`) and `rangeProof_accepted_of_pos`. The group's two
generators span one cyclic subgroup, so its commitments hide (`generate_commit_hides`). The loops
of the set-up draw until a test passes, so the results are stated for every run that exits. -/

namespace ZkRangeProof

open Java ModularUnits FujisakiOkamoto WhileLoop SecretOrderGroupGenerator TTPGenerator

section Setup

variable {n : ℕ} {g h : ℤ}

/-- In a group of units the trusted party's message is the commitment to the secret under the
key it draws. -/
theorem generateTTPMessage_unit [NeZero n] {G H : (ZMod n)ˣ} (gNamed : (g : ZMod n) = G)
    (hNamed : (h : ZMod n) = H) (secretValue keyCoin : ℤ) :
    ∃ key commitment, generateTTPMessage secretValue ⟨n, g, h⟩ keyCoin =
        .ok ⟨commitment, secretValue, key⟩ ∧
      TTPGenerator.commit ⟨n, g, h⟩ secretValue key = .ok commitment := by
  have positive : (0 : ℤ) < 2 ^ s * n := by
    have := NeZero.pos n
    positivity
  obtain ⟨key, drawn, -⟩ :=
    createRandomInRange_draw (by linarith : -(2 ^ s * (n : ℤ) - 1) ≤ 2 ^ s * n - 1) keyCoin
  refine ⟨key, _, ?_, commit_unit gNamed hNamed secretValue key⟩
  rw [generateTTPMessage, generateKey, drawn, ExceptSeq.ok_bind, commit_unit gNamed hNamed,
    ExceptSeq.ok_bind]
  rfl

/-- The set-up end to end: whenever `generateTTPMessage(secretValue)` returns, it returns a
message for the secret in a group `N = P * Q` of distinct safe primes `P = 2p + 1` and
`Q = 2q + 1`, and for every range `[a, b]` that holds the secret, and all coins, the prover's
proof for the message is accepted by both verifiers. The primality tests, the constructor
`new BigInteger(bitlength, certainty, rnd)` and `isProbablePrime(certainty)`, are taken to answer
correctly. -/
theorem generateTTPMessage_rangeProof_accepted (isProbablePrime : ℤ → Bool)
    (sound : ∀ z, isProbablePrime z = true → z.natAbs.Prime) (safePrimeCoins : SafePrimeCoins)
    (candidatesPrime : ∀ z ∈ safePrimeCoins.candidatesP ++ safePrimeCoins.candidatesQ.flatten,
      0 < z ∧ z.natAbs.Prime)
    (coins : GeneratorCoins) (secretValue keyCoin : ℤ) {result : Except JavaException TTPMessage}
    (exits : (generateTTPMessageInNewGroup isProbablePrime safePrimeCoins coins secretValue
      keyCoin).run = some result) :
    ∃ message, result = .ok message ∧ message.x = secretValue ∧
      (∃ P Q p q : ℕ, message.commitment.group.N = ((P * Q : ℕ) : ℤ) ∧ P = 2 * p + 1 ∧
        Q = 2 * q + 1 ∧ P.Prime ∧ Q.Prime ∧ p.Prime ∧ q.Prime ∧ P ≠ Q) ∧
      ∀ (a b : ℤ) (proofCoins : RangeProofCoins) (big : Go.MathBig), a ≤ secretValue →
        secretValue ≤ b → ∃ proof,
          HPAKErangeProof.calculateRangeProof message ⟨a, b⟩ proofCoins = .ok proof ∧
          HPAKErangeProof.validateRangeProof proof message.commitment ⟨a, b⟩ = .ok () ∧
          Go.validateRangeProof big a b [message.commitment.commitmentValue,
            message.commitment.group.N, message.commitment.group.g, message.commitment.group.h]
            proof.toArray = true := by
  refine returns_bind (generate_returns sound candidatesPrime coins) ?_ result exits
  rintro ⟨N, g, h⟩ - ⟨P, Q, p, q, size, safeP, safeQ, PPrime, QPrime, pPrime, qPrime, distinct,
    G, H, gNamed, hNamed, -, -, -⟩
  dsimp only at size gNamed hNamed
  subst size
  have : NeZero (P * Q) := ⟨(Nat.mul_pos PPrime.pos QPrime.pos).ne'⟩
  have large : 1 < P * Q := Nat.one_lt_mul_iff.mpr ⟨PPrime.pos, QPrime.pos, Or.inl PPrime.one_lt⟩
  obtain ⟨key, commitment, made, committed⟩ :=
    generateTTPMessage_unit gNamed hNamed secretValue keyCoin
  have group := commit_group committed
  apply returns_except made
  refine ⟨rfl, ⟨P, Q, p, q, by rw [group], safeP, safeQ, PPrime, QPrime, pPrime, qPrime,
    distinct⟩, ?_⟩
  intro a b proofCoins big low high
  have inside : 0 < (secretValue - a + 1) * (b - secretValue + 1) := mul_pos (by omega) (by omega)
  obtain ⟨commitment', proof, committed', proved, javaAccepts, goAccepts⟩ :=
    rangeProof_accepted_of_pos large (Int.isCoprime_iff_gcd_eq_one.mp (isCoprime_of_named gNamed))
      (Int.isCoprime_iff_gcd_eq_one.mp (isCoprime_of_named hNamed)) secretValue key a b inside
      proofCoins big
  rw [committed, Except.ok.injEq] at committed'
  subst committed'
  rw [group]
  exact ⟨proof, proved, javaAccepts, goAccepts⟩

theorem generateTTPMessage_rangeProof_accepted_seventySeven :
    ∃ message, (.ok ⟨⟨⟨77, 58, 37⟩, 53⟩, 2, 0⟩ : Except JavaException TTPMessage) = .ok message ∧
      message.x = 2 ∧
      (∃ P Q p q : ℕ, message.commitment.group.N = ((P * Q : ℕ) : ℤ) ∧ P = 2 * p + 1 ∧
        Q = 2 * q + 1 ∧ P.Prime ∧ Q.Prime ∧ p.Prime ∧ q.Prime ∧ P ≠ Q) ∧
      ∀ (a b : ℤ) (proofCoins : RangeProofCoins) (big : Go.MathBig), a ≤ 2 → 2 ≤ b → ∃ proof,
        HPAKErangeProof.calculateRangeProof message ⟨a, b⟩ proofCoins = .ok proof ∧
        HPAKErangeProof.validateRangeProof proof message.commitment ⟨a, b⟩ = .ok () ∧
        Go.validateRangeProof big a b [message.commitment.commitmentValue,
          message.commitment.group.N, message.commitment.group.g, message.commitment.group.h]
          proof.toArray = true :=
  generateTTPMessage_rangeProof_accepted (fun z => decide z.natAbs.Prime)
    (fun _ passes => of_decide_eq_true passes) ⟨[7], [[7], [11]]⟩ (by decide)
    ⟨[0], 0, [1], 0, [0, 1]⟩ 2 (2 ^ 552 * 77 - 1) (by decide +kernel)

/-- The set-up's commitments hide: in every group `generate()` returns, `h = g ^ alpha` for an
`alpha` coprime to the common order `p * q`, so `g` and `h` generate one cyclic subgroup and
every commitment `commit(group, x, r)` is also a commitment to any other `x'`, under some key. -/
theorem generate_commit_hides {isProbablePrime : ℤ → Bool}
    (sound : ∀ z, isProbablePrime z = true → z.natAbs.Prime) {safePrimeCoins : SafePrimeCoins}
    (candidatesPrime : ∀ z ∈ safePrimeCoins.candidatesP ++ safePrimeCoins.candidatesQ.flatten,
      0 < z ∧ z.natAbs.Prime) (coins : GeneratorCoins) :
    Returns (fun group : SecretOrderGroup => ∀ x r x' : ℤ, ∃ r' : ℤ,
        TTPGenerator.commit group x r = TTPGenerator.commit group x' r')
      (generate isProbablePrime safePrimeCoins coins) := by
  apply returns_imp (generate_returns sound candidatesPrime coins)
  rintro ⟨N, g, h⟩ ⟨P, Q, p, q, size, -, -, PPrime, QPrime, -, -, -, G, H, gNamed, hNamed,
    orderG, orderH, member⟩ x r x'
  dsimp only at size gNamed hNamed
  subst size
  have : NeZero (P * Q) := ⟨(Nat.mul_pos PPrime.pos QPrime.pos).ne'⟩
  have gPower : G ∈ Subgroup.zpowers H := by
    rw [zpowers_eq_of_orderOf_eq member (orderH.trans orderG.symm)]
    exact Subgroup.mem_zpowers G
  obtain ⟨r', same⟩ := exists_commit_eq G H gPower x r x'
  refine ⟨r', ?_⟩
  rw [commit_unit gNamed hNamed, commit_unit gNamed hNamed, same]

theorem generate_commit_hides_seventySeven :
    Returns (fun group : SecretOrderGroup => ∀ x r x' : ℤ, ∃ r' : ℤ,
        TTPGenerator.commit group x r = TTPGenerator.commit group x' r')
      (generate (fun z => decide z.natAbs.Prime) ⟨[7], [[7], [11]]⟩
        ⟨[0], 0, [1], 0, [0, 1]⟩) :=
  generate_commit_hides (fun _ passes => of_decide_eq_true passes) (by decide) _

end Setup

end ZkRangeProof
