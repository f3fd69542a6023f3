import ZkRangeProof.Java.Verifier
import ZkRangeProof.Library.ExceptSeq

/-! The Java prover: `HPAKEEqualityConstraint.calculateZeroKnowledgeProof`,
`HPAKESquare.calculateZeroKnowledgeProof`, `takeRandomM`, `takeRandomR` and
`HPAKErangeProof.calculateRangeProof`, with `TTPGenerator`'s commitment and key. Every
`SecureRandom` draw is an explicit coin: `createRandomInRange` turns a coin into a value of
its range, and as the coin runs over the integers the value runs over the whole range. -/

namespace ZkRangeProof.Java

open BigInteger

/-- BouncyCastle's `BigIntegers.createRandomInRange(min, max, random)`: a value of
`[min, max]`, here `min` plus the coin reduced modulo the width; `min > max` raises. -/
def createRandomInRange (min max coin : ℤ) : Except JavaException ℤ :=
  if max < min then throw (.illegalArgument none) else pure (min + coin % (max - min + 1))

theorem createRandomInRange_of_le {min max : ℤ} (ordered : min ≤ max) (coin : ℤ) :
    createRandomInRange min max coin = .ok (min + coin % (max - min + 1)) := by
  simp [createRandomInRange, not_lt.mpr ordered]

theorem createRandomInRange_mem {min max coin value : ℤ}
    (drawn : createRandomInRange min max coin = .ok value) : min ≤ value ∧ value ≤ max := by
  unfold createRandomInRange at drawn
  split at drawn
  · cases drawn
  · rename_i ordered
    cases drawn
    have width : 0 < max - min + 1 := by omega
    have := Int.emod_nonneg coin width.ne'
    have := Int.emod_lt_of_pos coin width
    omega

theorem createRandomInRange_draw {min max : ℤ} (ordered : min ≤ max) (coin : ℤ) :
    ∃ value, createRandomInRange min max coin = .ok value ∧ min ≤ value ∧ value ≤ max :=
  ⟨_, createRandomInRange_of_le ordered coin,
    createRandomInRange_mem (createRandomInRange_of_le ordered coin)⟩

theorem createRandomInRange_of_mem {min max value : ℤ} (low : min ≤ value) (high : value ≤ max) :
    createRandomInRange min max (value - min) = .ok value := by
  rw [createRandomInRange_of_le (le_trans low high), Int.emod_eq_of_lt (by omega) (by omega)]
  congr 1; omega

namespace TTPGenerator

def s : ℕ := 552

/-- `generateKey(N, random)`: a key in `[-(2 ^ s * N - 1), 2 ^ s * N - 1]`. -/
def generateKey (N coin : ℤ) : Except JavaException ℤ :=
  createRandomInRange (-(2 ^ s * N - 1)) (2 ^ s * N - 1) coin

/-- `commit(group, valueToHide, key)`: `g ^ m * h ^ r mod N`. -/
def commit (group : SecretOrderGroup) (valueToHide key : ℤ) : Except JavaException Commitment := do
  let value ← powProduct group.N group.g valueToHide group.h key
  pure ⟨group, value⟩

theorem commit_group {group : SecretOrderGroup} {valueToHide key : ℤ} {commitment : Commitment}
    (committed : commit group valueToHide key = .ok commitment) : commitment.group = group := by
  rw [commit, ExceptSeq.bind_eq_ok_iff] at committed
  obtain ⟨value, -, made⟩ := committed
  cases made
  rfl

theorem commit_nonneg {group : SecretOrderGroup} {valueToHide key : ℤ} {commitment : Commitment}
    (committed : commit group valueToHide key = .ok commitment) :
    0 ≤ commitment.commitmentValue := by
  rw [commit, ExceptSeq.bind_eq_ok_iff] at committed
  obtain ⟨value, computed, made⟩ := committed
  cases made
  exact powProduct_nonneg computed

/-- `generateTTPMessage(secretValue, group)`: a fresh key, and the commitment to the secret
under it. -/
def generateTTPMessage (secretValue : ℤ) (group : SecretOrderGroup) (keyCoin : ℤ) :
    Except JavaException TTPMessage := do
  let secretRandom ← generateKey group.N keyCoin
  let commitment ← commit group secretValue secretRandom
  return ⟨commitment, secretValue, secretRandom⟩

end TTPGenerator

/-- The coins of one `HPAKEEqualityConstraint.calculateZeroKnowledgeProof`. -/
structure EqualityCoins where
  w : ℤ
  n1 : ℤ
  n2 : ℤ

structure SquareCoins where
  r2 : ℤ
  equality : EqualityCoins

/-- The coins of `calculateRangeProof`, in the order the code draws them. -/
structure RangeProofCoins where
  rPrime : ℤ
  equality2 : EqualityCoins
  w : ℤ
  rPrimePrime : ℤ
  square3 : SquareCoins
  m4 : ℤ
  m1 : ℤ
  res0 : ℤ
  res1 : ℤ
  square4 : SquareCoins

namespace HPAKEEqualityConstraint

def t : ℕ := 128

def l : ℕ := 40

def s1 : ℕ := TTPGenerator.s

def s2 : ℕ := TTPGenerator.s

def b : ℤ := 2 ^ 256

/-- The honest prover's transcript for first messages `W1`, `W2` and blinding `w, n1, n2`. -/
def transcript (W1 W2 x r1 r2 w n1 n2 : ℤ) : ECProof :=
  let c := DigestUtil.calculateHash [W1, W2]
  ⟨c, w + c * x, n1 + c * r1, n2 + c * r2⟩

def calculateZeroKnowledgeProof (N g1 g2 h1 h2 x r1 r2 : ℤ) (coins : EqualityCoins) :
    Except JavaException ECProof := do
  let w ← createRandomInRange 1 (2 ^ (l + t) * b - 1) coins.w
  let n1 ← createRandomInRange 1 (2 ^ (l + t + s1) * N - 1) coins.n1
  let n2 ← createRandomInRange 1 (2 ^ (l + t + s2) * N - 1) coins.n2
  let W1 ← powProduct N g1 w h1 n1
  let W2 ← powProduct N g2 w h2 n2
  pure (transcript W1 W2 x r1 r2 w n1 n2)

end HPAKEEqualityConstraint

namespace HPAKESquare

def calculateZeroKnowledgeProof (N g h x r1 : ℤ) (coins : SquareCoins) :
    Except JavaException SquareProof := do
  let r2 ← TTPGenerator.generateKey N coins.r2
  let r3 := r1 - r2 * x
  let F ← powProduct N g x h r2
  let ecProof ← HPAKEEqualityConstraint.calculateZeroKnowledgeProof N g F h h x r2 r3 coins.equality
  pure ⟨F, ecProof⟩

end HPAKESquare

namespace HPAKErangeProof

/-- `takeRandomM(sum)`: `m1, m2, m4 ≥ 0` with `m1 + m2 + m4 ^ 2 = sum`, as `(m1, m2, m4)`. -/
def takeRandomM (sum coinM4 coinM1 : ℤ) : Except JavaException (ℤ × ℤ × ℤ) := do
  let maxForM4 ← BigIntUtil.floorSquareRoot sum
  let m4 ← createRandomInRange 0 maxForM4 coinM4
  let remaining := sum - m4 * m4
  let m1 ← createRandomInRange 0 remaining coinM1
  pure (m1, remaining - m1, m4)

/-- For `sum ≥ 0` every pair of coins splits `sum` into `m1 + m2 + m4 ^ 2` with
`m1, m2, m4 ≥ 0`: `m4` is at most `⌊√sum⌋`, so the remainder it leaves is not negative. -/
theorem takeRandomM_spec {sum : ℤ} (nonneg : 0 ≤ sum) (coinM4 coinM1 : ℤ) :
    ∃ m1 m2 m4, takeRandomM sum coinM4 coinM1 = .ok (m1, m2, m4) ∧
      0 ≤ m1 ∧ 0 ≤ m2 ∧ 0 ≤ m4 ∧ m1 + m2 + m4 * m4 = sum := by
  have rootSquare := BigIntUtil.sqrt_mul_self_le nonneg
  obtain ⟨m4, drawM4, m4Low, m4High⟩ := createRandomInRange_draw (Int.natCast_nonneg _) coinM4
  have remainingNonneg : 0 ≤ sum - m4 * m4 := by nlinarith
  obtain ⟨m1, drawM1, m1Low, m1High⟩ := createRandomInRange_draw remainingNonneg coinM1
  refine ⟨m1, sum - m4 * m4 - m1, m4, ?_, m1Low, by omega, m4Low, by ring⟩
  simp only [takeRandomM, BigIntUtil.floorSquareRoot_eq nonneg, ExceptSeq.ok_bind, drawM4, drawM1]
  rfl

/-- `floorSquareRoot` is the integer square root: for `n ≥ 1` the Babylonian loop exits on its
guard and `approximateSquareRoot` returns where it exits, every `n ≥ 0` gets `r` with
`r ^ 2 ≤ n < (r + 1) ^ 2`, and a negative `n` raises `IllegalArgumentException`. So for every
`sum ≥ 0` and all coins `takeRandomM` splits `sum` into `m1 + m2 + m4 ^ 2` with
`m1, m2, m4 ≥ 0`. -/
theorem floorSquareRoot_takeRandomM :
    (∀ n : ℤ, 0 ≤ n →
      (1 ≤ n → ∃ final, WhileLoop.run BigIntUtil.squareRootGuard (BigIntUtil.squareRootRound n)
          (n.toNat + 4) (0, 0, 2 ^ (bitLength n / 2)) = some final ∧
        BigIntUtil.approximateSquareRoot n = final.2.2) ∧
      ∃ r, BigIntUtil.floorSquareRoot n = .ok r ∧ r ^ 2 ≤ n ∧ n < (r + 1) ^ 2) ∧
    (∀ n : ℤ, n < 0 → BigIntUtil.floorSquareRoot n =
      .error (.illegalArgument (some "Negative number does not have square root"))) ∧
    ∀ sum : ℤ, 0 ≤ sum → ∀ coinM4 coinM1 : ℤ, ∃ m1 m2 m4,
      takeRandomM sum coinM4 coinM1 = .ok (m1, m2, m4) ∧ 0 ≤ m1 ∧ 0 ≤ m2 ∧ 0 ≤ m4 ∧
        m1 + m2 + m4 ^ 2 = sum := by
  refine ⟨fun n nonneg => ⟨fun large => ?_, ?_⟩, fun n negative => ?_,
    fun sum nonneg coinM4 coinM1 => ?_⟩
  · obtain ⟨final, exits, computed, -⟩ := BigIntUtil.approximateSquareRoot_exits large
    exact ⟨final, exits, computed⟩
  · refine ⟨_, BigIntUtil.floorSquareRoot_eq nonneg, ?_, ?_⟩
    · rw [sq]
      exact BigIntUtil.sqrt_mul_self_le nonneg
    · rw [sq]
      exact BigIntUtil.lt_sqrt_succ_mul_self nonneg
  · rw [BigIntUtil.floorSquareRoot, if_pos negative]
    rfl
  · obtain ⟨m1, m2, m4, drawn, m1Nonneg, m2Nonneg, m4Nonneg, split⟩ :=
      takeRandomM_spec nonneg coinM4 coinM1
    exact ⟨m1, m2, m4, drawn, m1Nonneg, m2Nonneg, m4Nonneg, by rw [sq]; exact split⟩

theorem floorSquareRoot_takeRandomM_ten :
    (∃ final, WhileLoop.run BigIntUtil.squareRootGuard (BigIntUtil.squareRootRound 10)
        ((10 : ℤ).toNat + 4) (0, 0, 2 ^ (bitLength 10 / 2)) = some final ∧
      BigIntUtil.approximateSquareRoot 10 = final.2.2) ∧
      (∃ r, BigIntUtil.floorSquareRoot 10 = .ok r ∧ r ^ 2 ≤ 10 ∧ 10 < (r + 1) ^ 2) ∧
      ∃ m1 m2 m4, takeRandomM 10 3 4 = .ok (m1, m2, m4) ∧ 0 ≤ m1 ∧ 0 ≤ m2 ∧ 0 ≤ m4 ∧
        m1 + m2 + m4 ^ 2 = 10 :=
  ⟨(floorSquareRoot_takeRandomM.1 10 (by decide)).1 (by decide),
    (floorSquareRoot_takeRandomM.1 10 (by decide)).2,
    floorSquareRoot_takeRandomM.2.2 10 (by decide) 3 4⟩

/-- For `sum < 0`, `takeRandomM` raises what `floorSquareRoot` raises, whatever its coins. -/
theorem takeRandomM_of_neg {sum : ℤ} (negative : sum < 0) (coinM4 coinM1 : ℤ) :
    takeRandomM sum coinM4 coinM1 =
      .error (.illegalArgument (some "Negative number does not have square root")) := by
  rw [takeRandomM, BigIntUtil.floorSquareRoot, if_pos negative]
  rfl

/-- `takeRandomR(sum, N)`: `r1 + r2 + r3 = sum`, the first two in `[-N, N]`. -/
def takeRandomR (sum N coinRes0 coinRes1 : ℤ) : Except JavaException (ℤ × ℤ × ℤ) := do
  let res0 ← createRandomInRange (-N) N coinRes0
  let res1 ← createRandomInRange (-N) N coinRes1
  pure (res0, res1, sum - res0 - res1)

theorem takeRandomR_spec {N : ℤ} (nonneg : 0 ≤ N) (sum coinRes0 coinRes1 : ℤ) :
    ∃ res0 res1, takeRandomR sum N coinRes0 coinRes1 = .ok (res0, res1, sum - res0 - res1) := by
  obtain ⟨res0, drawRes0, -⟩ := createRandomInRange_draw (show -N ≤ N by omega) coinRes0
  obtain ⟨res1, drawRes1, -⟩ := createRandomInRange_draw (show -N ≤ N by omega) coinRes1
  refine ⟨res0, res1, ?_⟩
  simp only [takeRandomR, drawRes0, drawRes1, ExceptSeq.ok_bind]
  rfl

/-- `calculateRangeProof(ttpMessage, range)`, steps 1 to 6 of Peng and Bao. -/
def calculateRangeProof (ttpMessage : TTPMessage) (range : ClosedRange) (coins : RangeProofCoins) :
    Except JavaException RangeProof := do
  let N := ttpMessage.commitment.group.N
  let g := ttpMessage.commitment.group.g
  let h := ttpMessage.commitment.group.h
  let c := ttpMessage.commitment.commitmentValue
  let a := range.start
  let b := range.end
  let m := ttpMessage.x
  let r := ttpMessage.y
  -- Step 1
  let c1 ← BigIntUtil.divMod c (← modPow g (a - 1) N) N
  let c2 ← BigIntUtil.divMod (← modPow g (b + 1) N) c N
  -- Step 2
  let rPrime ← createRandomInRange 0 k2 coins.rPrime
  let cPrime ← powProduct N c1 (b - m + 1) h rPrime
  let equalityProof2 ← HPAKEEqualityConstraint.calculateZeroKnowledgeProof N g c1 h h
    (b - m + 1) (-r) rPrime coins.equality2
  -- Step 3
  let w ← createRandomInRange 1 k2 coins.w
  let rPrimePrime ← createRandomInRange 0 k2 coins.rPrimePrime
  let cPrimePrime ← powProduct N cPrime (w * w) h rPrimePrime
  let sqrProof3 ← HPAKESquare.calculateZeroKnowledgeProof N cPrime h w rPrimePrime coins.square3
  -- Step 4
  let (m1, m2, m4) ← takeRandomM (w * w * (m - a + 1) * (b - m + 1)) coins.m4 coins.m1
  let m3 := m4 * m4
  let (r1, r2, r3) ← takeRandomR (w * w * ((b - m + 1) * r + rPrime) + rPrimePrime) N
    coins.res0 coins.res1
  let cPrime1 ← powProduct N g m1 h r1
  let cPrime2 ← powProduct N g m2 h r2
  let cPrime3 ← BigIntUtil.divMod cPrimePrime (cPrime1 * cPrime2) N
  let sqrProof4 ← HPAKESquare.calculateZeroKnowledgeProof N g h m4 r3 coins.square4
  -- Step 5, made non-interactive
  let s := DigestUtil.calculateHash [c1] % k1 + 1
  let t := DigestUtil.calculateHash [c2] % k1 + 1
  -- Step 6
  let x := s * m1 + m2 + m3
  let y := m1 + t * m2 + m3
  let u := s * r1 + r2 + r3
  let v := r1 + t * r2 + r3
  pure ⟨equalityProof2, sqrProof3, sqrProof4, cPrime, cPrime1, cPrime2, cPrime3, x, y, u, v⟩

end HPAKErangeProof

end ZkRangeProof.Java
