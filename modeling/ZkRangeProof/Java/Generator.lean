import ZkRangeProof.Java.Prover
import ZkRangeProof.Library.Loop
import ZkRangeProof.Library.ModularOrder

/-! `SecretOrderGroupGenerator`: the trusted set-up's generators `b0, b1` of the subgroup of order
`p * q` modulo `N = P * Q`, for safe primes `P = 2p + 1` and `Q = 2q + 1` (steps 2 to 4 of the
set-up procedure of Fujisaki and Okamoto). Its loops are modelled as they run: the Euclid loop
of `extendedGCDBezout` by `WhileLoop.run`, and the two loops that draw until a test passes by
`WhileLoop.draw`, over the draws `SecureRandom` would give them. `generate` draws the safe primes
first, each as a loop that draws probable primes until the half of one passes the primality
test, and `Q` again while it equals `P`; the test of the half, `isProbablePrime(certainty)`, is a
parameter. -/

namespace ZkRangeProof.Java

namespace SecretOrderGroupGenerator

open BigInteger

/-! ### `extendedGCDBezout` -/

structure BezoutState where
  r0 : ℤ
  r1 : ℤ
  s0 : ℤ
  s1 : ℤ
  t0 : ℤ
  t1 : ℤ
  deriving DecidableEq, Repr

/-- The loop guard `!r1.equals(BigInteger.ZERO)`. -/
def bezoutGuard (state : BezoutState) : Bool := state.r1 ≠ 0

/-- One round: `r0.divideAndRemainder(r1)` truncates toward zero, and `temp` rotates each pair
of coefficients. -/
def bezoutRound (state : BezoutState) : BezoutState :=
  let quotient := (state.r0.tdiv state.r1, state.r0.tmod state.r1)
  { r0 := state.r1
    r1 := quotient.2
    s0 := state.s1
    s1 := state.s0 - quotient.1 * state.s1
    t0 := state.t1
    t1 := state.t0 - quotient.1 * state.t1 }

/-- `extendedGCDBezout(a, b)`: `[s0, t0]` when the loop exits. Each round lowers `|r1|`, so the
guard is tested at most `|b| + 1` times (`exists_extendedGCDBezout`). -/
def extendedGCDBezout (a b : ℤ) : Option (ℤ × ℤ) :=
  (WhileLoop.run bezoutGuard bezoutRound (b.natAbs + 1) ⟨a, b, 1, 0, 0, 1⟩).map
    fun state => (state.s0, state.t0)

/-- What every round keeps: each remainder is its two coefficients applied to `a` and `b`, and
the two remainders have the gcd of `a` and `b`. -/
def BezoutInvariant (a b : ℤ) (state : BezoutState) : Prop :=
  state.r0 = state.s0 * a + state.t0 * b ∧ state.r1 = state.s1 * a + state.t1 * b ∧
    Int.gcd state.r0 state.r1 = Int.gcd a b

section Bezout

variable {a b : ℤ} {state : BezoutState}

/-- A round keeps the invariant: the new remainder is `r0 - q * r1`, with the coefficients
combined the same way, and `gcd(r1, r0 - q * r1) = gcd(r0, r1)`. -/
theorem bezoutRound_invariant (kept : BezoutInvariant a b state) :
    BezoutInvariant a b (bezoutRound state) := by
  obtain ⟨first, second, common⟩ := kept
  have division := Int.tmod_add_mul_tdiv state.r0 state.r1
  refine ⟨second, ?_, ?_⟩
  · show state.r0.tmod state.r1 = (state.s0 - state.r0.tdiv state.r1 * state.s1) * a +
      (state.t0 - state.r0.tdiv state.r1 * state.t1) * b
    linear_combination division + first - state.r0.tdiv state.r1 * second
  · have remainder : state.r0.tmod state.r1 = state.r0 + -state.r0.tdiv state.r1 * state.r1 := by
      linear_combination division
    show Int.gcd state.r1 (state.r0.tmod state.r1) = Int.gcd a b
    rw [remainder, Int.gcd_add_mul_right_right, Int.gcd_comm, common]

theorem bezoutRound_nonneg (r0Nonneg : 0 ≤ state.r0) (r1Nonneg : 0 ≤ state.r1) :
    0 ≤ (bezoutRound state).r0 ∧ 0 ≤ (bezoutRound state).r1 :=
  ⟨r1Nonneg, Int.tmod_nonneg _ r0Nonneg⟩

theorem bezoutRound_lowers (continues : bezoutGuard state = true) :
    (bezoutRound state).r1.natAbs < state.r1.natAbs := by
  have nonzero : state.r1 ≠ 0 := by simpa [bezoutGuard] using continues
  show (state.r0.tmod state.r1).natAbs < state.r1.natAbs
  rw [Int.natAbs_tmod]
  exact Nat.mod_lt _ (Int.natAbs_pos.mpr nonzero)

/-- For `a, b ≥ 0` the loop exits, and `[s0, t0]` are Bezout coefficients of `a` and `b`. -/
theorem exists_extendedGCDBezout (aNonneg : 0 ≤ a) (bNonneg : 0 ≤ b) :
    ∃ s t, extendedGCDBezout a b = some (s, t) ∧ s * a + t * b = Int.gcd a b := by
  -- the Bezout invariant, with the remainders non-negative so that the last one is the gcd
  let Inv := fun state : BezoutState => BezoutInvariant a b state ∧ 0 ≤ state.r0 ∧ 0 ≤ state.r1
  have initial : Inv ⟨a, b, 1, 0, 0, 1⟩ := ⟨⟨by ring, by ring, rfl⟩, aNonneg, bNonneg⟩
  have keeps (state : BezoutState) (_ : bezoutGuard state = true) (kept : Inv state) :
      Inv (bezoutRound state) :=
    ⟨bezoutRound_invariant kept.1, bezoutRound_nonneg kept.2.1 kept.2.2⟩
  obtain ⟨final, exits⟩ := WhileLoop.exists_run_of_measure Inv (fun state => state.r1.natAbs)
    (fun state continues kept => ⟨keeps state continues kept, bezoutRound_lowers continues⟩)
    initial (Nat.lt_succ_self b.natAbs)
  obtain ⟨⟨⟨first, -, common⟩, r0Nonneg, -⟩, stops⟩ := WhileLoop.run_invariant Inv keeps initial exits
  have stopped : final.r1 = 0 := by simpa [bezoutGuard] using stops
  refine ⟨final.s0, final.t0, by rw [extendedGCDBezout, exits]; rfl, ?_⟩
  rw [stopped, Int.gcd_zero_right] at common
  rw [← first, ← common, Int.natAbs_of_nonneg r0Nonneg]

end Bezout

/-- `extendedGCDBezout` computes Bezout coefficients: every round of its loop, with Java's
truncating `divideAndRemainder`, keeps `r0 = s0 * a + t0 * b`, `r1 = s1 * a + t1 * b` and
`gcd(r0, r1) = gcd(a, b)`; and for positive `a` and `b` the loop exits and returns `[s, t]`
with `s * a + t * b = gcd(a, b)`. -/
theorem extendedGCDBezout_bezout :
    (∀ (a b : ℤ) (state : BezoutState), bezoutGuard state = true →
        BezoutInvariant a b state → BezoutInvariant a b (bezoutRound state)) ∧
      ∀ a b : ℤ, 0 < a → 0 < b →
        ∃ s t, extendedGCDBezout a b = some (s, t) ∧ s * a + t * b = Int.gcd a b :=
  ⟨fun _ _ _ _ kept => bezoutRound_invariant kept,
    fun _ _ aPositive bPositive => exists_extendedGCDBezout aPositive.le bPositive.le⟩

theorem extendedGCDBezout_bezout_240_46 :
    BezoutInvariant 240 46 (bezoutRound ⟨240, 46, 1, 0, 0, 1⟩) ∧
      ∃ s t, extendedGCDBezout 240 46 = some (s, t) ∧ s * 240 + t * 46 = Int.gcd 240 46 :=
  ⟨extendedGCDBezout_bezout.1 240 46 ⟨240, 46, 1, 0, 0, 1⟩ (by decide)
      ⟨by norm_num, by norm_num, rfl⟩,
    extendedGCDBezout_bezout.2 240 46 (by decide) (by decide)⟩

example : extendedGCDBezout 240 46 = some (-9, 47) := by decide

/-! ### Steps 2 to 4: the generators -/

/-- One round of the `do … while` in `findGeneratorForSafePrime(P)`: draw `g` from
`[2, P - 2]` and evaluate `!g.modPow(p, P).equals(ONE) || g.modPow(TWO, P).equals(ONE)`, whose
second half runs only when the first is false. -/
def generatorRound (P p coin : ℤ) : Except JavaException (ℤ × Bool) := do
  let g ← createRandomInRange 2 (P - 2) coin
  let gp ← modPow g p P
  if gp ≠ 1 then return (g, true)
  let g2 ← modPow g 2 P
  return (g, g2 = 1)

/-- `findGeneratorForSafePrime(P)`: draws until `g ^ p = 1` and `g ^ 2 ≠ 1` modulo `P`, for
`p = (P - 1) / 2`. -/
def findGeneratorForSafePrime (P : ℤ) (draws : List ℤ) : ExceptT JavaException Option ℤ :=
  let p := (P - 1).tdiv 2
  WhileLoop.draw (generatorRound P p) draws

/-- Step 2 for one safe prime: `findGeneratorForSafePrime(P)` raised to a random
`k ∈ [1, p - 1]` modulo `P`. -/
def findSubgroupGenerator (P : ℤ) (draws : List ℤ) (exponentCoin : ℤ) :
    ExceptT JavaException Option ℤ := do
  let p := (P - 1).tdiv 2
  let g ← findGeneratorForSafePrime P draws
  let k ← createRandomInRange 1 (p - 1) exponentCoin
  modPow g k P

/-- One round of the loop of step 4: draw `alpha` from `[min(p, q), p * q]` and evaluate
`alpha.mod(p).equals(ZERO) || alpha.mod(q).equals(ZERO)`. -/
def alphaRound (p q coin : ℤ) : Except JavaException (ℤ × Bool) := do
  let alpha ← createRandomInRange (min p q) (p * q) coin
  let alphaP ← mod alpha p
  if alphaP = 0 then return (alpha, true)
  let alphaQ ← mod alpha q
  return (alpha, alphaQ = 0)

/-- The draws of `findGenerators`, in the order the code makes them: those of the two loops of
step 2 with the exponent after each, then those of the loop of step 4. -/
structure GeneratorCoins where
  generatorP : List ℤ
  exponentP : ℤ
  generatorQ : List ℤ
  exponentQ : ℤ
  alpha : List ℤ

/-- `findGenerators([P, Q])`: `[b0, b1]`. -/
def findGenerators (P Q : ℤ) (coins : GeneratorCoins) : ExceptT JavaException Option (ℤ × ℤ) := do
  let p := (P - 1).tdiv 2
  let q := (Q - 1).tdiv 2
  let N := P * Q
  -- Step 2
  let gP ← findSubgroupGenerator P coins.generatorP coins.exponentP
  let gQ ← findSubgroupGenerator Q coins.generatorQ coins.exponentQ
  -- Step 3
  let bezout ← extendedGCDBezout P Q
  let b0 ← mod (gP * bezout.2 * Q + gQ * bezout.1 * P) N
  -- Step 4
  let alpha ← WhileLoop.draw (alphaRound p q) coins.alpha
  let b1 ← modPow b0 alpha N
  return (b0, b1)

example : (findGenerators 7 11 ⟨[0], 0, [1], 0, [0, 1]⟩).run = some (.ok (58, 37)) := by decide

/-! ### Step 1 and `generate`: the safe primes and the group -/

/-- One round of the `do … while` in `generateSafePrime`: the draw `bigPrime`, a probable prime
as `new BigInteger(bitlength, certainty, rnd)` returns it, and whether
`smallPrime = (bigPrime - 1) / 2` fails `smallPrime.isProbablePrime(certainty)`. -/
def safePrimeRound (isProbablePrime : ℤ → Bool) (bigPrime : ℤ) : Except JavaException (ℤ × Bool) :=
  let smallPrime := (bigPrime - 1).tdiv 2
  return (bigPrime, !isProbablePrime smallPrime)

/-- `generateSafePrime(bitlength, certainty)`: draws until `(P - 1) / 2` passes the primality
test. Its counter `attempts` only feeds the log. -/
def generateSafePrime (isProbablePrime : ℤ → Bool) (draws : List ℤ) :
    ExceptT JavaException Option ℤ :=
  WhileLoop.draw (safePrimeRound isProbablePrime) draws

structure SafePrimeCoins where
  candidatesP : List ℤ
  candidatesQ : List (List ℤ)

/-- One round of the `do … while` for `Q` in `generateSafePrimes`: a run of
`generateSafePrime`, and whether its result equals `P`. -/
def distinctSafePrimeRound (isProbablePrime : ℤ → Bool) (P : ℤ) (draws : List ℤ) :
    ExceptT JavaException Option (ℤ × Bool) := do
  let result ← generateSafePrime isProbablePrime draws
  return (result, decide (result = P))

/-- `generateSafePrimes(bitlength, certainty)`: `[P, Q]`, with `Q` drawn until it differs
from `P`. -/
def generateSafePrimes (isProbablePrime : ℤ → Bool) (coins : SafePrimeCoins) :
    ExceptT JavaException Option (ℤ × ℤ) := do
  let P ← generateSafePrime isProbablePrime coins.candidatesP
  let Q ← WhileLoop.drawM (distinctSafePrimeRound isProbablePrime P) coins.candidatesQ
  return (P, Q)

/-- `generate()`: `SecretOrderGroup(P * Q, b0, b1)`. The generator's `bitLength` and
`certainty` reach the code only through the draws and the primality test. -/
def generate (isProbablePrime : ℤ → Bool) (safePrimeCoins : SafePrimeCoins)
    (coins : GeneratorCoins) : ExceptT JavaException Option SecretOrderGroup := do
  let (P, Q) ← generateSafePrimes isProbablePrime safePrimeCoins
  let (b0, b1) ← findGenerators P Q coins
  let N := P * Q
  return ⟨N, b0, b1⟩

example : (generate (fun z => decide z.natAbs.Prime) ⟨[7], [[7], [11]]⟩
    ⟨[0], 0, [1], 0, [0, 1]⟩).run = some (.ok ⟨77, 58, 37⟩) := by decide

/-! ### What the generators are -/

section Generators

open ExceptSeq WhileLoop ModularOrder

theorem tdiv_safePrime {P p : ℕ} (safe : P = 2 * p + 1) : ((P : ℤ) - 1).tdiv 2 = p := by
  rw [Int.tdiv_eq_ediv_of_nonneg (by omega)]
  omega

theorem generatorRound_eq {P e : ℤ} (large : 4 ≤ P) (nonneg : 0 ≤ e) (coin : ℤ) :
    ∃ g, createRandomInRange 2 (P - 2) coin = .ok g ∧
      generatorRound P e coin = .ok (g, decide (g ^ e.toNat % P ≠ 1 ∨ g ^ 2 % P = 1)) := by
  obtain ⟨g, drawn, -⟩ := createRandomInRange_draw (by omega : (2 : ℤ) ≤ P - 2) coin
  refine ⟨g, drawn, ?_⟩
  have positive : 0 < P := by omega
  rw [generatorRound, drawn, ok_bind, modPow_of_nonneg positive nonneg, ok_bind]
  by_cases moved : g ^ e.toNat % P ≠ 1
  · rw [if_pos moved]
    simp [moved]
  · rw [if_neg moved, modPow_of_nonneg positive (by norm_num)]
    simp [moved]

theorem findGeneratorForSafePrime_returns {P : ℤ} (large : 4 ≤ P) (draws : List ℤ) :
    Returns (fun g => g ^ ((P - 1).tdiv 2).toNat % P = 1 ∧ g ^ 2 % P ≠ 1)
      (findGeneratorForSafePrime P draws) := by
  have nonneg : 0 ≤ (P - 1).tdiv 2 := Int.tdiv_nonneg (by omega) (by norm_num)
  apply returns_draw _ draws
  intro coin
  obtain ⟨g, -, round⟩ := generatorRound_eq large nonneg coin
  refine ⟨g, _, round, fun failed => ?_⟩
  simpa only [decide_eq_false_iff_not, not_or, not_not] using failed

theorem findSubgroupGenerator_returns {P p : ℕ} (safe : P = 2 * p + 1) (pPrime : p.Prime)
    (draws : List ℤ) (coin : ℤ) :
    Returns (fun g : ℤ => orderOf (g : ZMod P) = p) (findSubgroupGenerator P draws coin) := by
  have half : ((P : ℤ) - 1).tdiv 2 = p := tdiv_safePrime safe
  have two := pPrime.two_le
  apply returns_bind (findGeneratorForSafePrime_returns (by omega) draws)
  rintro g - ⟨power, square⟩
  rw [half, Int.toNat_natCast, ← intCast_eq_one_iff (by omega), Int.cast_pow] at power
  rw [Ne, ← intCast_eq_one_iff (by omega), Int.cast_pow] at square
  obtain ⟨k, drawn, low, high⟩ := createRandomInRange_draw (by omega : (1 : ℤ) ≤ p - 1) coin
  rw [half]
  apply returns_except_bind drawn
  apply returns_except (modPow_of_nonneg (by omega) (by omega))
  rw [ZMod.intCast_mod, Int.cast_pow]
  exact orderOf_pow_of_prime pPrime power square (by omega) (by omega)

theorem alphaRound_eq {p q : ℤ} (pPositive : 0 < p) (qPositive : 0 < q) (coin : ℤ) :
    ∃ alpha, createRandomInRange (min p q) (p * q) coin = .ok alpha ∧
      alphaRound p q coin = .ok (alpha, decide (alpha % p = 0 ∨ alpha % q = 0)) := by
  have ordered : min p q ≤ p * q :=
    le_trans (min_le_left p q) (le_mul_of_one_le_right pPositive.le qPositive)
  obtain ⟨alpha, drawn, -⟩ := createRandomInRange_draw ordered coin
  refine ⟨alpha, drawn, ?_⟩
  rw [alphaRound, drawn, ok_bind, mod_of_pos pPositive, ok_bind]
  by_cases divides : alpha % p = 0
  · rw [if_pos divides]
    simp [divides]
  · rw [if_neg divides, mod_of_pos qPositive]
    simp [divides]

theorem draw_alphaRound_returns {p q : ℤ} (pPositive : 0 < p) (qPositive : 0 < q)
    (draws : List ℤ) :
    Returns (fun alpha => min p q ≤ alpha ∧ alpha % p ≠ 0 ∧ alpha % q ≠ 0)
      (WhileLoop.draw (alphaRound p q) draws) := by
  apply returns_draw _ draws
  intro coin
  obtain ⟨alpha, drawn, round⟩ := alphaRound_eq pPositive qPositive coin
  refine ⟨alpha, _, round, fun failed => ?_⟩
  rw [decide_eq_false_iff_not, not_or] at failed
  exact ⟨(createRandomInRange_mem drawn).1, failed⟩

/-- What `findGenerators` returns: `b0` is the element of step 2 for `P` modulo `P` and the one
for `Q` modulo `Q`, and `b1 = b0 ^ alpha mod N` for an `alpha > 0` that neither `p` nor `q`
divides. -/
theorem findGenerators_returns {P Q p q : ℕ} (safeP : P = 2 * p + 1) (safeQ : Q = 2 * q + 1)
    (pPrime : p.Prime) (qPrime : q.Prime) (coprime : P.Coprime Q) (coins : GeneratorCoins) :
    Returns (fun generators : ℤ × ℤ => ∃ gP gQ alpha : ℤ,
        (findSubgroupGenerator P coins.generatorP coins.exponentP).run = some (.ok gP) ∧
        (findSubgroupGenerator Q coins.generatorQ coins.exponentQ).run = some (.ok gQ) ∧
        orderOf (gP : ZMod P) = p ∧ orderOf (gQ : ZMod Q) = q ∧
        generators.1 ≡ gP [ZMOD P] ∧ generators.1 ≡ gQ [ZMOD Q] ∧
        0 < alpha ∧ alpha % p ≠ 0 ∧ alpha % q ≠ 0 ∧
        generators.2 = generators.1 ^ alpha.toNat % (P * Q))
      (findGenerators P Q coins) := by
  have halfP := tdiv_safePrime safeP
  have halfQ := tdiv_safePrime safeQ
  have pPositive := pPrime.pos
  have qPositive := qPrime.pos
  have modulus : (0 : ℤ) < P * Q := mul_pos (by omega) (by omega)
  rw [findGenerators, halfP, halfQ]
  apply returns_bind (findSubgroupGenerator_returns safeP pPrime _ _)
  intro gP ranP orderP
  apply returns_bind (findSubgroupGenerator_returns safeQ qPrime _ _)
  intro gQ ranQ orderQ
  obtain ⟨s, t, bezout, gcd⟩ :=
    exists_extendedGCDBezout (Int.natCast_nonneg P) (Int.natCast_nonneg Q)
  rw [Int.gcd_natCast_natCast, coprime, Nat.cast_one] at gcd
  apply returns_option_bind bezout
  apply returns_except_bind (mod_of_pos modulus)
  apply returns_bind
    (draw_alphaRound_returns (by exact_mod_cast pPositive) (by exact_mod_cast qPositive) _)
  rintro alpha - ⟨low, notP, notQ⟩
  apply returns_except_bind (modPow_of_nonneg modulus (by omega))
  apply returns_pure
  refine ⟨gP, gQ, alpha, ranP, ranQ, orderP, orderQ, ?_, ?_, by omega, notP, notQ, rfl⟩
  · exact (Int.emod_emod_of_dvd _ (dvd_mul_right _ _)).trans (combination_modEq_left gcd gP gQ)
  · exact (Int.emod_emod_of_dvd _ (dvd_mul_left _ _)).trans (combination_modEq_right gcd gP gQ)

theorem coprime_toNat {p : ℕ} (pPrime : p.Prime) {alpha : ℤ} (nonneg : 0 ≤ alpha)
    (remainder : alpha % p ≠ 0) : p.Coprime alpha.toNat := by
  rw [Nat.Prime.coprime_iff_not_dvd pPrime]
  intro divides
  apply remainder
  rw [← Int.toNat_of_nonneg nonneg]
  exact Int.emod_eq_zero_of_dvd (Int.natCast_dvd_natCast.mpr divides)

/-- Elements `b0` that agree with elements of orders `p` and `q` modulo `P` and `Q`, and
`b1 = b0 ^ alpha mod N` for an `alpha > 0` that neither `p` nor `q` divides, are units of order
`p * q` modulo `N = P * Q`, with `b1` in the subgroup that `b0` generates. -/
theorem units_of_generators {P Q p q : ℕ} (pPrime : p.Prime) (qPrime : q.Prime)
    (coprime : P.Coprime Q) (halves : p.Coprime q) {b0 b1 gP gQ alpha : ℤ}
    (orderP : orderOf (gP : ZMod P) = p) (orderQ : orderOf (gQ : ZMod Q) = q)
    (atP : b0 ≡ gP [ZMOD P]) (atQ : b0 ≡ gQ [ZMOD Q]) (positive : 0 < alpha)
    (notP : alpha % p ≠ 0) (notQ : alpha % q ≠ 0) (power : b1 = b0 ^ alpha.toNat % (P * Q)) :
    ∃ u0 u1 : (ZMod (P * Q))ˣ, (b0 : ZMod (P * Q)) = u0 ∧ (b1 : ZMod (P * Q)) = u1 ∧
      orderOf u0 = p * q ∧ orderOf u1 = p * q ∧ u1 ∈ Subgroup.zpowers u0 := by
  have orderAtP : orderOf (b0 : ZMod P) = p := by
    rw [(ZMod.intCast_eq_intCast_iff _ _ _).mpr atP, orderP]
  have orderAtQ : orderOf (b0 : ZMod Q) = q := by
    rw [(ZMod.intCast_eq_intCast_iff _ _ _).mpr atQ, orderQ]
  have exponent : (p * q).Coprime alpha.toNat :=
    Nat.Coprime.mul_left (coprime_toNat pPrime positive.le notP)
      (coprime_toNat qPrime positive.le notQ)
  obtain ⟨u0, u1, cast0, cast1, order0, order1, member⟩ :=
    units_of_orders coprime halves (Nat.mul_pos pPrime.pos qPrime.pos) orderAtP orderAtQ exponent
  refine ⟨u0, u1, cast0, ?_, order0, order1, member⟩
  rw [power, ← Nat.cast_mul, ZMod.intCast_mod, Int.cast_pow]
  exact cast1

/-- `findGenerators` makes generators of the subgroup of order `p * q`: for distinct safe primes
`P = 2p + 1` and `Q = 2q + 1`, and draws on which its loops exit, it returns `[b0, b1]` where
`b0` is the element of step 2 modulo `P` and modulo `Q`, `b0` and `b1` are units of order
`p * q` modulo `N = P * Q`, and `b1` is in the subgroup `b0` generates. -/
theorem findGenerators_generators {P Q p q : ℕ} (pPrime : p.Prime) (qPrime : q.Prime)
    (PPrime : P.Prime) (QPrime : Q.Prime) (safeP : P = 2 * p + 1) (safeQ : Q = 2 * q + 1)
    (distinct : P ≠ Q) (coins : GeneratorCoins) {result : Except JavaException (ℤ × ℤ)}
    (exits : (findGenerators P Q coins).run = some result) :
    ∃ b0 b1 gP gQ : ℤ, result = .ok (b0, b1) ∧
      (findSubgroupGenerator P coins.generatorP coins.exponentP).run = some (.ok gP) ∧
      (findSubgroupGenerator Q coins.generatorQ coins.exponentQ).run = some (.ok gQ) ∧
      b0 ≡ gP [ZMOD P] ∧ b0 ≡ gQ [ZMOD Q] ∧
      ∃ u0 u1 : (ZMod (P * Q))ˣ, (b0 : ZMod (P * Q)) = u0 ∧ (b1 : ZMod (P * Q)) = u1 ∧
        orderOf u0 = p * q ∧ orderOf u1 = p * q ∧ u1 ∈ Subgroup.zpowers u0 := by
  have coprime : P.Coprime Q := (Nat.coprime_primes PPrime QPrime).mpr distinct
  have halves : p.Coprime q := (Nat.coprime_primes pPrime qPrime).mpr (by omega)
  obtain ⟨⟨b0, b1⟩, rfl, gP, gQ, alpha, ranP, ranQ, orderP, orderQ, atP, atQ, positive, notP,
    notQ, power⟩ := findGenerators_returns safeP safeQ pPrime qPrime coprime coins result exits
  exact ⟨b0, b1, gP, gQ, rfl, ranP, ranQ, atP, atQ, units_of_generators pPrime qPrime coprime
    halves orderP orderQ atP atQ positive notP notQ power⟩

theorem findGenerators_generators_seven_eleven :
    ∃ b0 b1 gP gQ : ℤ, (.ok (58, 37) : Except JavaException (ℤ × ℤ)) = .ok (b0, b1) ∧
      (findSubgroupGenerator 7 [0] 0).run = some (.ok gP) ∧
      (findSubgroupGenerator 11 [1] 0).run = some (.ok gQ) ∧
      b0 ≡ gP [ZMOD 7] ∧ b0 ≡ gQ [ZMOD 11] ∧
      ∃ u0 u1 : (ZMod (7 * 11))ˣ, (b0 : ZMod (7 * 11)) = u0 ∧ (b1 : ZMod (7 * 11)) = u1 ∧
        orderOf u0 = 3 * 5 ∧ orderOf u1 = 3 * 5 ∧ u1 ∈ Subgroup.zpowers u0 :=
  findGenerators_generators (P := 7) (Q := 11) Nat.prime_three Nat.prime_five (by decide)
    (by decide) rfl rfl (by decide) ⟨[0], 0, [1], 0, [0, 1]⟩ (by decide)

end Generators

/-! ### What `generate` returns -/

section Group

open WhileLoop ModularOrder

theorem findGenerators_units {P Q p q : ℕ} (pPrime : p.Prime) (qPrime : q.Prime)
    (PPrime : P.Prime) (QPrime : Q.Prime) (safeP : P = 2 * p + 1) (safeQ : Q = 2 * q + 1)
    (distinct : P ≠ Q) (coins : GeneratorCoins) :
    Returns (fun generators : ℤ × ℤ => ∃ u0 u1 : (ZMod (P * Q))ˣ,
        (generators.1 : ZMod (P * Q)) = u0 ∧ (generators.2 : ZMod (P * Q)) = u1 ∧
        orderOf u0 = p * q ∧ orderOf u1 = p * q ∧ u1 ∈ Subgroup.zpowers u0)
      (findGenerators P Q coins) := by
  have coprime : P.Coprime Q := (Nat.coprime_primes PPrime QPrime).mpr distinct
  have halves : p.Coprime q := (Nat.coprime_primes pPrime qPrime).mpr (by omega)
  apply returns_imp (findGenerators_returns safeP safeQ pPrime qPrime coprime coins)
  rintro ⟨b0, b1⟩ ⟨gP, gQ, alpha, -, -, orderP, orderQ, atP, atQ, positive, notP, notQ, power⟩
  exact units_of_generators pPrime qPrime coprime halves orderP orderQ atP atQ positive notP notQ
    power

theorem generateSafePrime_returns (isProbablePrime : ℤ → Bool) (draws : List ℤ) :
    Returns (fun P => P ∈ draws ∧ isProbablePrime ((P - 1).tdiv 2) = true)
      (generateSafePrime isProbablePrime draws) := by
  apply returns_draw_of_mem draws
  intro bigPrime member
  refine ⟨bigPrime, _, rfl, fun passes => ⟨member, ?_⟩⟩
  simpa using passes

theorem generateSafePrimes_returns (isProbablePrime : ℤ → Bool) (coins : SafePrimeCoins) :
    Returns (fun primes : ℤ × ℤ => primes.1 ∈ coins.candidatesP ∧
        primes.2 ∈ coins.candidatesQ.flatten ∧ isProbablePrime ((primes.1 - 1).tdiv 2) = true ∧
        isProbablePrime ((primes.2 - 1).tdiv 2) = true ∧ primes.1 ≠ primes.2)
      (generateSafePrimes isProbablePrime coins) := by
  apply returns_bind (generateSafePrime_returns isProbablePrime coins.candidatesP)
  rintro P - ⟨memberP, testP⟩
  have loopQ : Returns (fun Q => Q ∈ coins.candidatesQ.flatten ∧
      isProbablePrime ((Q - 1).tdiv 2) = true ∧ Q ≠ P)
      (drawM (distinctSafePrimeRound isProbablePrime P) coins.candidatesQ) := by
    apply returns_drawM
    intro draws member
    apply returns_bind (generateSafePrime_returns isProbablePrime draws)
    rintro Q - ⟨memberQ, testQ⟩
    apply returns_pure
    intro different
    exact ⟨List.mem_flatten.mpr ⟨draws, member, memberQ⟩, testQ, of_decide_eq_false different⟩
  apply returns_bind loopQ
  rintro Q - ⟨memberQ, testQ, different⟩
  exact returns_pure ⟨memberP, memberQ, testP, testQ, Ne.symm different⟩

theorem safePrime_of_prime {P : ℤ} (positive : 0 < P) (PPrime : P.natAbs.Prime)
    (halfPrime : ((P - 1).tdiv 2).natAbs.Prime) :
    ∃ p : ℕ, P = ((2 * p + 1 : ℕ) : ℤ) ∧ p.Prime ∧ (2 * p + 1).Prime := by
  have halfLarge := halfPrime.two_le
  rw [Int.tdiv_eq_ediv_of_nonneg (by have := PPrime.two_le; omega)] at halfPrime halfLarge
  have odd : ¬ 2 ∣ P.natAbs := fun divides => by
    rcases PPrime.eq_one_or_self_of_dvd 2 divides with one | two <;> omega
  refine ⟨((P - 1) / 2).natAbs, by omega, halfPrime, ?_⟩
  have same : 2 * ((P - 1) / 2).natAbs + 1 = P.natAbs := by omega
  rw [same]
  exact PPrime

/-- What `generate` returns, for a primality test that passes only primes and draws of
`new BigInteger(bitlength, certainty, rnd)` that are primes: `N = P * Q` for distinct safe primes
`P = 2p + 1` and `Q = 2q + 1`, and `g`, `h` units of order `p * q` modulo `N`, with `h` in the
cyclic subgroup of `g`. -/
theorem generate_returns {isProbablePrime : ℤ → Bool}
    (sound : ∀ z, isProbablePrime z = true → z.natAbs.Prime) {safePrimeCoins : SafePrimeCoins}
    (candidatesPrime : ∀ z ∈ safePrimeCoins.candidatesP ++ safePrimeCoins.candidatesQ.flatten,
      0 < z ∧ z.natAbs.Prime) (coins : GeneratorCoins) :
    Returns (fun group : SecretOrderGroup => ∃ P Q p q : ℕ, group.N = ((P * Q : ℕ) : ℤ) ∧
        P = 2 * p + 1 ∧ Q = 2 * q + 1 ∧ P.Prime ∧ Q.Prime ∧ p.Prime ∧ q.Prime ∧ P ≠ Q ∧
        ∃ u0 u1 : (ZMod (P * Q))ˣ, (group.g : ZMod (P * Q)) = u0 ∧
          (group.h : ZMod (P * Q)) = u1 ∧ orderOf u0 = p * q ∧ orderOf u1 = p * q ∧
          u1 ∈ Subgroup.zpowers u0)
      (generate isProbablePrime safePrimeCoins coins) := by
  apply returns_bind (generateSafePrimes_returns isProbablePrime safePrimeCoins)
  rintro ⟨P, Q⟩ - ⟨memberP, memberQ, testP, testQ, different⟩
  obtain ⟨positiveP, primeP⟩ := candidatesPrime P (List.mem_append_left _ memberP)
  obtain ⟨positiveQ, primeQ⟩ := candidatesPrime Q (List.mem_append_right _ memberQ)
  obtain ⟨p, rfl, pPrime, PPrime⟩ := safePrime_of_prime positiveP primeP (sound _ testP)
  obtain ⟨q, rfl, qPrime, QPrime⟩ := safePrime_of_prime positiveQ primeQ (sound _ testQ)
  have distinct : 2 * p + 1 ≠ 2 * q + 1 := fun same => different (congrArg _ same)
  apply returns_bind (findGenerators_units pPrime qPrime PPrime QPrime rfl rfl distinct coins)
  rintro ⟨b0, b1⟩ - ⟨u0, u1, named0, named1, order0, order1, member⟩
  apply returns_pure
  exact ⟨_, _, p, q, (Nat.cast_mul _ _).symm, rfl, rfl, PPrime, QPrime, pPrime, qPrime, distinct,
    u0, u1, named0, named1, order0, order1, member⟩

end Group

end SecretOrderGroupGenerator

namespace TTPGenerator

/-- `generateTTPMessage(secretValue)`, the overload without a group: the group of
`new SecretOrderGroupGenerator().generate()`, then the message in it. -/
def generateTTPMessageInNewGroup (isProbablePrime : ℤ → Bool)
    (safePrimeCoins : SecretOrderGroupGenerator.SafePrimeCoins)
    (coins : SecretOrderGroupGenerator.GeneratorCoins) (secretValue keyCoin : ℤ) :
    ExceptT JavaException Option TTPMessage := do
  let group ← SecretOrderGroupGenerator.generate isProbablePrime safePrimeCoins coins
  liftM (generateTTPMessage secretValue group keyCoin)

end TTPGenerator

end ZkRangeProof.Java
