import Mathlib.Data.List.Basic
import Mathlib.Tactic.Ring

/-! SHA-256 as FIPS 180-4 fixes it, on byte strings. Words are naturals below `2 ^ 32`
and every sum is reduced explicitly, so the kernel evaluates digests of short messages.
Both sides of the range proof hash with it: Go's `crypto/sha256` and BouncyCastle's
`SHA256Digest` compute this one function. -/

namespace Sha256

def wordModulus : ℕ := 2 ^ 32

def rotr (x n : ℕ) : ℕ := (x >>> n ||| x <<< (32 - n)) % wordModulus

def ch (x y z : ℕ) : ℕ := (x &&& y) ^^^ ((wordModulus - 1 - x) &&& z)

def maj (x y z : ℕ) : ℕ := (x &&& y) ^^^ (x &&& z) ^^^ (y &&& z)

def bigSigma0 (x : ℕ) : ℕ := rotr x 2 ^^^ rotr x 13 ^^^ rotr x 22

def bigSigma1 (x : ℕ) : ℕ := rotr x 6 ^^^ rotr x 11 ^^^ rotr x 25

def smallSigma0 (x : ℕ) : ℕ := rotr x 7 ^^^ rotr x 18 ^^^ (x >>> 3)

def smallSigma1 (x : ℕ) : ℕ := rotr x 17 ^^^ rotr x 19 ^^^ (x >>> 10)

def roundConstants : List ℕ :=
  [0x428a2f98, 0x71374491, 0xb5c0fbcf, 0xe9b5dba5, 0x3956c25b, 0x59f111f1, 0x923f82a4,
   0xab1c5ed5, 0xd807aa98, 0x12835b01, 0x243185be, 0x550c7dc3, 0x72be5d74, 0x80deb1fe,
   0x9bdc06a7, 0xc19bf174, 0xe49b69c1, 0xefbe4786, 0x0fc19dc6, 0x240ca1cc, 0x2de92c6f,
   0x4a7484aa, 0x5cb0a9dc, 0x76f988da, 0x983e5152, 0xa831c66d, 0xb00327c8, 0xbf597fc7,
   0xc6e00bf3, 0xd5a79147, 0x06ca6351, 0x14292967, 0x27b70a85, 0x2e1b2138, 0x4d2c6dfc,
   0x53380d13, 0x650a7354, 0x766a0abb, 0x81c2c92e, 0x92722c85, 0xa2bfe8a1, 0xa81a664b,
   0xc24b8b70, 0xc76c51a3, 0xd192e819, 0xd6990624, 0xf40e3585, 0x106aa070, 0x19a4c116,
   0x1e376c08, 0x2748774c, 0x34b0bcb5, 0x391c0cb3, 0x4ed8aa4a, 0x5b9cca4f, 0x682e6ff3,
   0x748f82ee, 0x78a5636f, 0x84c87814, 0x8cc70208, 0x90befffa, 0xa4506ceb, 0xbef9a3f7,
   0xc67178f2]

/-- The eight working variables, also used for the intermediate hash value. -/
structure State where
  a : ℕ
  b : ℕ
  c : ℕ
  d : ℕ
  e : ℕ
  f : ℕ
  g : ℕ
  h : ℕ

def initialState : State :=
  ⟨0x6a09e667, 0xbb67ae85, 0x3c6ef372, 0xa54ff53a, 0x510e527f, 0x9b05688c, 0x1f83d9ab,
   0x5be0cd19⟩

def blockWords : List ℕ → List ℕ
  | b0 :: b1 :: b2 :: b3 :: rest => (b0 <<< 24 ||| b1 <<< 16 ||| b2 <<< 8 ||| b3) :: blockWords rest
  | _ => []

def extendSchedule : ℕ → List ℕ → List ℕ
  | 0, w => w
  | n + 1, w =>
    let next := (smallSigma1 (w.getD 1 0) + w.getD 6 0 + smallSigma0 (w.getD 14 0) +
      w.getD 15 0) % wordModulus
    extendSchedule n (next :: w)

def schedule (block : List ℕ) : List ℕ :=
  (extendSchedule 48 (blockWords block).reverse).reverse

def round (s : State) (k w : ℕ) : State :=
  let t1 := (s.h + bigSigma1 s.e + ch s.e s.f s.g + k + w) % wordModulus
  let t2 := (bigSigma0 s.a + maj s.a s.b s.c) % wordModulus
  ⟨(t1 + t2) % wordModulus, s.a, s.b, s.c, (s.d + t1) % wordModulus, s.e, s.f, s.g⟩

def State.add (s t : State) : State :=
  ⟨(s.a + t.a) % wordModulus, (s.b + t.b) % wordModulus, (s.c + t.c) % wordModulus,
   (s.d + t.d) % wordModulus, (s.e + t.e) % wordModulus, (s.f + t.f) % wordModulus,
   (s.g + t.g) % wordModulus, (s.h + t.h) % wordModulus⟩

def compress (hash : State) (block : List ℕ) : State :=
  hash.add ((roundConstants.zip (schedule block)).foldl (fun s kw => round s kw.1 kw.2) hash)

def lengthBytes (bits : ℕ) : List ℕ :=
  (List.range 8).reverse.map fun i => bits >>> (8 * i) % 256

/-- Append `0x80`, zeros up to 56 mod 64 bytes, and the 64-bit length. -/
def pad (message : List ℕ) : List ℕ :=
  message ++ [0x80] ++ List.replicate ((119 - message.length % 64) % 64) 0 ++
    lengthBytes (8 * message.length)

def blocks : ℕ → List ℕ → List (List ℕ)
  | 0, _ => []
  | n + 1, bytes => bytes.take 64 :: blocks n (bytes.drop 64)

def wordBytes (x : ℕ) : List UInt8 :=
  [UInt8.ofNat (x >>> 24), UInt8.ofNat (x >>> 16), UInt8.ofNat (x >>> 8), UInt8.ofNat x]

def State.bytes (s : State) : List UInt8 :=
  [s.a, s.b, s.c, s.d, s.e, s.f, s.g, s.h].flatMap wordBytes

/-- `SHA-256(message)`, 32 bytes. -/
def hash (message : List UInt8) : List UInt8 :=
  let padded := pad (message.map UInt8.toNat)
  ((blocks (padded.length / 64) padded).foldl compress initialState).bytes

@[simp] theorem State.bytes_length (s : State) : s.bytes.length = 32 := by
  simp [State.bytes, wordBytes]

@[simp] theorem hash_length (message : List UInt8) : (hash message).length = 32 :=
  State.bytes_length _

example : hash [0, 0] = [0x96, 0xa2, 0x96, 0xd2, 0x24, 0xf2, 0x85, 0xc6, 0x7b, 0xee, 0x93,
    0xc3, 0x0f, 0x8a, 0x30, 0x91, 0x57, 0xf0, 0xda, 0xa3, 0x5d, 0xc5, 0xb8, 0x7e, 0x41, 0x0b,
    0x78, 0x63, 0x0a, 0x09, 0xcf, 0xc7] := by
  decide

end Sha256
