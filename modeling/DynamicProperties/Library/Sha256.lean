import DynamicProperties.Library.Bits
import Mathlib.Data.Nat.Prime.Basic
import Mathlib.Order.Bounds.Basic

/-!
# SHA-256

The hash function of the Secure Hash Standard (FIPS 180-4), as a function on bit
strings: the words and the functions on them (sections 3.2 and 4.1.2), the constants
(4.2.2 and 5.3.3), the padding (5.1.1), and the hash computation (6.2.2).

The tables of constants are what the standard says they are, the leading fractional
bits of cube roots and square roots of the first primes (`K_cubeRoot`,
`initialHash_squareRoot`), and the padding uses the least number of zero bits that
completes a block (`zeros_isLeast`).
-/

namespace DynamicProperties.Library.Sha256

open DynamicProperties.Library.Bits
open DynamicProperties.Library.Blocks

abbrev Word := BitVec 32

/-! ## Functions on words -/

/-- A circular shift to the right. -/
def rotr (n : Nat) (x : Word) : Word := x >>> n ||| x <<< (32 - n)

def ch (x y z : Word) : Word := (x &&& y) ^^^ (~~~x &&& z)

def maj (x y z : Word) : Word := (x &&& y) ^^^ (x &&& z) ^^^ (y &&& z)

def bigSigma0 (x : Word) : Word := rotr 2 x ^^^ rotr 13 x ^^^ rotr 22 x

def bigSigma1 (x : Word) : Word := rotr 6 x ^^^ rotr 11 x ^^^ rotr 25 x

def smallSigma0 (x : Word) : Word := rotr 7 x ^^^ rotr 18 x ^^^ x >>> 3

def smallSigma1 (x : Word) : Word := rotr 17 x ^^^ rotr 19 x ^^^ x >>> 10

/-! ## Constants -/

/-- The constants of the rounds. -/
def K : Vector Word 64 := #v[
  0x428a2f98, 0x71374491, 0xb5c0fbcf, 0xe9b5dba5, 0x3956c25b, 0x59f111f1, 0x923f82a4, 0xab1c5ed5,
  0xd807aa98, 0x12835b01, 0x243185be, 0x550c7dc3, 0x72be5d74, 0x80deb1fe, 0x9bdc06a7, 0xc19bf174,
  0xe49b69c1, 0xefbe4786, 0x0fc19dc6, 0x240ca1cc, 0x2de92c6f, 0x4a7484aa, 0x5cb0a9dc, 0x76f988da,
  0x983e5152, 0xa831c66d, 0xb00327c8, 0xbf597fc7, 0xc6e00bf3, 0xd5a79147, 0x06ca6351, 0x14292967,
  0x27b70a85, 0x2e1b2138, 0x4d2c6dfc, 0x53380d13, 0x650a7354, 0x766a0abb, 0x81c2c92e, 0x92722c85,
  0xa2bfe8a1, 0xa81a664b, 0xc24b8b70, 0xc76c51a3, 0xd192e819, 0xd6990624, 0xf40e3585, 0x106aa070,
  0x19a4c116, 0x1e376c08, 0x2748774c, 0x34b0bcb5, 0x391c0cb3, 0x4ed8aa4a, 0x5b9cca4f, 0x682e6ff3,
  0x748f82ee, 0x78a5636f, 0x84c87814, 0x8cc70208, 0x90befffa, 0xa4506ceb, 0xbef9a3f7, 0xc67178f2]

/-- The initial hash value. -/
def initialHash : Vector Word 8 := #v[
  0x6a09e667, 0xbb67ae85, 0x3c6ef372, 0xa54ff53a, 0x510e527f, 0x9b05688c, 0x1f83d9ab, 0x5be0cd19]

/-- The first sixty-four prime numbers. -/
def firstPrimes : Vector Nat 64 := #v[
  2, 3, 5, 7, 11, 13, 17, 19, 23, 29, 31, 37, 41, 43, 47, 53,
  59, 61, 67, 71, 73, 79, 83, 89, 97, 101, 103, 107, 109, 113, 127, 131,
  137, 139, 149, 151, 157, 163, 167, 173, 179, 181, 191, 193, 197, 199, 211, 223,
  227, 229, 233, 239, 241, 251, 257, 263, 269, 271, 277, 281, 283, 293, 307, 311]

/-- The prime numbers below 18. -/
theorem mem_of_prime : ∀ p < 18, p.Prime → p ∈ ([2, 3, 5, 7, 11, 13, 17] : List Nat) := by decide

/-- Up to 18 ^ 2 a number is prime unless a prime number below 18 divides it. -/
theorem prime_iff {n : Nat} (h : n < 312) :
    n.Prime ↔ 2 ≤ n ∧ ∀ p ∈ ([2, 3, 5, 7, 11, 13, 17] : List Nat), p < n → ¬ p ∣ n := by
  constructor
  · intro hprime
    refine ⟨hprime.two_le, fun p hp hlt hdvd => ?_⟩
    rcases hprime.eq_one_or_self_of_dvd p hdvd with rfl | rfl
    · exact absurd hp (by decide)
    · exact absurd hlt (Nat.lt_irrefl _)
  · rintro ⟨htwo, hsmall⟩
    by_contra hprime
    have hfactor := Nat.minFac_prime (show n ≠ 1 by omega)
    have hsquare := Nat.minFac_sq_le_self (show 0 < n by omega) hprime
    rw [Nat.pow_two] at hsquare
    have hlt : n.minFac < 18 := Nat.mul_self_lt_mul_self_iff.mp (by omega)
    have hproper : n.minFac < n := by
      have := Nat.mul_le_mul_right n.minFac hfactor.two_le
      have := hfactor.pos
      omega
    exact hsmall _ (mem_of_prime _ hlt hfactor) hproper n.minFac_dvd

theorem firstPrimes_eq : firstPrimes.toList = (List.range 312).filter Nat.Prime := by
  have hprime : ∀ n ∈ List.range 312, decide n.Prime =
      decide (2 ≤ n ∧ ∀ p ∈ ([2, 3, 5, 7, 11, 13, 17] : List Nat), p < n → ¬ p ∣ n) :=
    fun n hn => decide_eq_decide.mpr (prime_iff (List.mem_range.mp hn))
  rw [List.filter_congr hprime]
  decide +kernel

/-- The constants of the rounds are the first thirty-two bits of the fractional parts
of the cube roots of the first sixty-four prime numbers. -/
theorem K_cubeRoot (t : Fin 64) : ∃ whole < 7,
    (whole * 2 ^ 32 + (K.get t).toNat) ^ 3 ≤ firstPrimes.get t * 2 ^ 96 ∧
      firstPrimes.get t * 2 ^ 96 < (whole * 2 ^ 32 + (K.get t).toNat + 1) ^ 3 := by
  revert t
  decide +kernel

/-- The words of the initial hash value are the first thirty-two bits of the fractional
parts of the square roots of the first eight prime numbers. -/
theorem initialHash_squareRoot (j : Fin 8) : ∃ whole < 5,
    (whole * 2 ^ 32 + (initialHash.get j).toNat) ^ 2 ≤
        firstPrimes.get (j.castLE (by decide : 8 ≤ 64)) * 2 ^ 64 ∧
      firstPrimes.get (j.castLE (by decide : 8 ≤ 64)) * 2 ^ 64 <
        (whole * 2 ^ 32 + (initialHash.get j).toNat + 1) ^ 2 := by
  revert j
  decide +kernel

/-! ## Padding -/

/-- How many zero bits the padding of a message of this length has. -/
def zeros (length : Nat) : Nat := (960 - (length + 1) % 512) % 512

/-- It is the least number of zero bits behind the one bit after which the length of the
message completes a block. -/
theorem zeros_isLeast (length : Nat) :
    IsLeast {k | (length + 1 + k) % 512 = 448} (zeros length) := by
  constructor
  · show (length + 1 + zeros length) % 512 = 448
    unfold zeros
    omega
  · intro k hk
    change (length + 1 + k) % 512 = 448 at hk
    unfold zeros
    omega

/-- The padded message: a one bit, zero bits, and the length of the message in
sixty-four bits, which the standard asks to be enough. -/
def pad (message : List Bool) : List Bool :=
  message ++ true :: (List.replicate (zeros message.length) false ++ bitsOf 64 message.length)

/-! ## Hash computation -/

/-- The word of a block at a position. -/
def inputWord (block : List Bool) (t : Nat) : Word :=
  BitVec.ofNat 32 (ofBits ((block.drop (32 * t)).take 32))

/-- The message schedule of a block. -/
def schedule (block : List Bool) (t : Nat) : Word :=
  if t < 16 then inputWord block t
  else
    smallSigma1 (schedule block (t - 2)) + schedule block (t - 7) +
      smallSigma0 (schedule block (t - 15)) + schedule block (t - 16)

theorem schedule_input {block : List Bool} {t : Nat} (h : t < 16) :
    schedule block t = inputWord block t := by
  rw [schedule, if_pos h]

theorem schedule_later {block : List Bool} {t : Nat} (h : 16 ≤ t) :
    schedule block t = smallSigma1 (schedule block (t - 2)) + schedule block (t - 7) +
      smallSigma0 (schedule block (t - 15)) + schedule block (t - 16) := by
  rw [schedule, if_neg (by omega)]

/-- The working variables. -/
structure Variables where
  a : Word
  b : Word
  c : Word
  d : Word
  e : Word
  f : Word
  g : Word
  h : Word

/-- The working variables start with the hash value. -/
def Variables.ofHash (hash : Vector Word 8) : Variables :=
  ⟨hash.get 0, hash.get 1, hash.get 2, hash.get 3, hash.get 4, hash.get 5, hash.get 6, hash.get 7⟩

def round (w : Nat → Word) (v : Variables) (t : Fin 64) : Variables :=
  let t1 := v.h + bigSigma1 v.e + ch v.e v.f v.g + K.get t + w t
  let t2 := bigSigma0 v.a + maj v.a v.b v.c
  { h := v.g, g := v.f, f := v.e, e := v.d + t1, d := v.c, c := v.b, b := v.a, a := t1 + t2 }

def Variables.addTo (v : Variables) (hash : Vector Word 8) : Vector Word 8 :=
  #v[v.a + hash.get 0, v.b + hash.get 1, v.c + hash.get 2, v.d + hash.get 3,
    v.e + hash.get 4, v.f + hash.get 5, v.g + hash.get 6, v.h + hash.get 7]

/-- The hash value after a block. -/
def compress (hash : Vector Word 8) (block : List Bool) : Vector Word 8 :=
  (Fin.foldl 64 (round (schedule block)) (.ofHash hash)).addTo hash

/-- The bits of a hash value. -/
def hashBits (hash : Vector Word 8) : List Bool :=
  hash.toList.flatMap fun word => bitsOf 32 word.toNat

theorem hashBits_length (hash : Vector Word 8) : (hashBits hash).length = 256 := by
  have hlength : ∀ words : List Word,
      (words.flatMap fun word => bitsOf 32 word.toNat).length = 32 * words.length := by
    intro words
    induction words with
    | nil => rfl
    | cons word words ih =>
        rw [List.flatMap_cons, List.length_append, bitsOf_length, ih, List.length_cons]
        omega
  rw [hashBits, hlength, Vector.length_toList]

/-- The message digest. -/
def sha256 (message : List Bool) : List Bool :=
  hashBits ((blocks 512 (pad message)).foldl compress initialHash)

end DynamicProperties.Library.Sha256
