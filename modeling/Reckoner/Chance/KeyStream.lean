/-
# Seeded random numbers

A reproducible source.  A 64-bit seed is spread over a key of eight words (`expandSeed`); the key
fixes an endless stream of 32-bit words, produced in blocks of sixteen by twelve rounds of mixing a
block counter under the key (`block`).  Two consecutive words make a number: their upper 53 bits
over `2 ^ 53`.
-/
import Reckoner.Chance.Source

namespace Reckoner.Chance

/-! ## 1. One block -/

/-- Sixteen words that are mixed together. -/
abbrev Words := Vector UInt32 16

def rotateLeft (x : UInt32) (n : UInt32) : UInt32 := (x <<< n) ||| (x >>> (32 - n))

def quarterRound (w : Words) (a b c d : Fin 16) : Words :=
  let w := w.set a (w[a] + w[b])
  let w := w.set d (rotateLeft (w[d] ^^^ w[a]) 16)
  let w := w.set c (w[c] + w[d])
  let w := w.set b (rotateLeft (w[b] ^^^ w[c]) 12)
  let w := w.set a (w[a] + w[b])
  let w := w.set d (rotateLeft (w[d] ^^^ w[a]) 8)
  let w := w.set c (w[c] + w[d])
  w.set b (rotateLeft (w[b] ^^^ w[c]) 7)

/-- Two rounds: the columns of the four-by-four square, then its diagonals. -/
def doubleRound (w : Words) : Words :=
  let w := quarterRound w 0 4 8 12
  let w := quarterRound w 1 5 9 13
  let w := quarterRound w 2 6 10 14
  let w := quarterRound w 3 7 11 15
  let w := quarterRound w 0 5 10 15
  let w := quarterRound w 1 6 11 12
  let w := quarterRound w 2 7 8 13
  quarterRound w 3 4 9 14

/-- The words that a block starts from: four constants, the key, the block counter, two zeros. -/
def initialWords (key : Vector UInt32 8) (counter : Nat) : Words :=
  #v[0x61707865, 0x3320646e, 0x79622d32, 0x6b206574,
    key[0], key[1], key[2], key[3], key[4], key[5], key[6], key[7],
    .ofNat counter, .ofNat (counter / Nat.pow 2 32), 0, 0]

/-- The block with the given number: twelve rounds, added to what they started from. -/
def block (key : Vector UInt32 8) (counter : Nat) : Words :=
  let start := initialWords key counter
  let mixed := Nat.repeat doubleRound 6 start
  .zipWith (· + ·) start mixed

/-! ## 2. The key of a seed -/

def advanceSeed (s : UInt64) : UInt64 := s * 6364136223846793005 + 11634580027462260723

def seedWord (s : UInt64) : UInt32 :=
  let x := (((s >>> 18) ^^^ s) >>> 27).toUInt32
  let amount := (s >>> 59).toUInt32
  rotateLeft x ((32 - amount) % 32)

/-- The key that belongs to a seed. -/
def expandSeed (seed : UInt64) : Vector UInt32 8 :=
  Vector.ofFn fun i => seedWord (Nat.repeat advanceSeed (i.val + 1) seed)

/-! ## 3. The source -/

/-- A stream of words under a key, and how many of them have been taken. -/
structure KeyStream where
  key : Vector UInt32 8
  taken : Nat
  deriving DecidableEq

def KeyStream.ofSeed (seed : UInt64) : KeyStream := ⟨expandSeed seed, 0⟩

def KeyStream.word (s : KeyStream) (place : Nat) : UInt32 :=
  (block s.key (place / 16)).get ⟨place % 16, Nat.mod_lt _ (by decide)⟩

instance : Source KeyStream where
  draw s :=
    let low := (s.word s.taken).toUInt64
    let high := (s.word (s.taken + 1)).toUInt64
    let bits := (high <<< 32 ||| low) >>> 11
    (bits.toFloat / 9007199254740992, { s with taken := s.taken + 2 })

end Reckoner.Chance
