import Dicebag.Uniform

/-!
# The seeded generator

Sessions can be repeated from a seed.  The words come from the keystream of the ChaCha cipher with
twelve rounds: a block of sixteen words is made from four constants, a key of eight words, a 64-bit
block number and two zero words, and the blocks follow one another from number zero.

* `Keystream.keyOfSeed` spreads a 64-bit seed over the key with a linear congruential step per word,
  whose state is folded and rotated into the word.
* `Keystream.block` is one block, and `Keystream.wordAt` one word, numbered from the first word of
  the first block.

The block number has 64 bits, so a key gives `2 ^ 68` words.
-/

set_option autoImplicit false

namespace Dicebag
namespace Keystream

/-! ## The key -/

/-- Rotates a word to the right.  Shifts count modulo 32, so a rotation by nothing is one too. -/
def rotateRight (x : UInt32) (n : UInt32) : UInt32 := (x >>> n) ||| (x <<< (32 - n))

/-- Rotates a word to the left. -/
def rotateLeft (x : UInt32) (n : UInt32) : UInt32 := (x <<< n) ||| (x >>> (32 - n))

/-- One step of the generator that makes the key. -/
def seedStep (x : UInt64) : UInt64 := x * 6364136223846793005 + 11634580027462260723

/-- The word that a state of that generator stands for: its upper bits, folded down and rotated by
as much as its topmost five bits say. -/
def seedWord (x : UInt64) : UInt32 :=
  rotateRight (((x >>> 18) ^^^ x) >>> 27).toUInt32 (x >>> 59).toUInt32

/-- The first `n` words that a state leads to. -/
def seedWords : Nat → UInt64 → List UInt32
  | 0, _ => []
  | n + 1, x => seedWord (seedStep x) :: seedWords n (seedStep x)

theorem length_seedWords (n : Nat) (x : UInt64) : (seedWords n x).length = n := by
  induction n generalizing x with
  | zero => rfl
  | succ n ih => simp [seedWords, ih]

/-- A key of the cipher. -/
abbrev Key := Vector UInt32 8

/-- The key that a seed stands for. -/
def keyOfSeed (seed : UInt64) : Key := ⟨(seedWords 8 seed).toArray, by simp [length_seedWords]⟩

/-! ## Blocks -/

/-- Sixteen words, as the cipher works on them. -/
abbrev Block := Vector UInt32 16

/-- Adds word `b` to word `a`, puts the sum into word `d` by exclusive or, and rotates `d`. -/
def mix (s : Block) (a b d : Fin 16) (n : UInt32) : Block :=
  let s := s.set a (s[a] + s[b])
  s.set d (rotateLeft (s[d] ^^^ s[a]) n)

/-- A quarter round on four of the words. -/
def quarterRound (s : Block) (a b c d : Fin 16) : Block :=
  mix (mix (mix (mix s a b d 16) c d b 12) a b d 8) c d b 7

/-- Two rounds: quarter rounds down the columns, then along the diagonals. -/
def doubleRound (s : Block) : Block :=
  let s := quarterRound s 0 4 8 12
  let s := quarterRound s 1 5 9 13
  let s := quarterRound s 2 6 10 14
  let s := quarterRound s 3 7 11 15
  let s := quarterRound s 0 5 10 15
  let s := quarterRound s 1 6 11 12
  let s := quarterRound s 2 7 8 13
  quarterRound s 3 4 9 14

/-- The words that a block starts from. -/
def initial (key : Key) (number : UInt64) : Block :=
  #v[0x61707865, 0x3320646e, 0x79622d32, 0x6b206574,
    key[0], key[1], key[2], key[3], key[4], key[5], key[6], key[7],
    number.toUInt32, (number >>> 32).toUInt32, 0, 0]

/-- Six double rounds. -/
def rounds (s : Block) : Block :=
  doubleRound (doubleRound (doubleRound (doubleRound (doubleRound (doubleRound s)))))

/-- A block of the keystream: the words that it starts from, added to what twelve rounds make of
them. -/
def block (key : Key) (number : UInt64) : Block :=
  let start := initial key number
  (rounds start).zipWith (· + ·) start

/-- The word at a place of the keystream. -/
def wordAt (key : Key) (place : Nat) : UInt32 :=
  (block key (UInt64.ofNat (place / 16)))[place % 16]

/-- The number of words that a key gives, `2 ^ 68`. -/
def period : Nat := 295147905179352825856

end Keystream

/-! ## The generator -/

/-- A key and a place in its keystream. -/
structure Keystream where
  /-- The key. -/
  key : Keystream.Key
  /-- The number of words already taken. -/
  place : Nat

namespace Keystream

/-- The keystream of a seed, from its start. -/
def ofSeed (seed : UInt64) : Keystream := ⟨keyOfSeed seed, 0⟩

/-- The word at the present place, and the generator one place further on. -/
def next (s : Keystream) : Option (UInt32 × Keystream) :=
  if s.place < period then some (wordAt s.key s.place, { s with place := s.place + 1 }) else none

/-- The number of words that are left. -/
def remaining (s : Keystream) : Nat := period - s.place

theorem remaining_next {s s' : Keystream} {w : UInt32} (h : s.next = some (w, s')) :
    s'.remaining < s.remaining := by
  rw [next] at h
  split at h
  · simp only [Option.some.injEq, Prod.mk.injEq] at h
    obtain ⟨_, rfl⟩ := h
    simp only [remaining]
    omega
  · simp at h

instance : WordSource Keystream := ⟨next, remaining, remaining_next⟩

end Keystream
end Dicebag
