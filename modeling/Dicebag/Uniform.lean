import Dicebag.Roller

/-!
# Fair faces from random words

A generator gives 32-bit words; a die needs one of `sides` equally likely faces.  The product of a
word and the number of sides has the face in its upper half.  Some faces would get one word more
than others, so `face?` looks at the lower half of the product and rejects the words for which it is
too large.  `zone` is the bound: it leaves the same number of words for every face, a power of two
of them.

A `Sampler` is a roller that draws words from its source until one is accepted.  The source is
finite, if only because a generator's period is, and that is why drawing ends.
-/

set_option autoImplicit false

namespace Dicebag

/-! ## From a word to a face -/

namespace Uniform

/-- The number of 32-bit words. -/
def wordCount : Nat := 4294967296

/-- The number of zero bits above the highest one bit of `sides` as a 32-bit word. -/
def leadingZeros (sides : Nat) : Nat := 31 - sides.log2

/-- The largest lower half for which a word is accepted: the number of sides, shifted up as far as
32 bits allow, less one. -/
def zone (sides : Nat) : Nat := (sides <<< leadingZeros sides) - 1

/-- The face that a word stands for, unless the word is rejected. -/
def face? (sides word : Nat) : Option Nat :=
  let product := word * sides
  if product % wordCount ≤ zone sides then some (1 + product / wordCount) else none

/-- **A face that a word stands for is one that the die has.** -/
theorem face?_mem {sides word face : Nat} (hsides : 0 < sides) (hword : word < wordCount)
    (h : face? sides word = some face) : 1 ≤ face ∧ face ≤ sides := by
  rw [face?] at h
  split at h
  · simp only [Option.some.injEq] at h
    have hlt : word * sides / wordCount < sides := by
      rw [Nat.div_lt_iff_lt_mul (by decide), Nat.mul_comm sides]
      exact Nat.mul_lt_mul_of_pos_right hword hsides
    rw [← h, Nat.add_comm]
    exact ⟨Nat.le_add_left 1 _, hlt⟩
  · simp at h

end Uniform

/-! ## Sources of words -/

/-- A finite source of 32-bit words. -/
class WordSource (σ : Type) where
  /-- The next word and the source after it, as long as there is one. -/
  next : σ → Option (UInt32 × σ)
  /-- A bound on the number of words to come. -/
  remaining : σ → Nat
  /-- Taking a word leaves fewer to come. -/
  remaining_next : ∀ {s s' : σ} {w : UInt32}, next s = some (w, s') → remaining s' < remaining s

/-- Takes the first word off a list. -/
def takeWord : List UInt32 → Option (UInt32 × List UInt32)
  | [] => none
  | w :: ws => some (w, ws)

theorem length_takeWord {ws ws' : List UInt32} {w : UInt32} (h : takeWord ws = some (w, ws')) :
    ws'.length < ws.length := by
  cases ws with
  | nil => simp [takeWord] at h
  | cons v vs =>
    simp only [takeWord, Option.some.injEq, Prod.mk.injEq] at h
    simp [← h.2]

/-- A list gives its words in order. -/
instance : WordSource (List UInt32) := ⟨takeWord, List.length, length_takeWord⟩

namespace Uniform

/-- Draws words until one is accepted: its face, and the source after it. -/
def draw {σ : Type} [WordSource σ] (sides : Nat) (source : σ) : Except Fault Nat × σ :=
  match _hnext : WordSource.next source with
  | none => (.error .exhausted, source)
  | some (word, rest) =>
    match face? sides word.toNat with
    | some face => (.ok face, rest)
    | none => draw sides rest
termination_by WordSource.remaining source
decreasing_by exact WordSource.remaining_next _hnext

end Uniform

/-! ## Rolling with a source of words -/

/-- A roller that draws from a source of words. -/
structure Sampler (σ : Type) where
  /-- The words to come. -/
  source : σ
deriving Repr

instance {σ : Type} [WordSource σ] : Roller (Sampler σ) where
  roll sides sampler :=
    if sides = 0 then (.error .noFaces, sampler)
    else
      let (answer, source) := Uniform.draw sides sampler.source
      (answer, ⟨source⟩)

end Dicebag
