import Mathlib.Algebra.Order.BigOperators.Group.Finset
import Mathlib.Algebra.Order.Floor.Div
import Mathlib.Data.FinEnum
import Mathlib.Order.Interval.Finset.Nat
import Dicebag.Proofs.Roll.Sampling

/-!
# Fair faces

`Uniform.face?` rejects words so that no face of a die gets more of them than another.  Here the
words are counted, for every number of sides that 32 bits can hold.

* The words that stand for one face follow each other.  The first is the least one whose product
  with the number of sides is large enough, and there are `Uniform.share` of them
  (`Uniform.face?_eq_some_iff`).
* The share of a face is a power of two, two to the number of leading zeros of the number of sides
  as a 32-bit word, and shifting the number of sides by as many bits fills the word up to its
  highest bit (`Uniform.half_le`).  So all faces together have half of the words or more.

`faces_fair` adds what the draw does with a word: it answers with the face that the word stands for,
and goes on as if the word had never been there if it stands for none.
-/

set_option autoImplicit false

namespace Dicebag
namespace Uniform

/-! ## The size of a share -/

/-- How many words each face of a die gets. -/
def share (sides : Nat) : Nat := 2 ^ leadingZeros sides

/-- The leading zeros of a number of sides are those of the 32-bit word with that value. -/
theorem leadingZeros_eq_clz {sides : Nat} (hleast : 1 ≤ sides) (hmost : sides < wordCount) :
    leadingZeros sides = (BitVec.ofNat 32 sides).clz.toNat := by
  have hvalue : (BitVec.ofNat 32 sides).toNat = sides := Nat.mod_eq_of_lt hmost
  have hne : BitVec.ofNat 32 sides ≠ 0#32 := by
    intro h
    rw [h] at hvalue
    exact Nat.ne_of_lt hleast hvalue
  have hclz : (BitVec.ofNat 32 sides).clz.toNat < 32 := BitVec.clz_lt_iff_ne_zero.2 hne
  have hleast := BitVec.two_pow_sub_clz_le_toNat_of_ne_zero (by decide) hne
  have hmost := BitVec.toNat_lt_two_pow_sub_clz (x := BitVec.ofNat 32 sides)
  rw [hvalue] at hleast hmost
  generalize (BitVec.ofNat 32 sides).clz.toNat = zeros at hclz hleast hmost ⊢
  have hlog : sides.log2 = 31 - zeros :=
    (Nat.log2_eq_iff (by omega)).2 ⟨hleast, by rwa [show 31 - zeros + 1 = 32 - zeros by omega]⟩
  rw [leadingZeros, hlog]
  omega

section

variable {sides : Nat} (hleast : 1 ≤ sides) (hmost : sides < wordCount)

include hleast hmost

theorem two_pow_log2_mul_share : 2 ^ sides.log2 * share sides = 2 ^ 31 := by
  have hlog : sides.log2 < 32 := (Nat.log2_lt (Nat.ne_of_gt hleast)).2 hmost
  rw [share, leadingZeros, ← Nat.pow_add]
  congr 1
  omega

/-- The shares of all faces together are half of the words or more. -/
theorem half_le : 2 ^ 31 ≤ sides * share sides := by
  rw [← two_pow_log2_mul_share hleast hmost]
  exact Nat.mul_le_mul_right _ (Nat.log2_self_le (Nat.ne_of_gt hleast))

/-- There are words enough for the shares of all faces. -/
theorem mul_share_le : sides * share sides ≤ wordCount := by
  have hlt : sides < 2 ^ sides.log2 * 2 := by
    rw [← Nat.pow_succ]
    exact Nat.lt_log2_self
  calc sides * share sides
    _ ≤ 2 ^ sides.log2 * 2 * share sides := Nat.mul_le_mul_right _ (Nat.le_of_lt hlt)
    _ = 2 ^ sides.log2 * share sides * 2 := Nat.mul_right_comm _ _ _
    _ = 2 ^ 31 * 2 := by rw [two_pow_log2_mul_share hleast hmost]
    _ = wordCount := rfl

/-! ## The words of a face -/

/-- The products with one upper half start at a multiple of `wordCount`, and the first of them
belong to words that are accepted. -/
theorem face?_eq_some_succ_iff {word face : Nat} :
    face? sides word = some (face + 1) ↔
      face * wordCount ≤ sides * word ∧ sides * word < face * wordCount + sides * share sides := by
  have hzone : zone sides + 1 = sides * share sides := by
    have := half_le hleast hmost
    rw [zone, Nat.shiftLeft_eq, ← share]
    omega
  have hle := mul_share_le hleast hmost
  have hdiv := Nat.div_add_mod (sides * word) wordCount
  have hmod : sides * word % wordCount < wordCount := Nat.mod_lt _ (by decide)
  rw [face?, Nat.mul_comm word]
  constructor
  · intro h
    split at h
    · next hzone' =>
      rw [Option.some_inj, Nat.add_comm, Nat.add_right_cancel_iff] at h
      rw [h, Nat.mul_comm] at hdiv
      omega
    · cases h
  · rintro ⟨hlow, hhigh⟩
    have hface : sides * word / wordCount = face := by
      rw [Nat.div_eq_iff (by decide)]
      omega
    rw [hface, Nat.mul_comm] at hdiv
    rw [if_pos (by omega), hface, Nat.add_comm]

/-- **The words of a face follow each other**, and there are as many as its share. -/
theorem face?_eq_some_iff {word face : Nat} :
    face? sides word = some (face + 1) ↔
      face * wordCount ⌈/⌉ sides ≤ word ∧ word < face * wordCount ⌈/⌉ sides + share sides := by
  have hshift : (face * wordCount + sides * share sides) ⌈/⌉ sides =
      face * wordCount ⌈/⌉ sides + share sides := by
    rw [Nat.ceilDiv_eq_add_pred_div, Nat.ceilDiv_eq_add_pred_div, Nat.add_right_comm,
      Nat.sub_add_comm (Nat.le_trans hleast (Nat.le_add_left _ _)), Nat.add_mul_div_left _ _ hleast]
  rw [face?_eq_some_succ_iff hleast hmost, ← hshift, ceilDiv_le_iff_le_mul hleast, ← Nat.not_le,
    ← Nat.not_le, ceilDiv_le_iff_le_mul hleast]

end

/-! ## Counting words -/

/-- The words that stand for a face. -/
def wordsOf (sides face : Nat) : Finset UInt32 :=
  Finset.univ.filter fun word => face? sides word.toNat = some face

/-- The words that stand for some face. -/
def acceptedWords (sides : Nat) : Finset UInt32 :=
  Finset.univ.filter fun word => (face? sides word.toNat).isSome

theorem mem_wordsOf {sides face : Nat} {word : UInt32} :
    word ∈ wordsOf sides face ↔ face? sides word.toNat = some face := by
  simp [wordsOf]

section

variable {sides : Nat} (hleast : 1 ≤ sides) (hmost : sides < wordCount)

include hleast hmost

/-- **Every face has the same number of words.** -/
theorem card_wordsOf {face : Nat} (hface : 1 ≤ face) (hsides : face ≤ sides) :
    (wordsOf sides face).card = share sides := by
  obtain ⟨face, rfl⟩ := Nat.exists_eq_add_of_le' hface
  have hwords : (wordsOf sides (face + 1)).image UInt32.toNat =
      Finset.Ico (face * wordCount ⌈/⌉ sides) (face * wordCount ⌈/⌉ sides + share sides) := by
    ext n
    rw [Finset.mem_image, Finset.mem_Ico, ← face?_eq_some_iff hleast hmost]
    constructor
    · rintro ⟨word, hword, rfl⟩
      exact mem_wordsOf.1 hword
    · intro hn
      -- the share of the last face ends before the words do
      have hlt : sides * n < sides * wordCount := by
        calc sides * n
          _ < face * wordCount + sides * share sides :=
            ((face?_eq_some_succ_iff hleast hmost).1 hn).2
          _ ≤ face * wordCount + wordCount := Nat.add_le_add_left (mul_share_le hleast hmost) _
          _ = (face + 1) * wordCount := (Nat.succ_mul _ _).symm
          _ ≤ sides * wordCount := Nat.mul_le_mul_right _ hsides
      have htoNat : (UInt32.ofNat n).toNat = n :=
        Nat.mod_eq_of_lt (Nat.lt_of_mul_lt_mul_left hlt)
      exact ⟨UInt32.ofNat n, mem_wordsOf.2 (by rwa [htoNat]), htoNat⟩
  rw [← Finset.card_image_of_injective _ fun _ _ => UInt32.toNat_inj.1, hwords, Nat.card_Ico,
    Nat.add_sub_cancel_left]

/-- The accepted words are the words of the faces, put together. -/
theorem card_acceptedWords : (acceptedWords sides).card = sides * share sides := by
  have hface : ∀ word ∈ acceptedWords sides,
      (face? sides word.toNat).getD 0 ∈ Finset.Icc 1 sides := by
    intro word hword
    obtain ⟨face, hface⟩ := Option.isSome_iff_exists.1 (Finset.mem_filter.1 hword).2
    rw [hface, Option.getD_some, Finset.mem_Icc]
    exact face?_mem hleast word.toNat_lt hface
  have hfiber : ∀ face ∈ Finset.Icc 1 sides,
      ((acceptedWords sides).filter fun word => (face? sides word.toNat).getD 0 = face).card =
        share sides := by
    intro face hface
    obtain ⟨hone, hsides⟩ := Finset.mem_Icc.1 hface
    rw [← card_wordsOf hleast hmost hone hsides]
    refine congrArg Finset.card (Finset.ext fun word => ?_)
    rw [Finset.mem_filter, acceptedWords, Finset.mem_filter, mem_wordsOf]
    cases face? sides word.toNat with
    | none => simp
    | some face' => simp
  rw [Finset.card_eq_sum_card_fiberwise hface, Finset.sum_congr rfl hfiber, Finset.sum_const,
    Nat.card_Icc, Nat.add_sub_cancel, smul_eq_mul]

end

end Uniform

/-! ## The draw -/

/-- **The faces of a die are equally likely.**  For every number of sides that 32 bits can hold,
each face has the same number of words, two to the number of leading zeros of the number of sides; a
word stands for a face of the die or for none; and half of the words or more stand for a face.  A
roller that draws words answers with the face of the next word and has used up that word only.  If
the next word stands for no face, the roller answers as if it had not been there. -/
theorem faces_fair {sides : Nat} (hleast : 1 ≤ sides) (hmost : sides < 2 ^ 32) :
    (∀ face, 1 ≤ face → face ≤ sides →
      (Uniform.wordsOf sides face).card = 2 ^ (BitVec.ofNat 32 sides).clz.toNat) ∧
    (∀ (word : UInt32) (face : Nat), Uniform.face? sides word.toNat = some face →
      1 ≤ face ∧ face ≤ sides) ∧
    2 ^ 31 ≤ (Uniform.acceptedWords sides).card ∧
    ∀ {σ : Type} [WordSource σ] (source next : σ) (word : UInt32),
      WordSource.next source = some (word, next) →
        (∀ face, Uniform.face? sides word.toNat = some face →
          Roller.roll sides (⟨source⟩ : Sampler σ) = (.ok face, ⟨next⟩)) ∧
        (Uniform.face? sides word.toNat = none →
          Roller.roll sides (⟨source⟩ : Sampler σ) = Roller.roll sides (⟨next⟩ : Sampler σ)) := by
  refine ⟨fun face hface hsides => ?_, fun word face => Uniform.face?_mem hleast word.toNat_lt, ?_,
    fun source next word taken => ⟨fun face => roll_of_accept hleast taken,
      roll_of_reject hleast taken⟩⟩
  · rw [Uniform.card_wordsOf hleast hmost hface hsides, Uniform.share,
      Uniform.leadingZeros_eq_clz hleast hmost]
  · rw [Uniform.card_acceptedWords hleast hmost]
    exact Uniform.half_le hleast hmost

/-- The words of a six on a d6, and a source whose first word is rejected. -/
theorem faces_fair_d6 :
    (1 ≤ 6 ∧ 6 < 2 ^ 32) ∧ (Uniform.wordsOf 6 6).card = 2 ^ 29 ∧
      Uniform.face? 6 4294967295 = none ∧
      Roller.roll 6 (⟨[4294967295, 0, 7]⟩ : Sampler (List UInt32)) = (.ok 1, ⟨[7]⟩) := by
  have hleast : 1 ≤ 6 := by decide
  have hmost : 6 < 2 ^ 32 := by decide
  obtain ⟨hwords, -, -, hdraw⟩ := faces_fair hleast hmost
  have hrejected : Uniform.face? 6 4294967295 = none := by decide
  have haccepted : Uniform.face? 6 0 = some 1 := by decide
  refine ⟨⟨hleast, hmost⟩, hwords 6 (by decide) (by decide), hrejected, ?_⟩
  rw [(hdraw [4294967295, 0, 7] [0, 7] 4294967295 rfl).2 hrejected,
    (hdraw [0, 7] [7] 0 rfl).1 1 haccepted]

end Dicebag
