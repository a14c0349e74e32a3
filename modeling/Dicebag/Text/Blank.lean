/-!
# Blank characters

What counts as white space around a formula is the Unicode property `White_Space`, and `trim` drops
it from both ends.  This is wider than what may stand between two tokens, where only space, tab,
carriage return and line feed are skipped: a no-break space alone is an empty text, but a no-break
space before a formula is part of it.
-/

set_option autoImplicit false

namespace Dicebag
namespace Text

/-- The characters with the Unicode property `White_Space`, as inclusive ranges of code points. -/
def blankRanges : List (Nat × Nat) :=
  [(0x9, 0xD), (0x20, 0x20), (0x85, 0x85), (0xA0, 0xA0), (0x1680, 0x1680), (0x2000, 0x200A),
    (0x2028, 0x2029), (0x202F, 0x202F), (0x205F, 0x205F), (0x3000, 0x3000)]

/-- The character lies in one of the ranges. -/
def inRanges (ranges : List (Nat × Nat)) (c : Char) : Bool :=
  ranges.any fun r => r.1 ≤ c.toNat && c.toNat ≤ r.2

/-- A blank character of any kind. -/
def isBlank (c : Char) : Bool := inRanges blankRanges c

/-- `trimChars` on characters is `trim`. -/
def trimChars (cs : List Char) : List Char :=
  ((cs.dropWhile isBlank).reverse.dropWhile isBlank).reverse

/-- The text without the blanks at its two ends. -/
def trim (text : String) : String := String.ofList (trimChars text.toList)

/-! ## Trimming -/

@[simp] theorem toList_trim (text : String) : (trim text).toList = trimChars text.toList := by
  simp [trim]

theorem dropWhile_isBlank_eq_nil_iff {cs : List Char} :
    cs.dropWhile isBlank = [] ↔ ∀ c ∈ cs, isBlank c = true := by
  induction cs with
  | nil => simp
  | cons c cs ih => cases h : isBlank c <;> simp [h, ih]

/-- What is left after dropping the leading blanks does not start with one. -/
theorem dropWhile_isBlank_eq_cons {cs ds : List Char} {d : Char}
    (h : cs.dropWhile isBlank = d :: ds) : isBlank d = false := by
  induction cs with
  | nil => simp at h
  | cons c cs ih =>
    cases hc : isBlank c
    · simp only [List.dropWhile_cons, hc, Bool.false_eq_true, if_false, List.cons.injEq] at h
      exact h.1 ▸ hc
    · simp only [List.dropWhile_cons, hc, if_true] at h
      exact ih h

/-- Trimming leaves nothing exactly where every character is blank. -/
theorem trimChars_eq_nil_iff {cs : List Char} :
    trimChars cs = [] ↔ ∀ c ∈ cs, isBlank c = true := by
  simp only [trimChars, List.reverse_eq_nil_iff, dropWhile_isBlank_eq_nil_iff, List.mem_reverse]
  constructor
  · intro h
    cases hd : cs.dropWhile isBlank with
    | nil => exact dropWhile_isBlank_eq_nil_iff.1 hd
    | cons d ds =>
      have := h d (by simp [hd])
      simp [dropWhile_isBlank_eq_cons hd] at this
  · intro h c hc
    simp [dropWhile_isBlank_eq_nil_iff.2 h] at hc

/-- A text is blank where every character is. -/
theorem trim_eq_empty_iff {text : String} :
    trim text = "" ↔ ∀ c ∈ text.toList, isBlank c = true := by
  rw [← trimChars_eq_nil_iff, ← toList_trim]
  exact String.toList_eq_nil_iff.symm

theorem trim_ne_empty_of_mem {text : String} {c : Char} (hc : c ∈ text.toList)
    (h : isBlank c = false) : trim text ≠ "" := by
  intro hblank
  rw [trim_eq_empty_iff.1 hblank c hc] at h
  cases h

end Text
end Dicebag
