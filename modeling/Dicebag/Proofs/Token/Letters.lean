import Dicebag.Proofs.Formula.Grammar

/-!
# Capital and small letters

The notation has four letters, and each may be a capital or a small one.  Everything else in it is a
digit, a sign or a separator, which have no case at all.  So a text and the same text in small
letters (`lower`) have the same tokens at the same places, and these write the same numbers.

* Each class of characters that tokens are made of has a character exactly where it has its small
  letter (`isDigit_toLower` and its companions), and both fill the same number of bytes.
* Hence a kind admits a lexeme exactly where it admits it in small letters (`admits_lower`), and a
  text in small letters is cut where the text is (`lexes_lower`).
-/

set_option autoImplicit false

namespace Dicebag

/-! ## Characters -/

/-- A character other than the capitals `A` to `Z` is its own small letter. -/
theorem toLower_cases (c : Char) : c.toLower = c ∨ ∃ n < 26, c = Char.ofNat (65 + n) := by
  by_cases h : c.val ≥ 'A'.val ∧ c.val ≤ 'Z'.val
  · have hlow : 65 ≤ c.toNat := UInt32.le_iff_toNat_le.1 h.1
    have hhigh : c.toNat ≤ 90 := UInt32.le_iff_toNat_le.1 h.2
    refine .inr ⟨c.toNat - 65, by omega, ?_⟩
    rw [Nat.add_sub_cancel' hlow, Char.ofNat_toNat]
  · exact .inl (dif_neg h)

/-- What is the same for every capital and its small letter is the same for every character. -/
theorem toLower_invariant {α : Type} (f : Char → α)
    (hupper : ∀ n < 26, f (Char.ofNat (65 + n)).toLower = f (Char.ofNat (65 + n))) (c : Char) :
    f c.toLower = f c := by
  rcases toLower_cases c with hc | ⟨n, hn, rfl⟩
  · rw [hc]
  · exact hupper n hn

theorem isDigit_toLower (c : Char) : c.toLower.isDigit = c.isDigit :=
  toLower_invariant _ (by decide) c

theorem isDieLetter_toLower (c : Char) : isDieLetter c.toLower = isDieLetter c :=
  toLower_invariant _ (by decide) c

theorem isKeepLetter_toLower (c : Char) : isKeepLetter c.toLower = isKeepLetter c :=
  toLower_invariant _ (by decide) c

theorem keepLetterMode?_toLower (c : Char) : keepLetterMode? c.toLower = keepLetterMode? c :=
  toLower_invariant _ (by decide) c

theorem isSeparator_toLower (c : Char) : isSeparator c.toLower = isSeparator c :=
  toLower_invariant _ (by decide) c

theorem isBlank_toLower (c : Char) : Text.isBlank c.toLower = Text.isBlank c :=
  toLower_invariant _ (by decide) c

theorem utf8Size_toLower (c : Char) : c.toLower.utf8Size = c.utf8Size :=
  toLower_invariant _ (by decide) c

theorem toLower_eq_plus_iff {c : Char} : c.toLower = '+' ↔ c = '+' :=
  iff_of_eq (toLower_invariant (· = '+') (by decide) c)

theorem toLower_eq_minus_iff {c : Char} : c.toLower = '-' ↔ c = '-' :=
  iff_of_eq (toLower_invariant (· = '-') (by decide) c)

theorem toLower_of_isDigit {c : Char} (h : c.isDigit = true) : c.toLower = c := by
  rcases toLower_cases c with hc | ⟨n, hn, rfl⟩
  · exact hc
  · revert n
    decide

/-! ## Lexemes -/

/-- The characters in small letters. -/
def lower (cs : List Char) : List Char := cs.map Char.toLower

theorem lower_append (cs ds : List Char) : lower (cs ++ ds) = lower cs ++ lower ds :=
  List.map_append

theorem lower_cons (c : Char) (cs : List Char) : lower (c :: cs) = c.toLower :: lower cs := rfl

theorem byteLength_lower (cs : List Char) : Text.byteLength (lower cs) = Text.byteLength cs := by
  induction cs with
  | nil => rfl
  | cons c cs ih =>
    rw [lower_cons, Text.byteLength, Text.byteLength, utf8Size_toLower, ih]

theorem forall_isDigit_lower {ds : List Char} :
    (∀ c ∈ lower ds, c.isDigit = true) ↔ ∀ c ∈ ds, c.isDigit = true := by
  simp [lower, isDigit_toLower]

theorem isDigits_lower {ds : List Char} : IsDigits (lower ds) ↔ IsDigits ds := by
  rw [IsDigits, IsDigits, forall_isDigit_lower, lower, Ne, List.map_eq_nil_iff]

/-- Digits have no case. -/
theorem lower_of_isDigit {ds : List Char} (h : ∀ c ∈ ds, c.isDigit = true) : lower ds = ds := by
  rw [lower, List.map_congr_left fun c hc => toLower_of_isDigit (h c hc), List.map_id']

theorem isKeep_lower {mode : KeepMode} {cs : List Char} :
    IsKeep mode (lower cs) ↔ IsKeep mode cs := by
  constructor
  · rintro ⟨k, m, ds, heq, hk, hm, hds⟩
    obtain ⟨k', rest, rfl, rfl, hrest⟩ := List.map_eq_cons_iff.1 heq
    obtain ⟨m', ds', rfl, rfl, rfl⟩ := List.map_eq_cons_iff.1 hrest
    exact ⟨k', m', ds', rfl, isKeepLetter_toLower k' ▸ hk, keepLetterMode?_toLower m' ▸ hm,
      isDigits_lower.1 hds⟩
  · rintro ⟨k, m, ds, rfl, hk, hm, hds⟩
    exact ⟨k.toLower, m.toLower, lower ds, rfl, (isKeepLetter_toLower k).trans hk,
      (keepLetterMode?_toLower m).trans hm, isDigits_lower.2 hds⟩

/-- **A kind has a lexeme exactly where it has it in small letters.** -/
theorem admits_lower {kind : Kind} {cs : List Char} : kind.Admits (lower cs) ↔ kind.Admits cs := by
  cases kind with
  | integer => exact isDigits_lower
  | dice =>
    constructor
    · rintro ⟨count, letter, sides, heq, hcount, hletter, hsides⟩
      obtain ⟨count', rest, rfl, rfl, hrest⟩ := List.map_eq_append_iff.1 heq
      obtain ⟨letter', sides', rfl, rfl, rfl⟩ := List.map_eq_cons_iff.1 hrest
      exact ⟨count', letter', sides', rfl, forall_isDigit_lower.1 hcount,
        isDieLetter_toLower letter' ▸ hletter, isDigits_lower.1 hsides⟩
    · rintro ⟨count, letter, sides, rfl, hcount, hletter, hsides⟩
      refine ⟨lower count, letter.toLower, lower sides, lower_append _ _,
        forall_isDigit_lower.2 hcount, (isDieLetter_toLower letter).trans hletter,
        isDigits_lower.2 hsides⟩
  | keepHighest => exact isKeep_lower
  | keepLowest => exact isKeep_lower
  | plus => simp [Kind.Admits, lower, List.map_eq_cons_iff, toLower_eq_plus_iff]
  | minus => simp [Kind.Admits, lower, List.map_eq_cons_iff, toLower_eq_minus_iff]
  | unknown => simp [Kind.Admits, lower, List.map_eq_cons_iff]

/-- Small letters write the same numbers. -/
theorem writesDice_lower {lexeme : List Char} {count sides : Nat}
    (h : WritesDice lexeme count sides) : WritesDice (lower lexeme) count sides := by
  cases h with
  | @one letter sides hletter hsides =>
    rw [lower_cons, lower_of_isDigit hsides.2]
    exact .one ((isDieLetter_toLower letter).trans hletter) hsides
  | @many letter count sides hcount hletter hsides =>
    rw [lower_append, lower_cons, lower_of_isDigit hcount.2, lower_of_isDigit hsides.2]
    exact .many hcount ((isDieLetter_toLower letter).trans hletter) hsides

theorem writesKeep_lower {mode : KeepMode} {lexeme : List Char} {amount : Nat}
    (h : WritesKeep mode lexeme amount) : WritesKeep mode (lower lexeme) amount := by
  cases h with
  | @intro k m amount hk hm hamount =>
    rw [lower_cons, lower_cons, lower_of_isDigit hamount.2]
    exact .intro ((isKeepLetter_toLower k).trans hk) ((keepLetterMode?_toLower m).trans hm) hamount

/-! ## Tokens -/

/-- A lexeme at the front of a text in small letters is one of the text. -/
theorem exists_of_append_eq_lower {lexeme rest cs : List Char} (h : lexeme ++ rest = lower cs) :
    ∃ lexeme' rest', lexeme = lower lexeme' ∧ lexeme' ++ rest' = cs := by
  obtain ⟨lexeme', rest', rfl, rfl, -⟩ := List.map_eq_append_iff.1 h.symm
  exact ⟨lexeme', rest', rfl, rfl⟩

theorem longest_lower {cs lexeme rest : List Char} {kind : Kind}
    (h : Longest cs kind lexeme rest) : Longest (lower cs) kind (lower lexeme) (lower rest) := by
  refine ⟨h.known, admits_lower.2 h.admits, by rw [← lower_append, h.append], ?_⟩
  intro kind' small rest' hk' hadmits happ
  obtain ⟨lexeme', rest', rfl, happ'⟩ := exists_of_append_eq_lower happ
  have hle := h.longest kind' lexeme' rest' hk' (admits_lower.1 hadmits) happ'
  rwa [lower, lower, List.length_map, List.length_map]

theorem unmatched_lower {cs : List Char} (h : Unmatched cs) : Unmatched (lower cs) := by
  intro kind small rest hk hadmits happ
  obtain ⟨lexeme, rest', rfl, happ'⟩ := exists_of_append_eq_lower happ
  exact h kind lexeme rest' hk (admits_lower.1 hadmits) happ'

/-- The token in small letters. -/
def Token.small (t : Token) : Token := { t with lexeme := lower t.lexeme }

/-- **A text in small letters has the tokens of the text**, in small letters. -/
theorem lexes_lower {start : Nat} {cs : List Char} {ts : List Token} (h : Lexes start cs ts) :
    Lexes start (lower cs) (ts.map Token.small) := by
  induction h with
  | done => exact .done
  | @skip start c cs ts hsep _ ih =>
    rw [← utf8Size_toLower] at ih
    exact .skip ((isSeparator_toLower c).trans hsep) ih
  | @take start cs lexeme rest kind ts hmax _ ih =>
    rw [← byteLength_lower] at ih
    exact .take (longest_lower hmax) ih
  | @stray start c cs ts hsep hnone _ ih =>
    rw [← utf8Size_toLower] at ih
    exact .stray ((isSeparator_toLower c).trans hsep) (unmatched_lower hnone) ih

end Dicebag
