import Dicebag.Token.Split

/-!
# Tokens are longest matches

`firstToken` tries the kinds of token in a fixed order, and `tokensFrom` repeats that.  This file
says what they choose in terms of `Kind.Admits` alone, without any order.

* `Longest cs kind lexeme rest` says that of all lexemes of all six kinds that the text `cs` starts
  with, `lexeme` is the longest.  There is at most one such (`Longest.unique`), the kind included.
* `Lexes start cs ts` cuts a whole text into tokens that way, dropping the separators and making a
  stray token of a single character where no lexeme starts.
* `lexes_iff` says that `tokensFrom` does exactly this.

A kind whose lexemes end in digits always takes all the digits that there are, which is what
`split?_eq_some_iff` states of each kind on its own.  Between kinds there is little to choose: only
a dice lexeme and an integer can start at the same place, and the dice lexeme is the longer one.
-/

set_option autoImplicit false

namespace Dicebag

/-! ## Runs of digits at the front of a text -/

/-- The text does not go on with a digit. -/
def NoDigit (cs : List Char) : Prop := ∀ c ∈ cs.head?, c.isDigit = false

theorem noDigit_nil : NoDigit [] := by
  intro c hc
  simp at hc

theorem noDigit_cons {c : Char} {cs : List Char} : NoDigit (c :: cs) ↔ c.isDigit = false := by
  rw [NoDigit]
  simp

theorem noDigit_dropWhile (cs : List Char) : NoDigit (cs.dropWhile Char.isDigit) := by
  intro c hc
  have h := List.head?_dropWhile_not Char.isDigit cs
  rw [Option.mem_def] at hc
  simpa [hc] using h

/-- A text is cut in only one way into digits and a rest that does not go on with one. -/
theorem takeWhile_digits_append {ds rest : List Char} (hds : ∀ c ∈ ds, c.isDigit = true)
    (hrest : NoDigit rest) : (ds ++ rest).takeWhile Char.isDigit = ds := by
  rw [List.takeWhile_append_of_pos hds]
  cases rest with
  | nil => simp
  | cons c cs => simp [noDigit_cons.1 hrest]

theorem dropWhile_digits_append {ds rest : List Char} (hds : ∀ c ∈ ds, c.isDigit = true)
    (hrest : NoDigit rest) : (ds ++ rest).dropWhile Char.isDigit = rest := by
  rw [List.dropWhile_append_of_pos hds]
  cases rest with
  | nil => rfl
  | cons c cs => simp [noDigit_cons.1 hrest]

theorem mem_takeWhile_isDigit {cs : List Char} {c : Char}
    (hc : c ∈ cs.takeWhile Char.isDigit) : c.isDigit = true := by
  have h := List.all_takeWhile (l := cs) (p := Char.isDigit)
  rw [List.all_eq_true] at h
  exact h c hc

theorem splitDigits?_eq_some_iff {cs ds rest : List Char} :
    splitDigits? cs = some (ds, rest) ↔ IsDigits ds ∧ NoDigit rest ∧ ds ++ rest = cs := by
  constructor
  · intro h
    obtain ⟨happ, hne⟩ := splitDigits?_append h
    rw [splitDigits?] at h
    split at h
    · simp at h
    · rw [Option.some_inj, Prod.mk.injEq] at h
      obtain ⟨rfl, rfl⟩ := h
      exact ⟨⟨hne, fun c hc => mem_takeWhile_isDigit hc⟩, noDigit_dropWhile cs, happ⟩
  · rintro ⟨⟨hne, hds⟩, hrest, rfl⟩
    rw [splitDigits?, takeWhile_digits_append hds hrest, dropWhile_digits_append hds hrest]
    split
    · exact absurd rfl hne
    · rfl

/-! ## Letters -/

theorem isDieLetter_iff {c : Char} : isDieLetter c = true ↔ c = 'd' ∨ c = 'D' := by
  rw [isDieLetter, Bool.or_eq_true, beq_iff_eq, beq_iff_eq]

theorem isKeepLetter_iff {c : Char} : isKeepLetter c = true ↔ c = 'k' ∨ c = 'K' := by
  rw [isKeepLetter, Bool.or_eq_true, beq_iff_eq, beq_iff_eq]

theorem isSeparator_iff {c : Char} :
    isSeparator c = true ↔ c = ' ' ∨ c = '\t' ∨ c = '\r' ∨ c = '\n' := by
  rw [isSeparator, Bool.or_eq_true, Bool.or_eq_true, Bool.or_eq_true, beq_iff_eq, beq_iff_eq,
    beq_iff_eq, beq_iff_eq, or_assoc, or_assoc]

theorem not_isDigit_of_isDieLetter {c : Char} (h : isDieLetter c = true) : c.isDigit = false := by
  rcases isDieLetter_iff.1 h with rfl | rfl <;> decide

/-- A dice lexeme is cut at its letter, which stays with the sides. -/
theorem takeWhile_count_append {count sides : List Char} {letter : Char}
    (hcount : ∀ c ∈ count, c.isDigit = true) (hletter : isDieLetter letter = true) :
    (count ++ letter :: sides).takeWhile (fun c => !isDieLetter c) = count ∧
      (count ++ letter :: sides).dropWhile (fun c => !isDieLetter c) = letter :: sides := by
  have hnone : ∀ c ∈ count, (!isDieLetter c) = true := by
    intro c hc
    cases h : isDieLetter c with
    | false => rfl
    | true => exact absurd (hcount c hc) (by simp [not_isDigit_of_isDieLetter h])
  rw [List.takeWhile_append_of_pos hnone, List.dropWhile_append_of_pos hnone]
  simp [hletter]

theorem not_isDigit_of_isKeepLetter {c : Char} (h : isKeepLetter c = true) : c.isDigit = false := by
  rcases isKeepLetter_iff.1 h with rfl | rfl <;> decide

theorem not_isDigit_of_keepLetterMode? {c : Char} {mode : KeepMode}
    (h : keepLetterMode? c = some mode) : c.isDigit = false := by
  rw [keepLetterMode?] at h
  split at h
  · next hhigh =>
    rw [Bool.or_eq_true, beq_iff_eq, beq_iff_eq] at hhigh
    rcases hhigh with rfl | rfl <;> decide
  · split at h
    · next hlow =>
      rw [Bool.or_eq_true, beq_iff_eq, beq_iff_eq] at hlow
      rcases hlow with rfl | rfl <;> decide
    · cases h

/-! ## The longest lexeme of one kind -/

/-- The lexemes of the kind end in a run of digits. -/
def Kind.EndsInDigits (kind : Kind) : Prop := kind ≠ .plus ∧ kind ≠ .minus

theorem splitDice?_eq_some_iff {cs lexeme rest : List Char} :
    splitDice? cs = some (lexeme, rest) ↔
      Kind.dice.Admits lexeme ∧ NoDigit rest ∧ lexeme ++ rest = cs := by
  constructor
  · intro h
    have happ := (splitDice?_append h).1
    rw [splitDice?] at h
    split at h
    · simp at h
    · split at h
      · next letter after hdrop hletter =>
        obtain ⟨⟨sides, rest'⟩, hs, heq⟩ := Option.map_eq_some_iff.1 h
        rw [Prod.mk.injEq] at heq
        obtain ⟨rfl, rfl⟩ := heq
        obtain ⟨hsides, hrest, -⟩ := splitDigits?_eq_some_iff.1 hs
        exact ⟨⟨_, letter, sides, rfl, fun c hc => mem_takeWhile_isDigit hc, hletter, hsides⟩,
          hrest, happ⟩
      · simp at h
  · rintro ⟨⟨count, letter, sides, rfl, hcount, hletter, hsides⟩, hrest, rfl⟩
    have hstop : NoDigit (letter :: (sides ++ rest)) :=
      noDigit_cons.2 (not_isDigit_of_isDieLetter hletter)
    have hs := splitDigits?_eq_some_iff.2 ⟨hsides, hrest, rfl⟩
    rw [List.append_assoc, List.cons_append, splitDice?, dropWhile_digits_append hcount hstop,
      takeWhile_digits_append hcount hstop]
    simp [hletter, hs]

theorem splitKeep?_eq_some_iff {mode : KeepMode} {cs lexeme rest : List Char} :
    splitKeep? mode cs = some (lexeme, rest) ↔
      IsKeep mode lexeme ∧ NoDigit rest ∧ lexeme ++ rest = cs := by
  constructor
  · intro h
    have happ := (splitKeep?_append h).1
    rw [splitKeep?.eq_def] at h
    split at h
    · next k m after =>
      split at h
      · next hletters =>
        rw [Bool.and_eq_true, beq_iff_eq] at hletters
        obtain ⟨⟨amount, rest'⟩, hs, heq⟩ := Option.map_eq_some_iff.1 h
        rw [Prod.mk.injEq] at heq
        obtain ⟨rfl, rfl⟩ := heq
        obtain ⟨hamount, hrest, -⟩ := splitDigits?_eq_some_iff.1 hs
        exact ⟨⟨k, m, amount, rfl, hletters.1, hletters.2, hamount⟩, hrest, happ⟩
      · simp at h
    · simp at h
  · rintro ⟨⟨k, m, amount, rfl, hk, hm, hamount⟩, hrest, rfl⟩
    have hs := splitDigits?_eq_some_iff.2 ⟨hamount, hrest, rfl⟩
    simp [splitKeep?, hk, hm, hs]

theorem split?_plus_eq_some_iff {cs lexeme rest : List Char} :
    Kind.plus.split? cs = some (lexeme, rest) ↔ lexeme = ['+'] ∧ lexeme ++ rest = cs := by
  constructor
  · intro h
    refine ⟨?_, (split?_append h).1⟩
    rw [Kind.split?.eq_def] at h
    split at h <;> simp_all
  · rintro ⟨rfl, rfl⟩
    rfl

theorem split?_minus_eq_some_iff {cs lexeme rest : List Char} :
    Kind.minus.split? cs = some (lexeme, rest) ↔ lexeme = ['-'] ∧ lexeme ++ rest = cs := by
  constructor
  · intro h
    refine ⟨?_, (split?_append h).1⟩
    rw [Kind.split?.eq_def] at h
    split at h <;> simp_all
  · rintro ⟨rfl, rfl⟩
    rfl

/-- **A kind takes a lexeme with all the digits that follow it.** -/
theorem split?_eq_some_iff {kind : Kind} {cs lexeme rest : List Char} (hk : kind ≠ .unknown) :
    kind.split? cs = some (lexeme, rest) ↔
      kind.Admits lexeme ∧ (kind.EndsInDigits → NoDigit rest) ∧ lexeme ++ rest = cs := by
  cases kind with
  | integer => simp [Kind.split?, splitDigits?_eq_some_iff, Kind.EndsInDigits, Kind.Admits]
  | dice => simp [Kind.split?, splitDice?_eq_some_iff, Kind.EndsInDigits]
  | keepHighest => simp [Kind.split?, splitKeep?_eq_some_iff, Kind.EndsInDigits, Kind.Admits]
  | keepLowest => simp [Kind.split?, splitKeep?_eq_some_iff, Kind.EndsInDigits, Kind.Admits]
  | plus => simp [split?_plus_eq_some_iff, Kind.EndsInDigits, Kind.Admits]
  | minus => simp [split?_minus_eq_some_iff, Kind.EndsInDigits, Kind.Admits]
  | unknown => exact absurd rfl hk

theorem admits_append_digits {kind : Kind} (hend : kind.EndsInDigits) (hk : kind ≠ .unknown)
    {lexeme ds : List Char} (h : kind.Admits lexeme) (hds : ∀ c ∈ ds, c.isDigit = true) :
    kind.Admits (lexeme ++ ds) := by
  have hdigits : ∀ {es : List Char}, IsDigits es → IsDigits (es ++ ds) := by
    rintro es ⟨hne, hes⟩
    refine ⟨by simp [hne], fun c hc => ?_⟩
    rcases List.mem_append.1 hc with hc | hc
    · exact hes c hc
    · exact hds c hc
  have hkeep : ∀ {mode : KeepMode}, IsKeep mode lexeme → IsKeep mode (lexeme ++ ds) := by
    rintro mode ⟨k, m, amount, rfl, hk, hm, hamount⟩
    exact ⟨k, m, amount ++ ds, rfl, hk, hm, hdigits hamount⟩
  cases kind with
  | integer => exact hdigits h
  | dice =>
    obtain ⟨count, letter, sides, rfl, hcount, hletter, hsides⟩ := h
    exact ⟨count, letter, sides ++ ds, by simp, hcount, hletter, hdigits hsides⟩
  | keepHighest => exact hkeep h
  | keepLowest => exact hkeep h
  | plus => exact absurd rfl hend.1
  | minus => exact absurd rfl hend.2
  | unknown => exact absurd rfl hk

/-- **What a kind takes is the longest of its lexemes.** -/
theorem exists_split?_of_admits {kind : Kind} (hk : kind ≠ .unknown) {cs lexeme rest : List Char}
    (h : kind.Admits lexeme) (happ : lexeme ++ rest = cs) :
    ∃ longest after, kind.split? cs = some (longest, after) ∧ lexeme.length ≤ longest.length := by
  by_cases hend : kind.EndsInDigits
  · refine ⟨lexeme ++ rest.takeWhile Char.isDigit, rest.dropWhile Char.isDigit, ?_, by simp⟩
    refine (split?_eq_some_iff hk).2 ⟨?_, fun _ => noDigit_dropWhile rest, ?_⟩
    · exact admits_append_digits hend hk h fun c hc => mem_takeWhile_isDigit hc
    · rw [List.append_assoc, List.takeWhile_append_dropWhile, happ]
  · exact ⟨lexeme, rest, (split?_eq_some_iff hk).2 ⟨h, fun h' => absurd h' hend, happ⟩,
      Nat.le_refl _⟩

/-! ## Which kinds share a start -/

/-- The kinds that have a lexeme starting with a character. -/
def Kind.openedBy (c : Char) : List Kind :=
  if isKeepLetter c then [.keepHighest, .keepLowest]
  else if c = '+' then [.plus]
  else if c = '-' then [.minus]
  else if c.isDigit || isDieLetter c then [.integer, .dice]
  else []

theorem openedBy_cases (c : Char) :
    Kind.openedBy c = [.keepHighest, .keepLowest] ∨ Kind.openedBy c = [.plus] ∨
      Kind.openedBy c = [.minus] ∨ Kind.openedBy c = [.integer, .dice] ∨
      Kind.openedBy c = [] := by
  rw [Kind.openedBy]
  repeat' split
  all_goals simp

theorem openedBy_of_isDigit {c : Char} (h : c.isDigit = true) :
    Kind.openedBy c = [.integer, .dice] := by
  rw [Kind.openedBy, if_neg, if_neg, if_neg, if_pos (by rw [h, Bool.true_or])]
  · rintro rfl; revert h; decide
  · rintro rfl; revert h; decide
  · rw [isKeepLetter_iff]
    rintro (rfl | rfl) <;> revert h <;> decide

theorem openedBy_of_isDieLetter {c : Char} (h : isDieLetter c = true) :
    Kind.openedBy c = [.integer, .dice] := by
  rcases isDieLetter_iff.1 h with rfl | rfl <;> decide

theorem openedBy_of_isKeepLetter {c : Char} (h : isKeepLetter c = true) :
    Kind.openedBy c = [.keepHighest, .keepLowest] := by
  rw [Kind.openedBy, if_pos h]

theorem mem_openedBy_of_admits {kind : Kind} (hk : kind ≠ .unknown) {lexeme rest : List Char}
    {c : Char} {cs : List Char} (h : kind.Admits lexeme) (happ : lexeme ++ rest = c :: cs) :
    kind ∈ Kind.openedBy c := by
  have hkeep : ∀ {mode : KeepMode}, IsKeep mode lexeme →
      Kind.openedBy c = [.keepHighest, .keepLowest] := by
    rintro mode ⟨k, m, amount, rfl, hk, -, -⟩
    rw [List.cons_append, List.cons.injEq] at happ
    exact openedBy_of_isKeepLetter (happ.1 ▸ hk)
  cases kind with
  | integer =>
    obtain ⟨hne, hds⟩ := h
    obtain ⟨d, ds, rfl⟩ := List.exists_cons_of_ne_nil hne
    rw [List.cons_append, List.cons.injEq] at happ
    simp [openedBy_of_isDigit (happ.1 ▸ hds d (by simp))]
  | dice =>
    obtain ⟨count, letter, sides, rfl, hcount, hletter, -⟩ := h
    cases count with
    | nil =>
      rw [List.nil_append, List.cons_append, List.cons.injEq] at happ
      simp [openedBy_of_isDieLetter (happ.1 ▸ hletter)]
    | cons d ds =>
      rw [List.cons_append, List.cons_append, List.cons.injEq] at happ
      simp [openedBy_of_isDigit (happ.1 ▸ hcount d (by simp))]
  | keepHighest => simp [hkeep h]
  | keepLowest => simp [hkeep h]
  | plus =>
    rw [show lexeme = ['+'] from h, List.singleton_append, List.cons.injEq] at happ
    rw [← happ.1]
    decide
  | minus =>
    rw [show lexeme = ['-'] from h, List.singleton_append, List.cons.injEq] at happ
    rw [← happ.1]
    decide
  | unknown => exact absurd rfl hk

theorem keep_mode_unique {mode mode' : KeepMode} {lexeme lexeme' rest rest' : List Char}
    (h : IsKeep mode lexeme) (h' : IsKeep mode' lexeme')
    (happ : lexeme ++ rest = lexeme' ++ rest') : mode = mode' := by
  obtain ⟨k, m, ds, rfl, -, hm, -⟩ := h
  obtain ⟨k', m', ds', rfl, -, hm', -⟩ := h'
  simp only [List.cons_append, List.cons.injEq] at happ
  rw [← happ.2.1, hm, Option.some_inj] at hm'
  exact hm'

theorem admits_ne_nil {kind : Kind} (hk : kind ≠ .unknown) {lexeme : List Char}
    (h : kind.Admits lexeme) : lexeme ≠ [] := by
  have hsplit := (split?_eq_some_iff hk).2 ⟨h, fun _ => noDigit_nil, List.append_nil lexeme⟩
  exact (split?_append hsplit).2

/-- **Only a dice lexeme and an integer can start at the same place.** -/
theorem kind_eq_or_of_admits {kind kind' : Kind} (hk : kind ≠ .unknown) (hk' : kind' ≠ .unknown)
    {lexeme lexeme' rest rest' : List Char} (h : kind.Admits lexeme) (h' : kind'.Admits lexeme')
    (happ : lexeme ++ rest = lexeme' ++ rest') :
    kind = kind' ∨ (kind = .integer ∧ kind' = .dice) ∨ (kind = .dice ∧ kind' = .integer) := by
  obtain ⟨c, cs, rfl⟩ := List.exists_cons_of_ne_nil (admits_ne_nil hk h)
  have hmem := mem_openedBy_of_admits hk h (rfl : c :: cs ++ rest = c :: (cs ++ rest))
  have hmem' := mem_openedBy_of_admits hk' h' happ.symm
  rcases openedBy_cases c with heq | heq | heq | heq | heq <;> rw [heq] at hmem hmem' <;>
    simp only [List.mem_cons, List.not_mem_nil, or_false] at hmem hmem'
  · rcases hmem with rfl | rfl <;> rcases hmem' with rfl | rfl
    · exact .inl rfl
    · cases keep_mode_unique h h' happ
    · cases keep_mode_unique h h' happ
    · exact .inl rfl
  · exact .inl (hmem.trans hmem'.symm)
  · exact .inl (hmem.trans hmem'.symm)
  · rcases hmem with rfl | rfl <;> rcases hmem' with rfl | rfl <;> simp

/-- A dice lexeme is longer than any digit run that starts at the same place. -/
theorem length_lt_of_dice {lexeme ds rest rest' : List Char} (h : Kind.dice.Admits lexeme)
    (hds : IsDigits ds) (happ : ds ++ rest' = lexeme ++ rest) : ds.length < lexeme.length := by
  obtain ⟨count, letter, sides, rfl, hcount, hletter, -⟩ := h
  have hstop : NoDigit (letter :: (sides ++ rest)) :=
    noDigit_cons.2 (not_isDigit_of_isDieLetter hletter)
  have htake : ds ++ rest'.takeWhile Char.isDigit = count := by
    rw [← List.takeWhile_append_of_pos hds.2, happ, List.append_assoc, List.cons_append,
      takeWhile_digits_append hcount hstop]
  rw [← htake]
  simp only [List.length_append, List.length_cons]
  omega

/-- **A lexeme is one of only one kind.** -/
theorem Kind.admits_unique {kind kind' : Kind} (hk : kind ≠ .unknown) (hk' : kind' ≠ .unknown)
    {lexeme : List Char} (h : kind.Admits lexeme) (h' : kind'.Admits lexeme) : kind = kind' := by
  have hsame : lexeme ++ [] = lexeme ++ [] := rfl
  rcases kind_eq_or_of_admits hk hk' h h' hsame with rfl | ⟨rfl, rfl⟩ | ⟨rfl, rfl⟩
  · rfl
  · exact absurd (length_lt_of_dice h' h hsame) (Nat.lt_irrefl _)
  · exact absurd (length_lt_of_dice h h' hsame) (Nat.lt_irrefl _)

/-! ## The longest lexeme of all kinds -/

/-- Of all lexemes that `cs` starts with, `lexeme` is the longest; it is one of `kind`, and `rest`
is what follows it. -/
structure Longest (cs : List Char) (kind : Kind) (lexeme rest : List Char) : Prop where
  /-- The kind has lexemes of a shape of its own. -/
  known : kind ≠ .unknown
  /-- The lexeme is one of the kind. -/
  admits : kind.Admits lexeme
  /-- The text starts with the lexeme. -/
  append : lexeme ++ rest = cs
  /-- No other lexeme at the start of the text is longer. -/
  longest : ∀ (kind' : Kind) (lexeme' rest' : List Char), kind' ≠ .unknown →
    kind'.Admits lexeme' → lexeme' ++ rest' = cs → lexeme'.length ≤ lexeme.length

/-- No lexeme of any kind starts the text. -/
def Unmatched (cs : List Char) : Prop :=
  ∀ (kind : Kind) (lexeme rest : List Char), kind ≠ .unknown → kind.Admits lexeme →
    lexeme ++ rest ≠ cs

/-- **A longest lexeme without comparing lexemes.**  It is what its kind takes, and if it is an
integer then no dice lexeme starts there. -/
theorem longest_iff {kind : Kind} (hk : kind ≠ .unknown) {cs lexeme rest : List Char} :
    Longest cs kind lexeme rest ↔
      kind.split? cs = some (lexeme, rest) ∧ (kind = .integer → splitDice? cs = none) := by
  constructor
  · intro h
    obtain ⟨taken, after, hsplit, hle⟩ := exists_split?_of_admits hk h.admits h.append
    obtain ⟨hadmits, -, happ⟩ := (split?_eq_some_iff hk).1 hsplit
    have hlen := h.longest kind taken after hk hadmits happ
    obtain ⟨rfl, rfl⟩ := List.append_inj (happ.trans h.append.symm) (by omega)
    refine ⟨hsplit, ?_⟩
    rintro rfl
    rw [Option.eq_none_iff_forall_ne_some]
    rintro ⟨dice, rest⟩ hdice
    obtain ⟨hdice, -, happ'⟩ := splitDice?_eq_some_iff.1 hdice
    have hlt := length_lt_of_dice hdice hadmits (happ.trans happ'.symm)
    have := h.longest .dice dice rest (by decide) hdice happ'
    omega
  · rintro ⟨hsplit, hdice⟩
    obtain ⟨hadmits, -, happ⟩ := (split?_eq_some_iff hk).1 hsplit
    refine ⟨hk, hadmits, happ, fun kind' lexeme' rest' hk' hadmits' happ' => ?_⟩
    obtain ⟨taken, after, hsplit', hle⟩ := exists_split?_of_admits hk' hadmits' happ'
    rcases kind_eq_or_of_admits hk hk' hadmits hadmits' (happ.trans happ'.symm) with
      rfl | ⟨rfl, rfl⟩ | ⟨rfl, rfl⟩
    · rw [hsplit, Option.some_inj, Prod.mk.injEq] at hsplit'
      rw [hsplit'.1]
      exact hle
    · rw [Kind.split?, hdice rfl] at hsplit'
      cases hsplit'
    · exact Nat.le_of_lt (length_lt_of_dice hadmits hadmits' (happ'.trans happ.symm))

/-- A lexeme is the longest one if no digit follows it and, for an integer, no letter that would
make it the start of a dice lexeme. -/
theorem longest_of_noDigit {kind : Kind} (hk : kind ≠ .unknown) {lexeme rest : List Char}
    (hadmits : kind.Admits lexeme) (hrest : kind.EndsInDigits → NoDigit rest)
    (hletter : kind = .integer → ∀ c ∈ rest.head?, isDieLetter c = false) :
    Longest (lexeme ++ rest) kind lexeme rest := by
  refine (longest_iff hk).2 ⟨(split?_eq_some_iff hk).2 ⟨hadmits, hrest, rfl⟩, ?_⟩
  rintro rfl
  have hds : IsDigits lexeme := hadmits
  rw [splitDice?, dropWhile_digits_append hds.2 (hrest ⟨by decide, by decide⟩)]
  cases rest with
  | nil => rfl
  | cons c cs => simp [hletter rfl c rfl]

/-- There is at most one longest lexeme, and it is of one kind only. -/
theorem Longest.unique {cs lexeme lexeme' rest rest' : List Char} {kind kind' : Kind}
    (h : Longest cs kind lexeme rest) (h' : Longest cs kind' lexeme' rest') :
    kind = kind' ∧ lexeme = lexeme' ∧ rest = rest' := by
  have hle := h.longest kind' lexeme' rest' h'.known h'.admits h'.append
  have hge := h'.longest kind lexeme rest h.known h.admits h.append
  obtain ⟨rfl, rfl⟩ := List.append_inj (h.append.trans h'.append.symm) (by omega)
  exact ⟨Kind.admits_unique h.known h'.known h.admits h'.admits, rfl, rfl⟩

/-- **The first token is the longest lexeme**, or a stray character if there is none. -/
theorem firstToken_cases (c : Char) (after : List Char) :
    Longest (c :: after) (firstToken c after).1 (firstToken c after).2.1 (firstToken c after).2.2 ∨
      (firstToken c after = (.unknown, [c], after) ∧ Unmatched (c :: after)) := by
  rw [firstToken]
  cases h : Kind.known.findSome? fun kind => (kind.split? (c :: after)).map (kind, ·) with
  | none =>
    refine .inr ⟨rfl, fun kind lexeme rest hk hadmits happ => ?_⟩
    obtain ⟨taken, rest', hsplit, -⟩ := exists_split?_of_admits hk hadmits happ
    have hmem : kind ∈ Kind.known := by cases kind <;> first | decide | exact absurd rfl hk
    simpa [hsplit] using List.findSome?_eq_none_iff.1 h kind hmem
  | some found =>
    obtain ⟨earlier, kind, later, hknown, hfound, hearlier⟩ := List.findSome?_eq_some_iff.1 h
    obtain ⟨⟨lexeme, rest⟩, hsplit, rfl⟩ := Option.map_eq_some_iff.1 hfound
    have hk : kind ≠ .unknown := by
      have hmem : kind ∈ Kind.known := by simp [hknown]
      rintro rfl
      revert hmem
      decide
    refine .inl ((longest_iff hk).2 ⟨hsplit, ?_⟩)
    rintro rfl
    -- dice stand before integers among the known kinds, so they have been tried already
    have hdice : Kind.dice ∈ earlier := by
      cases earlier with
      | nil => simp [Kind.known] at hknown
      | cons first others =>
        rw [Kind.known, List.cons_append, List.cons.injEq] at hknown
        simp [hknown.1]
    simpa [Kind.split?] using hearlier .dice hdice

/-! ## Cutting a text into tokens -/

/-- The text `cs`, whose first byte is at position `start`, consists of the tokens `ts`, each the
longest match where it starts, and of separators between them. -/
inductive Lexes : Nat → List Char → List Token → Prop
  | done {start : Nat} : Lexes start [] []
  | skip {start : Nat} {c : Char} {cs : List Char} {ts : List Token}
      (hsep : isSeparator c = true) (h : Lexes (start + c.utf8Size) cs ts) :
      Lexes start (c :: cs) ts
  | take {start : Nat} {cs lexeme rest : List Char} {kind : Kind} {ts : List Token}
      (hmax : Longest cs kind lexeme rest)
      (h : Lexes (start + Text.byteLength lexeme) rest ts) :
      Lexes start cs (⟨kind, lexeme, start⟩ :: ts)
  | stray {start : Nat} {c : Char} {cs : List Char} {ts : List Token}
      (hsep : isSeparator c = false) (hnone : Unmatched (c :: cs))
      (h : Lexes (start + c.utf8Size) cs ts) :
      Lexes start (c :: cs) (⟨.unknown, [c], start⟩ :: ts)

theorem lexes_tokensFrom (start : Nat) (cs : List Char) :
    Lexes start cs (tokensFrom start cs) := by
  induction start, cs using tokensFrom.induct with
  | case1 start =>
    rw [tokensFrom]
    exact .done
  | case2 start c after hsep ih =>
    rw [tokensFrom, if_pos hsep]
    exact .skip hsep ih
  | case3 start c after hsep first ih =>
    rw [tokensFrom, if_neg hsep]
    rcases firstToken_cases c after with hmax | ⟨hstray, hnone⟩
    · exact .take hmax ih
    · have hfirst : first = (.unknown, [c], after) := hstray
      rw [hfirst] at ih
      show Lexes start (c :: after)
        (⟨first.1, first.2.1, start⟩ ::
          tokensFrom (start + Text.byteLength first.2.1) first.2.2)
      rw [hfirst]
      exact .stray (by simpa using hsep) hnone ih

/-- No lexeme starts with a separator. -/
theorem unmatched_of_isSeparator {c : Char} (hsep : isSeparator c = true) (cs : List Char) :
    Unmatched (c :: cs) := by
  intro kind lexeme rest hk h happ
  have hmem := mem_openedBy_of_admits hk h happ
  have hnone : Kind.openedBy c = [] := by
    rcases isSeparator_iff.1 hsep with rfl | rfl | rfl | rfl <;> decide
  rw [hnone] at hmem
  exact absurd hmem List.not_mem_nil

/-- A text is cut into tokens in only one way. -/
theorem Lexes.unique {start : Nat} {cs : List Char} {ts us : List Token} (h : Lexes start cs ts)
    (h' : Lexes start cs us) : ts = us := by
  induction h generalizing us with
  | done =>
    cases h' with
    | done => rfl
    | take hmax _ => exact absurd hmax.append (by simp [admits_ne_nil hmax.known hmax.admits])
  | skip hsep h ih =>
    cases h' with
    | skip _ h' => exact ih h'
    | take hmax _ =>
      exact absurd hmax.append (unmatched_of_isSeparator hsep _ _ _ _ hmax.known hmax.admits)
    | stray hsep' _ _ => simp [hsep] at hsep'
  | take hmax h ih =>
    cases h' with
    | done => exact absurd hmax.append (by simp [admits_ne_nil hmax.known hmax.admits])
    | skip hsep _ =>
      exact absurd hmax.append (unmatched_of_isSeparator hsep _ _ _ _ hmax.known hmax.admits)
    | take hmax' h' =>
      obtain ⟨rfl, rfl, rfl⟩ := hmax.unique hmax'
      rw [ih h']
    | stray _ hnone _ => exact absurd hmax.append (hnone _ _ _ hmax.known hmax.admits)
  | stray hsep hnone h ih =>
    cases h' with
    | skip hsep' _ => simp [hsep] at hsep'
    | take hmax' _ => exact absurd hmax'.append (hnone _ _ _ hmax'.known hmax'.admits)
    | stray _ _ h' => rw [ih h']

/-- **The tokens of a text are its longest matches, one after another.** -/
theorem lexes_iff {start : Nat} {cs : List Char} {ts : List Token} :
    Lexes start cs ts ↔ ts = tokensFrom start cs := by
  constructor
  · intro h
    exact h.unique (lexes_tokensFrom start cs)
  · rintro rfl
    exact lexes_tokensFrom start cs

end Dicebag
