import Mathlib.Data.List.DropRight
import Dicebag.Proofs.Formula.Position
import Dicebag.Proofs.Formula.Respelling

/-!
# Blanks at the ends of a text

Reading a text drops the blanks at its ends from the spelling that it keeps, and a text of blanks
counts as empty.  There every Unicode white space is a blank.  The tokens are taken from the text as
it stands, however, and they skip only four blanks, the separators; any other is a stray character.
So it can matter whether a text has been trimmed before it is read.

`sameTrimmed_iff` says when it does not (`EndsHarmless`).  The first blank that is no separator
decides (`FirstOdd`).  At the start of a text it is the first thing that is wrong
(`parse_of_leading_odd`); at the end it is wrong only if nothing was before it
(`parse_of_trailing_odd`).
-/

set_option autoImplicit false

namespace Dicebag

/-! ## Trimming -/

namespace Text

theorem trimChars_eq (cs : List Char) :
    trimChars cs = (cs.dropWhile isBlank).rdropWhile isBlank := rfl

theorem trimChars_trimChars (cs : List Char) : trimChars (trimChars cs) = trimChars cs := by
  have hback : (trimChars cs).rdropWhile isBlank = trimChars cs := List.rdropWhile_idempotent _ _
  have hfront : (trimChars cs).dropWhile isBlank = trimChars cs := by
    cases hcs : trimChars cs with
    | nil => rfl
    | cons d ds =>
      have hprefix : trimChars cs <+: cs.dropWhile isBlank := List.rdropWhile_prefix isBlank _
      rw [hcs] at hprefix
      obtain ⟨rest, hrest⟩ := hprefix
      have hd : isBlank d = false := dropWhile_isBlank_eq_cons hrest.symm
      exact List.dropWhile_cons_of_neg (by rw [hd]; decide)
  rw [trimChars_eq (trimChars cs), hfront, hback]

theorem trim_trim (text : String) : trim (trim text) = trim text := by
  rw [trim, toList_trim, trimChars_trimChars]
  rfl

/-- The blanks at the start of a text. -/
def leading (text : String) : List Char := text.toList.takeWhile isBlank

/-- The blanks at the end of a text, if these are not its start as well. -/
def trailing (text : String) : List Char := (text.toList.dropWhile isBlank).rtakeWhile isBlank

theorem toList_eq_append (text : String) :
    text.toList = leading text ++ ((trim text).toList ++ trailing text) := by
  rw [toList_trim, trimChars_eq, trailing, List.rdropWhile_append_rtakeWhile, leading,
    List.takeWhile_append_dropWhile]

theorem isBlank_of_mem_leading {text : String} {c : Char} (hc : c ∈ leading text) :
    isBlank c = true := List.mem_takeWhile_imp hc

theorem isBlank_of_mem_trailing {text : String} {c : Char} (hc : c ∈ trailing text) :
    isBlank c = true := List.mem_rtakeWhile_imp hc

end Text

/-! ## Characters that are in no lexeme -/

theorem not_isLexical_of_isBlank {c : Char} (h : Text.isBlank c = true) : ¬IsLexical c := by
  intro hc
  rw [isBlank_of_isLexical hc] at h
  cases h

theorem unmatched_of_not_isLexical {c : Char} (hc : ¬IsLexical c) (cs : List Char) :
    Unmatched (c :: cs) := by
  intro kind lexeme rest hk h happ
  obtain ⟨d, ds, rfl⟩ := List.exists_cons_of_ne_nil (admits_ne_nil hk h)
  rw [List.cons_append, List.cons.injEq] at happ
  exact hc (isLexical_of_mem hk h (happ.1 ▸ List.mem_cons_self))

/-- A token with such a character in it is this character. -/
theorem Token.Proper.eq_of_not_isLexical {t : Token} (h : t.Proper) {c : Char}
    (hc : ¬IsLexical c) (hmem : c ∈ t.lexeme) : t.lexeme = [c] := by
  by_cases hk : t.kind = .unknown
  · rw [Token.Proper, hk] at h
    obtain ⟨d, hd⟩ := h
    rw [hd, List.mem_singleton] at hmem
    rw [hd, hmem]
  · exact absurd (isLexical_of_mem hk h hmem) hc

/-- No token lies across the start of such a character. -/
theorem Lexes.isBoundary {start : Nat} {cs ds : List Char} {c : Char} {ts : List Token}
    (h : Lexes start (cs ++ c :: ds) ts) (hc : ¬IsLexical c) :
    IsBoundary ts (start + Text.byteLength cs) := by
  intro t ht
  obtain ⟨before, after, rfl⟩ := List.append_of_mem ht
  obtain ⟨front, back, htext, hstart, -, -⟩ := h.split_token
  have hproper := h.proper t ht
  show t.start + Text.byteLength t.lexeme ≤ _ ∨ _ ≤ t.start
  rw [hstart]
  rcases List.append_eq_append_iff.1 htext with ⟨left, rfl, -⟩ | ⟨left, rfl, hleft⟩
  · rw [Text.byteLength_append]
    omega
  · rcases List.append_eq_append_iff.1 hleft with ⟨more, rfl, -⟩ | ⟨more, hlexeme, hmore⟩
    · rw [Text.byteLength_append, Text.byteLength_append]
      omega
    · cases more with
      | nil =>
        rw [hlexeme, List.append_nil, Text.byteLength_append]
        omega
      | cons d more =>
        -- the character is in the token, and so it is all of the token
        rw [List.cons_append, List.cons.injEq] at hmore
        obtain ⟨rfl, -⟩ := hmore
        have hall := hproper.eq_of_not_isLexical hc (by rw [hlexeme]; simp)
        rw [hall, eq_comm, List.append_eq_singleton_iff] at hlexeme
        obtain ⟨rfl, -⟩ | ⟨-, hnil⟩ := hlexeme
        · rw [List.append_nil]
          exact .inr (Nat.le_refl _)
        · cases hnil

/-- **The tokens of a text go on with a character that is in no lexeme.** -/
theorem Lexes.append_of_not_isLexical {start : Nat} {cs ds : List Char} {c : Char}
    {ts us : List Token} (h : Lexes start cs ts) (hc : ¬IsLexical c)
    (h' : Lexes (start + Text.byteLength cs) (c :: ds) us) :
    Lexes start (cs ++ c :: ds) (ts ++ us) := by
  have hall := lexes_tokensFrom start (cs ++ c :: ds)
  obtain ⟨ts', us', hsplit, hts, hus⟩ := hall.cut (hall.isBoundary hc)
  rw [hts.unique h, hus.unique h'] at hsplit
  exact hsplit ▸ hall

theorem Lexes.append_separators {start : Nat} {cs seps : List Char} {ts : List Token}
    (h : Lexes start cs ts) (hseps : ∀ c ∈ seps, isSeparator c = true) :
    Lexes start (cs ++ seps) ts := by
  cases seps with
  | nil => rwa [List.append_nil]
  | cons c seps =>
    have halone := standsAlone_of_isSeparator (hseps c List.mem_cons_self)
    have hnone : Lexes (start + Text.byteLength cs) (c :: seps) [] := by
      rw [← List.append_nil (c :: seps)]
      exact .skip_all hseps .done
    rw [← List.append_nil ts]
    exact h.append hnone (apart_of_head halone)

/-! ## Blanks that separate nothing -/

/-- The first blank that is no separator is `c`. -/
def FirstOdd (c : Char) (blanks : List Char) : Prop :=
  ∃ seps rest, blanks = seps ++ c :: rest ∧ (∀ d ∈ seps, isSeparator d = true) ∧
    isSeparator c = false

theorem separators_or_firstOdd (blanks : List Char) :
    (∀ c ∈ blanks, isSeparator c = true) ∨ ∃ c, FirstOdd c blanks := by
  induction blanks with
  | nil => exact .inl (by simp)
  | cons d blanks ih =>
    cases hd : isSeparator d with
    | false => exact .inr ⟨d, [], blanks, rfl, by simp, hd⟩
    | true =>
      rcases ih with hall | ⟨c, seps, rest, rfl, hseps, hc⟩
      · exact .inl (List.forall_mem_cons.2 ⟨hd, hall⟩)
      · exact .inr ⟨c, d :: seps, rest, rfl, List.forall_mem_cons.2 ⟨hd, hseps⟩, hc⟩

theorem FirstOdd.not_separators {c : Char} {blanks : List Char} (h : FirstOdd c blanks) :
    ¬∀ d ∈ blanks, isSeparator d = true := by
  obtain ⟨seps, rest, rfl, -, hc⟩ := h
  intro hall
  rw [hall c (by simp)] at hc
  cases hc

/-- Such a blank is a stray token, after the tokens before it. -/
theorem Lexes.append_firstOdd {start : Nat} {cs blanks : List Char} {c : Char} {ts : List Token}
    (h : Lexes start cs ts) (more : List Char) (hblanks : ∀ d ∈ blanks, Text.isBlank d = true)
    (hodd : FirstOdd c blanks) :
    ∃ place after,
      Lexes start (cs ++ (blanks ++ more)) (ts ++ ⟨.unknown, [c], place⟩ :: after) := by
  obtain ⟨seps, rest, rfl, hseps, hc⟩ := hodd
  have hlexical : ¬IsLexical c := not_isLexical_of_isBlank (hblanks c (by simp))
  have hstray := Lexes.stray hc (unmatched_of_not_isLexical hlexical (rest ++ more))
    (lexes_tokensFrom (start + Text.byteLength (cs ++ seps) + c.utf8Size) (rest ++ more))
  have hall := (h.append_separators hseps).append_of_not_isLexical hlexical hstray
  rw [List.append_assoc, ← List.cons_append, ← List.append_assoc seps] at hall
  exact ⟨_, _, hall⟩

/-- Separators at the start only move the tokens. -/
theorem lexes_skip_leading {text : String}
    (hlead : ∀ c ∈ Text.leading text, isSeparator c = true) :
    Lexes 0 (Text.leading text ++ (Text.trim text).toList)
      ((tokens (Text.trim text)).map (Token.shift (Text.byteLength (Text.leading text)))) :=
  .skip_all hlead ((lexes_tokensFrom 0 (Text.trim text).toList).shift _)

/-! ## Walks over tokens that are moved -/

theorem Reaches.shift {ts : List Token} {w : Walk} (h : Reaches ts w) (n : Nat) :
    ∃ w', Reaches (ts.map (Token.shift n)) w' ∧ w.Alike w' := by
  induction h with
  | start => exact ⟨_, .start, rfl, .opening .plus⟩
  | @snoc before t w v _ hgoes ih =>
    obtain ⟨w', hw', halike⟩ := ih
    obtain ⟨v', hgoes', hv⟩ := hgoes.alike halike (alike_shift n t)
    refine ⟨v', ?_, hv⟩
    rw [List.map_append, List.map_singleton]
    exact .snoc hw' hgoes'

/-- A stray token stops every walk as one that was not expected. -/
theorem Walk.exists_stops_unknown (w : Walk) {t : Token} (hkind : t.kind = .unknown) :
    ∃ labels, w.Stops t (.unexpected t.excerpt labels) := by
  rcases w.goes_or_stops t with ⟨w', hgoes⟩ | ⟨e, hstops⟩
  · exact absurd hkind hgoes.known
  · cases hstops with
    | term hstage hdice hinteger => exact ⟨_, .term hstage hdice hinteger⟩
    | sign hended hkeep hsign => exact ⟨_, .sign hended hkeep hsign⟩
    | keep _ hmode _ => simp [hkind, Kind.keepMode?] at hmode
    | count _ hdice _ => simp [hkind] at hdice
    | sides _ hdice _ _ => simp [hkind] at hdice
    | second _ hinteger _ => simp [hkind] at hinteger
    | large _ hinteger _ _ => simp [hkind] at hinteger

/-! ## Reading a text as it is and trimmed -/

theorem sameSlice_refl (x : Excerpt) : SameSlice x x := rfl

/-- The text has the same outcome as without the blanks at its ends. -/
structure SameTrimmed (text : String) : Prop where
  /-- Both are the same formula, or refused for the same reason. -/
  outcome : SameOutcome SameSlice (parse (Text.trim text)) (parse text)
  /-- They have the same spelling. -/
  raw : ∀ w w', parse (Text.trim text) = .ok w → parse text = .ok w' → w.raw = w'.raw

/-- The spelling that is kept is trimmed already. -/
theorem sameTrimmed_of_outcome {text : String}
    (h : SameOutcome SameSlice (parse (Text.trim text)) (parse text)) : SameTrimmed text := by
  refine ⟨h, fun w w' hw hw' => ?_⟩
  rw [(parse_eq_ok_iff.1 hw).2, (parse_eq_ok_iff.1 hw').2, Text.trim_trim]

theorem SameOutcome.exists_error {r : Except ParseError Written} {y : Excerpt}
    {labels : List String} (h : SameOutcome SameSlice r (.error (.unexpected y labels))) :
    ∃ x, r = .error (.unexpected x labels) ∧ x.slice = y.slice := by
  cases h with
  | @refused e e' h =>
    cases h with
    | @unexpected x _ h => exact ⟨x, rfl, h⟩

/-- The blanks at the ends of the text do not change its outcome. -/
inductive EndsHarmless (text : String) : Prop
  /-- There is nothing else. -/
  | blank (h : Text.trim text = "")
  /-- They are all separators. -/
  | separators (hlead : ∀ c ∈ Text.leading text, isSeparator c = true)
      (htrail : ∀ c ∈ Text.trailing text, isSeparator c = true)
  /-- Those at the start are, and the text goes wrong before those at the end. -/
  | earlier {e : ParseError} {x : Excerpt}
      (hlead : ∀ c ∈ Text.leading text, isSeparator c = true)
      (h : parse (Text.trim text) = .error e) (hx : e.place? = some x) (hne : x.slice ≠ "")
  /-- One at the start is not, but without it the text goes wrong at another one like it, where a
  term has to follow. -/
  | another {c : Char} {x : Excerpt} (hlead : FirstOdd c (Text.leading text))
      (h : parse (Text.trim text) = .error (unexpected x Kind.terms))
      (hx : x.slice = String.singleton c)

section Outcomes

variable {text : String}

theorem outcome_of_blank (h : Text.trim text = "") :
    SameOutcome SameSlice (parse (Text.trim text)) (parse text) := by
  have hempty : Text.trim "" = "" := by decide
  rw [parse_of_blank h, h, parse_of_blank hempty]
  exact .refused (.unexpected (sameSlice_refl _) _)

theorem outcome_of_separators (hlead : ∀ c ∈ Text.leading text, isSeparator c = true)
    (htrail : ∀ c ∈ Text.trailing text, isSeparator c = true) :
    SameOutcome SameSlice (parse (Text.trim text)) (parse text) := by
  have hlexes := (lexes_skip_leading hlead).append_separators htrail
  rw [List.append_assoc, ← Text.toList_eq_append] at hlexes
  refine sameOutcome_of_tokens (by rw [Text.trim_trim]) (lexes_tokensFrom 0 _) hlexes ?_ rfl rfl
  exact List.forall₂_map_right_iff.2 (List.forall₂_same.2 fun t _ => alike_shift _ t)

/-- Where a blank at the start is no separator, the text is refused for that blank. -/
theorem parse_of_leading_odd {c : Char} (hblank : Text.trim text ≠ "")
    (hlead : FirstOdd c (Text.leading text)) :
    ∃ y, parse text = .error (unexpected y Kind.terms) ∧ y.slice = String.singleton c := by
  have hstart : Lexes 0 [] [] := .done
  obtain ⟨place, after, hlexes⟩ := hstart.append_firstOdd
    ((Text.trim text).toList ++ Text.trailing text) (fun _ => Text.isBlank_of_mem_leading) hlead
  rw [List.nil_append, ← Text.toList_eq_append] at hlexes
  exact ⟨_, parse_of_stops hblank hlexes .start (.term rfl (by simp) (by simp)),
    String.singleton_eq_ofList.symm⟩

/-- Where one at the end is the first that is none, the text is refused for what is wrong before, or
else for that blank. -/
theorem parse_of_trailing_odd {c : Char} (hblank : Text.trim text ≠ "")
    (hlead : ∀ c ∈ Text.leading text, isSeparator c = true)
    (htrail : FirstOdd c (Text.trailing text)) :
    (∃ e e' x, parse (Text.trim text) = .error e ∧ parse text = .error e' ∧
        e.Alike SameSlice e' ∧ e.place? = some x ∧ x.slice ≠ "") ∨
      ∃ w y labels, Reaches (tokens (Text.trim text)) w ∧
        parse text = .error (.unexpected y labels) ∧ y.slice = String.singleton c := by
  obtain ⟨place, after, hlexes⟩ := (lexes_skip_leading hlead).append_firstOdd []
    (fun _ => Text.isBlank_of_mem_trailing) htrail
  rw [List.append_nil, List.append_assoc, ← Text.toList_eq_append] at hlexes
  have hblank' : Text.trim (Text.trim text) ≠ "" := by rwa [Text.trim_trim]
  have htrimmed := lexes_tokensFrom 0 (Text.trim text).toList
  rcases reaches_or_stops (tokens (Text.trim text)) with
    ⟨w, hw⟩ | ⟨before, t, rest, w, e, hsplit, hw, hstops⟩
  · obtain ⟨w', hw', -⟩ := hw.shift (Text.byteLength (Text.leading text))
    obtain ⟨labels, hstops⟩ := w'.exists_stops_unknown (t := ⟨.unknown, [c], place⟩) rfl
    exact .inr ⟨w, _, labels, hw, parse_of_stops hblank hlexes hw' hstops,
      String.singleton_eq_ofList.symm⟩
  · obtain ⟨w', hw', halike⟩ := hw.shift (Text.byteLength (Text.leading text))
    obtain ⟨e', hstops', he⟩ := hstops.alike halike (alike_shift _ t)
    rw [hsplit, List.map_append, List.map_cons, List.append_assoc, List.cons_append] at hlexes
    rw [tokens] at hsplit
    rw [hsplit] at htrimmed
    have hne : t.excerpt.slice ≠ "" := by
      have hlexeme := (htrimmed.proper t (by simp)).lexeme_ne_nil
      simpa [Token.excerpt] using hlexeme
    exact .inl ⟨e, e', t.excerpt, parse_of_stops hblank' htrimmed hw hstops,
      parse_of_stops hblank hlexes hw' hstops', he, hstops.place?_eq, hne⟩

/-- Where the first blank that is no separator is at the end, the text has to go wrong before it. -/
theorem sameTrimmed_iff_of_trailing_odd {c : Char} (hblank : Text.trim text ≠ "")
    (hlead : ∀ c ∈ Text.leading text, isSeparator c = true)
    (htrail : FirstOdd c (Text.trailing text)) : SameTrimmed text ↔ EndsHarmless text := by
  rcases parse_of_trailing_odd hblank hlead htrail with
    ⟨e, e', x, h, h', halike, hx, hne⟩ | ⟨w, y, labels, hw, hparse, hslice⟩
  · have houtcome : SameOutcome SameSlice (parse (Text.trim text)) (parse text) := by
      rw [h, h']
      exact .refused halike
    exact iff_of_true (sameTrimmed_of_outcome houtcome) (.earlier hlead h hx hne)
  · -- trimmed, the text is read or ends too early, and as it is it goes wrong at the blank
    have hblank' : Text.trim (Text.trim text) ≠ "" := by rwa [Text.trim_trim]
    have htrimmed := lexes_tokensFrom 0 (Text.trim text).toList
    refine iff_of_false (fun hsame => ?_) (fun hharmless => ?_)
    · have houtcome := hsame.outcome
      rw [hparse] at houtcome
      obtain ⟨x, hx, hxy⟩ := houtcome.exists_error
      rw [place_of_reaches hblank' htrimmed hw hx rfl, hslice] at hxy
      exact absurd hxy.symm (by simp [Excerpt.emptyAt])
    · cases hharmless with
      | blank hempty => exact hblank hempty
      | separators _ hseps => exact htrail.not_separators hseps
      | earlier _ h hx hne => exact hne (by rw [place_of_reaches hblank' htrimmed hw h hx]; rfl)
      | another hodd _ _ => exact hodd.not_separators hlead

/-- Where it is at the start, the text has to go wrong at another one like it. -/
theorem sameTrimmed_iff_of_leading_odd {c : Char} (hblank : Text.trim text ≠ "")
    (hlead : FirstOdd c (Text.leading text)) : SameTrimmed text ↔ EndsHarmless text := by
  constructor
  · intro hsame
    obtain ⟨y, hparse, hslice⟩ := parse_of_leading_odd hblank hlead
    have houtcome := hsame.outcome
    rw [hparse] at houtcome
    obtain ⟨x, hx, hxy⟩ := houtcome.exists_error
    exact .another hlead hx (hxy.trans hslice)
  · intro hharmless
    refine sameTrimmed_of_outcome ?_
    cases hharmless with
    | blank hempty => exact absurd hempty hblank
    | separators hseps _ => exact absurd hseps hlead.not_separators
    | earlier hseps _ _ _ => exact absurd hseps hlead.not_separators
    | another hodd h hx =>
      obtain ⟨y, hparse, hslice⟩ := parse_of_leading_odd hblank hodd
      rw [h, hparse]
      exact .refused (.unexpected (hx.trans hslice.symm) _)

end Outcomes

/-- **When it does not matter that a text is trimmed.**  It is so exactly if the blanks at its ends
are separators, or what is wrong with the text is the same without them. -/
theorem sameTrimmed_iff (text : String) : SameTrimmed text ↔ EndsHarmless text := by
  by_cases hblank : Text.trim text = ""
  · exact iff_of_true (sameTrimmed_of_outcome (outcome_of_blank hblank)) (.blank hblank)
  rcases separators_or_firstOdd (Text.leading text) with hlead | ⟨c, hlead⟩
  · rcases separators_or_firstOdd (Text.trailing text) with htrail | ⟨c, htrail⟩
    · exact iff_of_true (sameTrimmed_of_outcome (outcome_of_separators hlead htrail))
        (.separators hlead htrail)
    · exact sameTrimmed_iff_of_trailing_odd hblank hlead htrail
  · exact sameTrimmed_iff_of_leading_odd hblank hlead

/-- A no-break space before a formula. -/
theorem not_sameTrimmed_no_break_space :
    parse "\u00a0d20" = .error (.unexpected ⟨⟨0, 2⟩, "\u00a0"⟩ ["<dice>", "<integer>"]) ∧
      Text.trim "\u00a0d20" = "d20" ∧ (∃ w, parse "d20" = .ok w) ∧ ¬SameTrimmed "\u00a0d20" := by
  have hparse : parse "\u00a0d20" =
      .error (.unexpected ⟨⟨0, 2⟩, "\u00a0"⟩ ["<dice>", "<integer>"]) := by
    decide +kernel
  have htrim : Text.trim "\u00a0d20" = "d20" := by
    decide
  have hread : ∃ w, parse "d20" = .ok w :=
    ⟨⟨⟨[⟨.plus, 1, 20, none⟩], 0, by decide⟩, "d20"⟩, by decide +kernel⟩
  refine ⟨hparse, htrim, hread, fun hsame => ?_⟩
  obtain ⟨w, hw⟩ := hread
  have houtcome := hsame.outcome
  rw [htrim, hw, hparse] at houtcome
  cases houtcome

end Dicebag
