import Dicebag.Proofs.Token.Longest

/-!
# Cutting and joining texts between tokens

A longest match looks ahead, so the tokens of a text depend on what follows it.  This module says
where they do not.

* Separators and signs stand alone: no lexeme holds one of them together with another character
  (`eq_singleton_of_mem`).  Where such a character lies on either side of the seam between two
  texts, they are `Apart`, and the tokens of the two together are those of the one and then those of
  the other (`Lexes.append`).
* Lexemes are made of digits, a few letters and the signs (`isLexical_of_mem`).
* In the other direction a text can be cut wherever no token lies across the cut (`Lexes.cut`),
  since a lexeme that is the longest in a text is also the longest in what is left of it.
  `Lexes.split_token` cuts at a token, before and after it.
* Tokens do not depend on where the text starts, save for their own places (`Lexes.shift`).
-/

set_option autoImplicit false

namespace Dicebag

/-! ## Characters that stand alone -/

/-- A character that is no part of a longer lexeme: a separator or a sign. -/
def standsAlone (c : Char) : Bool := isSeparator c || c == '+' || c == '-'

theorem standsAlone_iff {c : Char} :
    standsAlone c = true ↔ isSeparator c = true ∨ c = '+' ∨ c = '-' := by
  rw [standsAlone, Bool.or_eq_true, Bool.or_eq_true, beq_iff_eq, beq_iff_eq, or_assoc]

theorem standsAlone_of_isSeparator {c : Char} (h : isSeparator c = true) :
    standsAlone c = true := standsAlone_iff.2 (.inl h)

theorem openedBy_of_standsAlone {c : Char} (h : standsAlone c = true) :
    Kind.openedBy c ≠ [.integer, .dice] ∧ Kind.openedBy c ≠ [.keepHighest, .keepLowest] := by
  rcases standsAlone_iff.1 h with h | rfl | rfl
  · rcases isSeparator_iff.1 h with rfl | rfl | rfl | rfl <;> decide
  · decide
  · decide

theorem keepLetterMode?_of_standsAlone {c : Char} (h : standsAlone c = true) :
    keepLetterMode? c = none := by
  rcases standsAlone_iff.1 h with h | rfl | rfl
  · rcases isSeparator_iff.1 h with rfl | rfl | rfl | rfl <;> decide
  · decide
  · decide

theorem not_standsAlone_of_isDigit {c : Char} (h : c.isDigit = true) : standsAlone c = false :=
  Bool.eq_false_iff.2 fun halone =>
    (openedBy_of_standsAlone halone).1 (openedBy_of_isDigit h)

theorem not_standsAlone_of_isDieLetter {c : Char} (h : isDieLetter c = true) :
    standsAlone c = false :=
  Bool.eq_false_iff.2 fun halone =>
    (openedBy_of_standsAlone halone).1 (openedBy_of_isDieLetter h)

theorem not_standsAlone_of_isKeepLetter {c : Char} (h : isKeepLetter c = true) :
    standsAlone c = false :=
  Bool.eq_false_iff.2 fun halone =>
    (openedBy_of_standsAlone halone).2 (openedBy_of_isKeepLetter h)

/-- **A character that stands alone is a lexeme by itself, or in none.** -/
theorem eq_singleton_of_mem {kind : Kind} (hk : kind ≠ .unknown) {lexeme : List Char}
    (h : kind.Admits lexeme) {c : Char} (hc : c ∈ lexeme) (halone : standsAlone c = true) :
    lexeme = [c] := by
  have hdigits : ∀ {ds : List Char}, (∀ d ∈ ds, d.isDigit = true) → c ∉ ds := by
    intro ds hds hmem
    rw [not_standsAlone_of_isDigit (hds c hmem)] at halone
    cases halone
  have hkeep : ∀ {mode : KeepMode}, ¬IsKeep mode lexeme := by
    rintro mode ⟨k, m, ds, rfl, hk, hm, hds⟩
    rcases List.mem_cons.1 hc with rfl | hc
    · rw [not_standsAlone_of_isKeepLetter hk] at halone
      cases halone
    · rcases List.mem_cons.1 hc with rfl | hc
      · rw [keepLetterMode?_of_standsAlone halone] at hm
        cases hm
      · exact hdigits hds.2 hc
  cases kind with
  | integer => exact absurd hc (hdigits h.2)
  | dice =>
    obtain ⟨count, letter, sides, rfl, hcount, hletter, hsides⟩ := h
    rcases List.mem_append.1 hc with hc | hc
    · exact absurd hc (hdigits hcount)
    · rcases List.mem_cons.1 hc with rfl | hc
      · rw [not_standsAlone_of_isDieLetter hletter] at halone
        cases halone
      · exact absurd hc (hdigits hsides.2)
  | keepHighest => exact absurd h hkeep
  | keepLowest => exact absurd h hkeep
  | plus =>
    rw [show lexeme = ['+'] from h] at hc ⊢
    rw [List.mem_singleton.1 hc]
  | minus =>
    rw [show lexeme = ['-'] from h] at hc ⊢
    rw [List.mem_singleton.1 hc]
  | unknown => exact absurd rfl hk

/-! ## Characters of lexemes -/

/-- The characters of lexemes other than digits. -/
def lexemeLetters : List Char := ['d', 'D', 'k', 'K', 'h', 'H', 'l', 'L', '+', '-']

/-- A character that lexemes are made of. -/
def IsLexical (c : Char) : Prop := c.isDigit = true ∨ c ∈ lexemeLetters

theorem isLexical_of_keepLetterMode? {c : Char} {mode : KeepMode}
    (h : keepLetterMode? c = some mode) : IsLexical c := by
  rw [keepLetterMode?] at h
  split at h
  · next hhigh =>
    rw [Bool.or_eq_true, beq_iff_eq, beq_iff_eq] at hhigh
    rcases hhigh with rfl | rfl <;> exact .inr (by decide)
  · split at h
    · next hlow =>
      rw [Bool.or_eq_true, beq_iff_eq, beq_iff_eq] at hlow
      rcases hlow with rfl | rfl <;> exact .inr (by decide)
    · cases h

/-- **A lexeme is made of digits, a few letters and the signs.** -/
theorem isLexical_of_mem {kind : Kind} (hk : kind ≠ .unknown) {lexeme : List Char}
    (h : kind.Admits lexeme) {c : Char} (hc : c ∈ lexeme) : IsLexical c := by
  have hkeep : ∀ {mode : KeepMode}, IsKeep mode lexeme → IsLexical c := by
    rintro mode ⟨k, m, ds, rfl, hk, hm, hds⟩
    rcases List.mem_cons.1 hc with rfl | hc
    · rcases isKeepLetter_iff.1 hk with rfl | rfl <;> exact .inr (by decide)
    · rcases List.mem_cons.1 hc with rfl | hc
      · exact isLexical_of_keepLetterMode? hm
      · exact .inl (hds.2 c hc)
  cases kind with
  | integer => exact .inl (h.2 c hc)
  | dice =>
    obtain ⟨count, letter, sides, rfl, hcount, hletter, hsides⟩ := h
    rcases List.mem_append.1 hc with hc | hc
    · exact .inl (hcount c hc)
    · rcases List.mem_cons.1 hc with rfl | hc
      · rcases isDieLetter_iff.1 hletter with rfl | rfl <;> exact .inr (by decide)
      · exact .inl (hsides.2 c hc)
  | keepHighest => exact hkeep h
  | keepLowest => exact hkeep h
  | plus =>
    rw [show lexeme = ['+'] from h, List.mem_singleton] at hc
    exact .inr (by rw [hc]; decide)
  | minus =>
    rw [show lexeme = ['-'] from h, List.mem_singleton] at hc
    exact .inr (by rw [hc]; decide)
  | unknown => exact absurd rfl hk

/-! ## The seam between two texts -/

/-- No lexeme reaches from the first text into the second: the last character of the one, if there
is one, or the first character of the other stands alone. -/
def Apart (cs ds : List Char) : Prop :=
  (∀ c ∈ cs.getLast?, standsAlone c = true) ∨ ∀ d ∈ ds.head?, standsAlone d = true

theorem Apart.of_append (as : List Char) {bs ds : List Char} (h : Apart (as ++ bs) ds) :
    Apart bs ds := by
  refine h.imp_left fun hlast c hc => hlast c ?_
  rw [Option.mem_def] at hc ⊢
  rw [List.getLast?_append, hc]
  rfl

theorem apart_of_head {cs ds : List Char} {d : Char} (h : standsAlone d = true) :
    Apart cs (d :: ds) := by
  refine .inr fun e he => ?_
  cases he
  exact h

/-- A lexeme that two texts together start with lies within the first of them. -/
theorem exists_rest_of_apart {cs ds lexeme rest : List Char} (hcs : cs ≠ []) (hapart : Apart cs ds)
    {kind : Kind} (hk : kind ≠ .unknown) (h : kind.Admits lexeme)
    (happ : lexeme ++ rest = cs ++ ds) : ∃ left, lexeme ++ left = cs := by
  rcases List.append_eq_append_iff.1 happ with ⟨left, rfl, -⟩ | ⟨extra, rfl, rfl⟩
  · exact ⟨left, rfl⟩
  · cases extra with
    | nil => exact ⟨[], by simp⟩
    | cons d extra =>
      -- the lexeme would hold the characters on both sides of the seam
      exfalso
      have hlength : 2 ≤ (cs ++ d :: extra).length := by
        have := List.length_pos_iff.2 hcs
        rw [List.length_append, List.length_cons]
        omega
      have halone : ∃ c ∈ cs ++ d :: extra, standsAlone c = true := by
        rcases hapart with hlast | hhead
        · exact ⟨cs.getLast hcs, by simp, hlast _ (List.getLast?_eq_some_getLast hcs)⟩
        · exact ⟨d, by simp, hhead d rfl⟩
      obtain ⟨c, hc, halone⟩ := halone
      rw [eq_singleton_of_mem hk h hc halone] at hlength
      simp at hlength

theorem Longest.extend {cs ds lexeme rest : List Char} {kind : Kind}
    (h : Longest cs kind lexeme rest) (hapart : Apart cs ds) :
    Longest (cs ++ ds) kind lexeme (rest ++ ds) := by
  have hcs : cs ≠ [] := by
    rintro rfl
    exact admits_ne_nil h.known h.admits (List.append_eq_nil_iff.1 h.append).1
  refine ⟨h.known, h.admits, by rw [← List.append_assoc, h.append], ?_⟩
  intro kind' lexeme' rest' hk' h' happ
  obtain ⟨left, hleft⟩ := exists_rest_of_apart hcs hapart hk' h' happ
  exact h.longest kind' lexeme' left hk' h' hleft

theorem Unmatched.extend {c : Char} {cs ds : List Char} (h : Unmatched (c :: cs))
    (hapart : Apart (c :: cs) ds) : Unmatched (c :: (cs ++ ds)) := by
  intro kind lexeme rest hk hadmits happ
  obtain ⟨left, hleft⟩ := exists_rest_of_apart (List.cons_ne_nil c cs) hapart hk hadmits happ
  exact h kind lexeme left hk hadmits hleft

/-- **The tokens of two texts that are apart** are those of the first and then those of the
second. -/
theorem Lexes.append {start : Nat} {cs ds : List Char} {ts us : List Token}
    (h : Lexes start cs ts) (h' : Lexes (start + Text.byteLength cs) ds us) (hapart : Apart cs ds) :
    Lexes start (cs ++ ds) (ts ++ us) := by
  induction h with
  | done => exact h'
  | @skip start c cs ts hsep _ ih =>
    rw [Text.byteLength, ← Nat.add_assoc] at h'
    exact .skip hsep (ih h' (Apart.of_append [c] hapart))
  | @take start cs lexeme rest kind ts hmax _ ih =>
    have happ := hmax.append
    rw [← happ, Text.byteLength_append, ← Nat.add_assoc] at h'
    have hrest : Apart rest ds := Apart.of_append lexeme (by rwa [happ])
    exact .take (hmax.extend hapart) (ih h' hrest)
  | @stray start c cs ts hsep hnone _ ih =>
    rw [Text.byteLength, ← Nat.add_assoc] at h'
    exact .stray hsep (hnone.extend hapart) (ih h' (Apart.of_append [c] hapart))

/-! ## Cutting between tokens -/

/-- What is longest in a text is longest in a shorter one that still holds it. -/
theorem Longest.cut {cs ds lexeme left rest : List Char} {kind : Kind}
    (h : Longest (cs ++ ds) kind lexeme rest) (hleft : lexeme ++ left = cs) :
    Longest cs kind lexeme left := by
  refine ⟨h.known, h.admits, hleft, fun kind' lexeme' rest' hk' h' happ => ?_⟩
  exact h.longest kind' lexeme' (rest' ++ ds) hk' h' (by rw [← List.append_assoc, happ])

theorem Unmatched.cut (cs : List Char) {ds : List Char} (h : Unmatched (cs ++ ds)) :
    Unmatched cs := by
  intro kind lexeme rest hk hadmits happ
  exact h kind lexeme (rest ++ ds) hk hadmits (by rw [← List.append_assoc, happ])

/-- The first of two texts ends where a token of both together ends, or after it. -/
theorem exists_left_of_le {cs ds lexeme rest : List Char} (happ : lexeme ++ rest = cs ++ ds)
    (hle : Text.byteLength lexeme ≤ Text.byteLength cs) :
    ∃ left, lexeme ++ left = cs ∧ rest = left ++ ds := by
  rcases List.append_eq_append_iff.1 happ with ⟨left, rfl, rfl⟩ | ⟨extra, rfl, rfl⟩
  · exact ⟨left, rfl, rfl⟩
  · rw [Text.byteLength_append] at hle
    obtain rfl : extra = [] := Text.byteLength_eq_zero_iff.1 (by omega)
    exact ⟨[], by simp, by simp⟩

/-- The position lies between tokens, or at an end: none of the tokens lies across it. -/
def IsBoundary (ts : List Token) (n : Nat) : Prop := ∀ t ∈ ts, t.span.stop ≤ n ∨ n ≤ t.span.start

/-- Tokens end where their text does at the latest. -/
theorem Lexes.stop_le {start : Nat} {cs : List Char} {ts : List Token} (h : Lexes start cs ts) :
    ∀ t ∈ ts, t.span.stop ≤ start + Text.byteLength cs := by
  induction h with
  | done => simp
  | skip _ _ ih =>
    rw [Text.byteLength, ← Nat.add_assoc]
    exact ih
  | take hmax _ ih =>
    rw [← hmax.append, Text.byteLength_append, ← Nat.add_assoc]
    exact List.forall_mem_cons.2 ⟨Nat.le_add_right _ _, ih⟩
  | stray _ _ _ ih =>
    rw [Text.byteLength, ← Nat.add_assoc]
    exact List.forall_mem_cons.2 ⟨Nat.le_add_right _ _, ih⟩

/-- **At a boundary between tokens** a text can be cut in two, each with its own tokens. -/
theorem Lexes.cut {start : Nat} {cs ds : List Char} {ts : List Token}
    (h : Lexes start (cs ++ ds) ts) (hseam : IsBoundary ts (start + Text.byteLength cs)) :
    ∃ us vs, ts = us ++ vs ∧ Lexes start cs us ∧ Lexes (start + Text.byteLength cs) ds vs := by
  generalize hall : cs ++ ds = all at h
  induction h generalizing cs with
  | done =>
    obtain ⟨rfl, rfl⟩ := List.append_eq_nil_iff.1 hall
    exact ⟨[], [], rfl, .done, .done⟩
  | @skip start c rest ts hsep htail ih =>
    cases cs with
    | nil =>
      subst hall
      exact ⟨[], ts, rfl, .done, .skip hsep htail⟩
    | cons d cs =>
      rw [List.cons_append, List.cons.injEq] at hall
      obtain ⟨rfl, rfl⟩ := hall
      rw [Text.byteLength, ← Nat.add_assoc] at hseam ⊢
      obtain ⟨us, vs, rfl, hus, hvs⟩ := ih hseam rfl
      exact ⟨us, vs, rfl, .skip hsep hus, hvs⟩
  | @take start all lexeme rest kind ts hmax htail ih =>
    cases hcs : cs with
    | nil =>
      rw [hcs, List.nil_append] at hall
      subst hall
      exact ⟨[], _, rfl, .done, .take hmax htail⟩
    | cons d cs' =>
      have hpos : Text.byteLength cs ≠ 0 := by
        rw [Ne, Text.byteLength_eq_zero_iff, hcs]
        exact List.cons_ne_nil d cs'
      obtain ⟨hfirst, hothers⟩ := List.forall_mem_cons.1 hseam
      have hle : Text.byteLength lexeme ≤ Text.byteLength cs := by
        simp only [Token.span] at hfirst
        omega
      subst hall
      obtain ⟨left, hleft, rfl⟩ := exists_left_of_le hmax.append hle
      have hlength : start + Text.byteLength cs =
          start + Text.byteLength lexeme + Text.byteLength left := by
        rw [← hleft, Text.byteLength_append, Nat.add_assoc]
      rw [hlength] at hothers
      obtain ⟨us, vs, rfl, hus, hvs⟩ := ih hothers rfl
      rw [← hcs, hlength]
      exact ⟨_ :: us, vs, rfl, .take (hmax.cut hleft) hus, hvs⟩
  | @stray start c rest ts hsep hnone htail ih =>
    cases cs with
    | nil =>
      subst hall
      exact ⟨[], _, rfl, .done, .stray hsep hnone htail⟩
    | cons d cs =>
      rw [List.cons_append, List.cons.injEq] at hall
      obtain ⟨rfl, rfl⟩ := hall
      rw [Text.byteLength, ← Nat.add_assoc] at hseam ⊢
      obtain ⟨us, vs, rfl, hus, hvs⟩ := ih (List.forall_mem_cons.1 hseam).2 rfl
      exact ⟨_ :: us, vs, rfl, .stray hsep (Unmatched.cut (d :: cs) hnone) hus, hvs⟩

/-- **A text can be cut before a token and after it**, and what is left has the tokens up to
there. -/
theorem Lexes.split_token {start : Nat} {cs : List Char} {before after : List Token} {t : Token}
    (h : Lexes start cs (before ++ t :: after)) :
    ∃ front back, cs = front ++ (t.lexeme ++ back) ∧ t.start = start + Text.byteLength front ∧
      Lexes start front before ∧ Lexes start (front ++ t.lexeme) (before ++ [t]) := by
  generalize hall : before ++ t :: after = all at h
  induction h generalizing before with
  | done => simp at hall
  | @skip start c rest ts hsep _ ih =>
    obtain ⟨front, back, rfl, hstart, hbefore, hboth⟩ := ih hall
    refine ⟨c :: front, back, rfl, ?_, .skip hsep hbefore, .skip hsep hboth⟩
    rw [hstart, Text.byteLength, Nat.add_assoc]
  | @take start cs lexeme rest kind ts hmax _ ih =>
    cases before with
    | nil =>
      rw [List.nil_append, List.cons.injEq] at hall
      obtain ⟨rfl, -⟩ := hall
      refine ⟨[], rest, hmax.append.symm, rfl, .done, ?_⟩
      have happ : lexeme ++ [] = lexeme := List.append_nil lexeme
      rw [← hmax.append] at hmax
      exact .take (hmax.cut happ) .done
    | cons u before =>
      rw [List.cons_append, List.cons.injEq] at hall
      obtain ⟨rfl, hall⟩ := hall
      obtain ⟨front, back, rfl, hstart, hbefore, hboth⟩ := ih hall
      have happ : cs = lexeme ++ front ++ (t.lexeme ++ back) := by
        rw [List.append_assoc, hmax.append]
      have happ' : cs = lexeme ++ (front ++ t.lexeme) ++ back := by
        rw [happ]
        simp only [List.append_assoc]
      refine ⟨lexeme ++ front, back, happ, ?_, ?_, ?_⟩
      · rw [hstart, Text.byteLength_append, Nat.add_assoc]
      · rw [happ] at hmax
        exact .take (hmax.cut rfl) hbefore
      · rw [List.append_assoc]
        rw [happ'] at hmax
        exact .take (hmax.cut rfl) hboth
  | @stray start c rest ts hsep hnone _ ih =>
    cases before with
    | nil =>
      rw [List.nil_append, List.cons.injEq] at hall
      obtain ⟨rfl, -⟩ := hall
      exact ⟨[], rest, rfl, rfl, .done, .stray hsep (Unmatched.cut [c] hnone) .done⟩
    | cons u before =>
      rw [List.cons_append, List.cons.injEq] at hall
      obtain ⟨rfl, hall⟩ := hall
      obtain ⟨front, back, rfl, hstart, hbefore, hboth⟩ := ih hall
      refine ⟨c :: front, back, rfl, ?_, ?_, ?_⟩
      · rw [hstart, Text.byteLength, Nat.add_assoc]
      · exact .stray hsep (Unmatched.cut (c :: front) hnone) hbefore
      · rw [List.cons_append]
        have hwhole : Unmatched (c :: (front ++ t.lexeme) ++ back) := by
          rwa [List.cons_append, List.append_assoc]
        exact .stray hsep (Unmatched.cut _ hwhole) hboth

/-! ## Moving a text -/

/-- The token, so many bytes further on. -/
def Token.shift (n : Nat) (t : Token) : Token := { t with start := t.start + n }

/-- **A text has the same tokens wherever it starts.** -/
theorem Lexes.shift {start : Nat} {cs : List Char} {ts : List Token} (h : Lexes start cs ts)
    (n : Nat) : Lexes (start + n) cs (ts.map (Token.shift n)) := by
  induction h with
  | done => exact .done
  | @skip start c _ _ hsep _ ih =>
    rw [Nat.add_right_comm] at ih
    exact .skip hsep ih
  | take hmax _ ih =>
    rw [Nat.add_right_comm] at ih
    exact .take hmax ih
  | stray hsep hnone _ ih =>
    rw [Nat.add_right_comm] at ih
    exact .stray hsep hnone ih

theorem Token.shift_zero (t : Token) : t.shift 0 = t := rfl

/-- Separators in front of a text only move its tokens. -/
theorem Lexes.skip_all {seps : List Char} (hseps : ∀ c ∈ seps, isSeparator c = true) {start : Nat}
    {cs : List Char} {ts : List Token} (h : Lexes (start + Text.byteLength seps) cs ts) :
    Lexes start (seps ++ cs) ts := by
  induction seps generalizing start with
  | nil => exact h
  | cons c seps ih =>
    obtain ⟨hc, hseps⟩ := List.forall_mem_cons.1 hseps
    rw [Text.byteLength, ← Nat.add_assoc] at h
    exact .skip hc (ih hseps h)

/-- **Separators at a boundary between tokens** only move the tokens after it. -/
theorem Lexes.insert {start : Nat} {front seps back : List Char} {ts : List Token}
    (h : Lexes start (front ++ back) ts) (hseam : IsBoundary ts (start + Text.byteLength front))
    (hseps : ∀ c ∈ seps, isSeparator c = true) :
    ∃ us vs, ts = us ++ vs ∧ Lexes start (front ++ (seps ++ back))
      (us ++ vs.map (Token.shift (Text.byteLength seps))) := by
  obtain ⟨us, vs, rfl, hfront, hback⟩ := h.cut hseam
  refine ⟨us, vs, rfl, ?_⟩
  cases seps with
  | nil =>
    -- nothing keeps the two texts apart, but neither has anything changed
    rw [List.nil_append, Text.byteLength, funext Token.shift_zero, List.map_id']
    exact h
  | cons c seps =>
    have halone := standsAlone_of_isSeparator (hseps c List.mem_cons_self)
    exact hfront.append (.skip_all hseps (hback.shift _)) (apart_of_head halone)

end Dicebag
