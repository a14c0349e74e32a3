import Mathlib.Data.Bool.AllAny
import Dicebag.Proofs.Formula.ErrorPlace

/-!
# Positions of errors are true places

An error says where it is by two byte positions and what stands between them.
`parse_error_position` says that this is so: both positions lie between characters of the text, and
the excerpt is what the text has there.  There are three such places.

* A blank text is wrong at its start, where there is nothing.
* A text whose tokens are all good, but which must not end yet (`EndsEarly`), is wrong at its end.
* Any other text is wrong at one of its tokens.  Where no lexeme starts, that is one character with
  all of its bytes.

What comes before the place was accepted: it is made of tokens that break no rule and of separators
(`Accepted`).  All of these are ASCII (`Accepted.isAscii`), so that the position in bytes is also
the number of characters before it.
-/

set_option autoImplicit false

namespace Dicebag

/-! ## ASCII -/

/-- The character is one byte in UTF-8. -/
def IsAscii (c : Char) : Prop := c.toNat < 128

theorem IsLexical.isAscii {c : Char} (h : IsLexical c) : IsAscii c := by
  rcases h with hdigit | hletter
  · have hhigh : c.toNat ≤ 57 := (Char.isDigit_iff_toNat.1 hdigit).2
    rw [IsAscii]
    omega
  · have hall : ∀ d ∈ lexemeLetters, d.toNat < 128 := List.all_iff_forall_prop.1 (by decide)
    exact hall c hletter

theorem isAscii_of_isSeparator {c : Char} (h : isSeparator c = true) : IsAscii c := by
  rcases isSeparator_iff.1 h with rfl | rfl | rfl | rfl <;> (rw [IsAscii]; decide)

theorem IsAscii.utf8Size_eq {c : Char} (h : IsAscii c) : c.utf8Size = 1 :=
  Char.utf8Size_eq_one_iff.2 (UInt32.le_iff_toNat_le.2 (Nat.le_of_lt_succ h))

/-- In ASCII, bytes are characters. -/
theorem byteLength_of_isAscii {cs : List Char} (h : ∀ c ∈ cs, IsAscii c) :
    Text.byteLength cs = cs.length := by
  induction cs with
  | nil => rfl
  | cons c cs ih =>
    obtain ⟨hc, hcs⟩ := List.forall_mem_cons.1 h
    rw [Text.byteLength, hc.utf8Size_eq, ih hcs, List.length_cons, Nat.add_comm]

/-- A text without stray characters is ASCII. -/
theorem Lexes.isAscii {start : Nat} {cs : List Char} {ts : List Token} (h : Lexes start cs ts)
    (hknown : ∀ t ∈ ts, t.kind ≠ .unknown) : ∀ c ∈ cs, IsAscii c := by
  induction h with
  | done => simp
  | skip hsep _ ih => exact List.forall_mem_cons.2 ⟨isAscii_of_isSeparator hsep, ih hknown⟩
  | take hmax _ ih =>
    rw [← hmax.append, List.forall_mem_append]
    refine ⟨fun c hc => (isLexical_of_mem hmax.known hmax.admits hc).isAscii, ih ?_⟩
    exact (List.forall_mem_cons.1 hknown).2
  | stray => exact absurd rfl (hknown _ List.mem_cons_self)

/-! ## What was accepted -/

/-- The front of a text consists of the tokens `before`, which are all good, and of separators. -/
structure Accepted (front : String) (before : List Token) : Prop where
  /-- There is nothing else in it. -/
  lexes : Lexes 0 front.toList before
  /-- No character is a stray one. -/
  known : ∀ t ∈ before, t.kind ≠ .unknown
  /-- No token breaks a rule. -/
  clean : Clean before
  /-- Some formula starts like this. -/
  viable : Viable (kinds before)

theorem Walk.Goes.known {w w' : Walk} {t : Token} (h : w.Goes t w') : t.kind ≠ .unknown := by
  intro hkind
  cases h <;> simp_all [Kind.keepMode?, Kind.sign?]

theorem Reaches.known {ts : List Token} {w : Walk} (h : Reaches ts w) :
    ∀ t ∈ ts, t.kind ≠ .unknown := by
  induction h with
  | start => simp
  | snoc _ hgoes ih =>
    rw [List.forall_mem_append, List.forall_mem_singleton]
    exact ⟨ih, hgoes.known⟩

theorem Reaches.accepted {front : String} {before : List Token} {w : Walk} (h : Reaches before w)
    (hlexes : Lexes 0 front.toList before) : Accepted front before :=
  ⟨hlexes, h.known, h.clean, h.fits.viable⟩

namespace Accepted

variable {front : String} {before : List Token}

theorem isAscii (h : Accepted front before) : ∀ c ∈ front.toList, IsAscii c :=
  h.lexes.isAscii h.known

theorem utf8ByteSize_eq (h : Accepted front before) : front.utf8ByteSize = front.length := by
  rw [Text.utf8ByteSize_eq, byteLength_of_isAscii h.isAscii, String.length_toList]

end Accepted

/-! ## Excerpts of a text -/

/-- The excerpt is what the text has at its span, and `front` is what comes before that. -/
structure Excerpt.CutFrom (x : Excerpt) (text front : String) : Prop where
  /-- The excerpt comes after the front. -/
  split : ∃ back, text = front ++ x.slice ++ back
  /-- It starts where the front ends. -/
  start : front.utf8ByteSize = x.span.start
  /-- It stops where its text ends. -/
  stop : (front ++ x.slice).utf8ByteSize = x.span.stop
  /-- It stops after it starts, and within the text. -/
  inside : x.span.start ≤ x.span.stop ∧ x.span.stop ≤ text.utf8ByteSize
  /-- It has whole characters only. -/
  whole : String.Pos.Raw.IsValid text ⟨x.span.start⟩ ∧ String.Pos.Raw.IsValid text ⟨x.span.stop⟩
  /-- It is what is cut out at its span. -/
  cut : Excerpt.of x.span text = x

theorem slice?_append (front lexeme back : List Char) :
    Text.slice? (Text.byteLength front) (Text.byteLength (front ++ lexeme))
      (front ++ (lexeme ++ back)) = some lexeme := by
  have hfront : Text.splitBytes? (Text.byteLength front) (front ++ (lexeme ++ back)) =
      some (front, lexeme ++ back) := Text.splitBytes?_eq_some_iff.2 ⟨rfl, rfl⟩
  have hlexeme : Text.splitBytes? (Text.byteLength lexeme) (lexeme ++ back) =
      some (lexeme, back) := Text.splitBytes?_eq_some_iff.2 ⟨rfl, rfl⟩
  rw [Text.byteLength_append, Text.slice?, if_pos (Nat.le_add_right _ _), Nat.add_sub_cancel_left,
    hfront]
  simp [hlexeme]

theorem cutFrom_of_split {x : Excerpt} {text front : String} (back : String)
    (hsplit : text = front ++ x.slice ++ back) (hstart : front.utf8ByteSize = x.span.start)
    (hstop : (front ++ x.slice).utf8ByteSize = x.span.stop) : x.CutFrom text front where
  split := ⟨back, hsplit⟩
  start := hstart
  stop := hstop
  inside := by
    rw [← hstart, ← hstop, hsplit]
    simp only [String.utf8ByteSize_append]
    omega
  whole := by
    rw [String.Pos.Raw.isValid_iff_exists_append, String.Pos.Raw.isValid_iff_exists_append,
      ← hstart, ← hstop]
    exact ⟨⟨front, x.slice ++ back, by rw [hsplit, String.append_assoc], rfl⟩,
      ⟨front ++ x.slice, back, hsplit, rfl⟩⟩
  cut := by
    obtain ⟨⟨start, stop⟩, slice⟩ := x
    dsimp only at hsplit hstart hstop
    subst hstart hstop
    have htext : text.toList = front.toList ++ (slice.toList ++ back.toList) := by
      rw [hsplit, String.toList_append, String.toList_append, List.append_assoc]
    rw [Excerpt.of, htext, Text.utf8ByteSize_eq, Text.utf8ByteSize_eq, String.toList_append,
      slice?_append]
    simp

theorem cutFrom_emptyAt {text front back : String} (hsplit : text = front ++ back) :
    (Excerpt.emptyAt front.utf8ByteSize).CutFrom text front :=
  cutFrom_of_split back (by rw [hsplit]; simp [Excerpt.emptyAt]) rfl
    (by simp [Excerpt.emptyAt])

/-! ## Where an error can be -/

/-- The text ends where a term has to follow, and that is all that is wrong with it. -/
structure EndsEarly (text : String) : Prop where
  /-- None of the tokens breaks a rule. -/
  clean : Clean (tokens text)
  /-- They do not make up a formula. -/
  short : ¬IsSentence (kinds (tokens text))

/-- The excerpt is the token that comes after the tokens `before`, which take up `front`. -/
structure Excerpt.IsToken (x : Excerpt) (text front : String) (before : List Token) : Prop where
  /-- It is a token of the text. -/
  token : ∃ t after, tokens text = before ++ t :: after ∧ x = t.excerpt
  /-- It is not empty. -/
  nonempty : x.span.start < x.span.stop
  /-- Where no lexeme starts it is a single character. -/
  stray : ∀ c back, text = front ++ String.ofList (c :: back) → Unmatched (c :: back) →
    x.slice = String.singleton c ∧ x.span.stop = x.span.start + c.utf8Size

/-- The excerpt is a true place in the text, after the tokens `before`, which take up `front`. -/
structure Excerpt.TruePlace (x : Excerpt) (text front : String) (before : List Token) :
    Prop where
  /-- The excerpt is what the text has there. -/
  cut : x.CutFrom text front
  /-- What comes before it was accepted. -/
  accepted : Accepted front before
  /-- These are the first tokens of the text. -/
  first : before <+: tokens text
  /-- They and the separators between them are ASCII. -/
  isAscii : ∀ c ∈ front.toList, IsAscii c
  /-- The place is as many characters from the start as bytes. -/
  column : x.span.start = front.length
  /-- A blank text has its place at its start. -/
  blank : Text.trim text = "" → x = .emptyAt 0
  /-- A text that ends too early has its place at its end. -/
  ending : Text.trim text ≠ "" → EndsEarly text → x = .emptyAt text.utf8ByteSize
  /-- Any other text has its place at a token. -/
  token : Text.trim text ≠ "" → ¬EndsEarly text → x.IsToken text front before

/-- A token is not empty. -/
theorem Token.Proper.lexeme_ne_nil {t : Token} (h : t.Proper) : t.lexeme ≠ [] := by
  by_cases hk : t.kind = .unknown
  · rw [Token.Proper, hk] at h
    obtain ⟨c, hc⟩ := h
    rw [hc]
    exact List.cons_ne_nil c []
  · exact admits_ne_nil hk h

/-- A token that stands where no lexeme starts is the character there. -/
theorem Token.Proper.eq_singleton {t : Token} {c : Char} {rest back : List Char} (h : t.Proper)
    (happ : t.lexeme ++ rest = c :: back) (hnone : Unmatched (c :: back)) : t.lexeme = [c] := by
  have hk : t.kind = .unknown := by
    by_contra hk
    exact hnone _ _ _ hk h happ
  rw [Token.Proper, hk] at h
  obtain ⟨d, hd⟩ := h
  rw [hd, List.singleton_append, List.cons.injEq] at happ
  rw [hd, happ.1]

/-- The token that stops a walk is the place of the error. -/
theorem truePlace_of_stops {text : String} {before after : List Token} {t : Token} {w : Walk}
    {e : ParseError} (hblank : Text.trim text ≠ "") (htokens : tokens text = before ++ t :: after)
    (h : Reaches before w) (hstops : w.Stops t e) :
    ∃ front, t.excerpt.TruePlace text front before := by
  have hproper : ∀ u ∈ before ++ [t], u.Proper := fun u hu =>
    (lexes_tokensFrom 0 text.toList).proper u (by
      rw [← tokens, htokens, List.append_cons]
      exact List.mem_append_left _ hu)
  have ht : t.Proper := hproper t (by simp)
  obtain ⟨front, back, hsplit, hstart, hstop, hfront, -⟩ := exists_split_of_tokens htokens
  have haccepted := h.accepted hfront
  refine ⟨front, cutFrom_of_split back hsplit hstart hstop, haccepted, ⟨_, htokens.symm⟩,
    haccepted.isAscii, hstart.symm.trans haccepted.utf8ByteSize_eq, fun h => absurd h hblank,
    fun _ hearly => absurd (hstops.offends h hproper) (hearly.clean _ _ _ _ htokens),
    fun _ _ => ⟨⟨t, after, htokens, rfl⟩, ?_, fun c rest hrest hnone => ?_⟩⟩
  · have hpos : Text.byteLength t.lexeme ≠ 0 := mt Text.byteLength_eq_zero_iff.1 ht.lexeme_ne_nil
    show t.start < t.start + Text.byteLength t.lexeme
    omega
  · have happ : t.lexeme ++ back.toList = c :: rest := by
      rw [← List.append_right_inj front.toList, ← String.toList_ofList (l := c :: rest),
        ← String.toList_append, ← hrest, hsplit]
      simp [Token.excerpt]
    have hsingle := ht.eq_singleton happ hnone
    refine ⟨?_, ?_⟩
    · rw [Token.excerpt, hsingle, String.singleton_eq_ofList]
    · show t.start + Text.byteLength t.lexeme = t.start + c.utf8Size
      rw [hsingle]
      rfl

/-- The start of a blank text is the place of the error. -/
theorem truePlace_of_blank {text : String} (hblank : Text.trim text = "") :
    (Excerpt.emptyAt 0).TruePlace text "" [] where
  cut := cutFrom_emptyAt String.empty_append.symm
  accepted := Reaches.start.accepted .done
  first := List.nil_prefix
  isAscii := by simp
  column := rfl
  blank _ := rfl
  ending hne := absurd hblank hne
  token hne := absurd hblank hne

/-- The end of a text that ends where a term has to follow is the place of the error. -/
theorem truePlace_of_ending {text : String} {w : Walk} {sign : Sign}
    (hblank : Text.trim text ≠ "") (h : Reaches (tokens text) w)
    (hstage : w.stage = .opening sign) :
    (Excerpt.emptyAt text.utf8ByteSize).TruePlace text text (tokens text) := by
  have haccepted := h.accepted (lexes_tokensFrom 0 text.toList)
  have hearly : EndsEarly text := by
    refine ⟨h.clean, fun hsentence => ?_⟩
    have hopens := (hstage ▸ h.fits).opens
    rw [hsentence.not_opens] at hopens
    cases hopens
  exact
    { cut := cutFrom_emptyAt String.append_empty.symm
      accepted := haccepted
      first := List.prefix_refl _
      isAscii := haccepted.isAscii
      column := haccepted.utf8ByteSize_eq
      blank := fun hempty => absurd hempty hblank
      ending := fun _ _ => rfl
      token := fun _ hnot => absurd hearly hnot }

/-- **The position of an error is a true place in the text.** -/
theorem parse_error_position {text : String} {e : ParseError} {x : Excerpt}
    (h : parse text = .error e) (hx : e.place? = some x) :
    ∃ front before, x.TruePlace text front before := by
  have he : e ≠ .noDice := by
    rintro rfl
    cases hx
  cases halts_of_parse h he with
  | blank hblank =>
    cases hx
    exact ⟨"", [], truePlace_of_blank hblank⟩
  | @token before _ _ _ _ hblank htokens hw hstops =>
    rw [hstops.place?_eq, Option.some_inj] at hx
    subst hx
    obtain ⟨front, hplace⟩ := truePlace_of_stops hblank htokens hw hstops
    exact ⟨front, before, hplace⟩
  | ending hblank hw hstage =>
    cases hx
    exact ⟨text, tokens text, truePlace_of_ending hblank hw hstage⟩

/-- A character of two bytes, after tokens of five kinds. -/
theorem parse_error_position_letter :
    parse "3 + 2d6 kh1 - é1" = .error (.unexpected ⟨⟨14, 16⟩, "é"⟩ ["<dice>", "<integer>"]) ∧
      ∃ front before, (⟨⟨14, 16⟩, "é"⟩ : Excerpt).TruePlace "3 + 2d6 kh1 - é1" front before := by
  have hparse : parse "3 + 2d6 kh1 - é1" =
      .error (.unexpected ⟨⟨14, 16⟩, "é"⟩ ["<dice>", "<integer>"]) := by
    decide +kernel
  exact ⟨hparse, parse_error_position hparse rfl⟩

end Dicebag
