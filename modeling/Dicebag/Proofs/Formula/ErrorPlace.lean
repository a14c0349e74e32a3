import Mathlib.Data.Bool.AllAny
import Dicebag.Proofs.Formula.Violation
import Dicebag.Proofs.Token.Seam

/-!
# Where an error is

An error names an excerpt of the text, and that is where the text first goes wrong.  `GoesWrong`
says what this means in terms of other texts, and `parse_error_place` that it is so.

* What comes before the excerpt can be completed to a formula: where a term has to come next a d20
  does that, and elsewhere a plus sign and a d20 do (`exists_completion`).
* Where the error lists what it expects, a token of any such kind is no fault at that place
  (`start_ne_of_awaits`).
* With the excerpt in it nothing completes the text, and the error stays as it is whatever is added
  to the text.  The tokens up to the excerpt stay the same when the text is cut or continued after a
  space, and a walk over them has come to a halt (`goesWrong_of_stops`).

The last does not hold of an excerpt that is empty.  It stands at the end of a text that ends too
early, or at the start of a blank one, where nothing is wrong but that a term is missing
(`goesWrong_emptyAt`).
-/

set_option autoImplicit false

namespace Dicebag

/-! ## Texts and their tokens -/

/-- A text is refused for the first token that stops the walk over it. -/
theorem parse_of_stops {text : String} {before after : List Token} {t : Token} {w : Walk}
    {e : ParseError} (hblank : Text.trim text ≠ "")
    (hlexes : Lexes 0 text.toList (before ++ t :: after)) (h : Reaches before w)
    (hstops : w.Stops t e) : parse text = .error e := by
  rw [parse_eq_error_iff_formula, formula_eq_error_iff, ofText_of_lexes hblank hlexes,
    readTerms_of_stops h hstops]
  exact .inl rfl

/-- A text with dice is read if the walk over it ends after a term. -/
theorem exists_parse_of_reaches {text : String} {ts : List Token} {w : Walk}
    (hblank : Text.trim text ≠ "") (hlexes : Lexes 0 text.toList ts) (h : Reaches ts w)
    (hended : w.stage.Ended) (hdice : ∃ t ∈ ts, t.kind = .dice) : ∃ f, parse text = .ok f := by
  cases hparse : parse text with
  | ok f => exact ⟨f, rfl⟩
  | error e =>
    exfalso
    rw [parse_eq_error_iff_formula, formula_eq_error_iff, ofText_of_lexes hblank hlexes,
      readTerms_of_reaches h, h.groups_finish] at hparse
    rcases hparse with herror | ⟨-, -, hnone⟩
    · rcases w.error_finish h.fits text.utf8ByteSize with ⟨-, hgood⟩ | ⟨hbad, -⟩
      · rw [hgood] at herror
        cases herror
      · exact hbad (h.fits.isSentence hended)
    · obtain ⟨t, ht, hkind⟩ := hdice
      exact hnone t ht hkind

/-- Where a walk comes to the end of a text, so does every error that has a place. -/
theorem place_of_reaches {text : String} {ts : List Token} {w : Walk} {e : ParseError}
    {x : Excerpt} (hblank : Text.trim text ≠ "") (hlexes : Lexes 0 text.toList ts)
    (h : Reaches ts w) (hparse : parse text = .error e) (hx : e.place? = some x) :
    x = .emptyAt text.utf8ByteSize := by
  rw [parse_eq_error_iff_formula, formula_eq_error_iff, ofText_of_lexes hblank hlexes,
    readTerms_of_reaches h] at hparse
  rcases hparse with herror | ⟨rfl, -⟩
  · rcases w.error_finish h.fits text.utf8ByteSize with ⟨-, hnone⟩ | ⟨-, hsome⟩
    · rw [hnone] at herror
      cases herror
    · rw [hsome, Option.some_inj] at herror
      subst herror
      cases hx
      rfl
  · cases hx

/-! ## Where a walk halts -/

/-- Where reading a text comes to an error. -/
inductive Halts (text : String) : ParseError → Prop
  /-- There is nothing to read. -/
  | blank (h : Text.trim text = "") : Halts text (unexpected (.emptyAt 0) Kind.terms)
  /-- A token stops the walk. -/
  | token {before after : List Token} {t : Token} {w : Walk} {e : ParseError}
      (hblank : Text.trim text ≠ "") (htokens : tokens text = before ++ t :: after)
      (h : Reaches before w) (hstops : w.Stops t e) : Halts text e
  /-- The text ends where a term has to follow. -/
  | ending {w : Walk} {sign : Sign} (hblank : Text.trim text ≠ "") (h : Reaches (tokens text) w)
      (hstage : w.stage = .opening sign) :
      Halts text (unexpected (.emptyAt text.utf8ByteSize) Kind.terms)

theorem halts_of_parse {text : String} {e : ParseError} (h : parse text = .error e)
    (he : e ≠ .noDice) : Halts text e := by
  rw [parse_eq_error_iff_formula, formula_eq_error_iff, or_iff_left fun h => he h.1] at h
  by_cases hblank : Text.trim text = ""
  · rw [Reading.ofText, if_pos hblank, Option.some_inj] at h
    exact h ▸ .blank hblank
  · rw [ofText_of_lexes hblank (lexes_tokensFrom 0 text.toList)] at h
    rcases reaches_or_stops (tokens text) with
      ⟨w, hw⟩ | ⟨before, t, after, w, e', hsplit, hw, hstops⟩
    · rw [tokens] at hw
      rw [readTerms_of_reaches hw, Walk.finish] at h
      cases hstage : w.stage with
      | opening sign =>
        rw [hstage, Option.some_inj] at h
        exact h ▸ .ending hblank hw hstage
      | group group span =>
        rw [hstage] at h
        cases h
      | closed =>
        rw [hstage] at h
        cases h
    · rw [tokens] at hsplit
      rw [hsplit, readTerms_of_stops hw hstops, Option.some_inj] at h
      exact h ▸ .token hblank hsplit hw hstops

/-! ## Going on from a place -/

/-- A lexeme by itself is one token. -/
theorem lexes_lexeme {kind : Kind} (hk : kind ≠ .unknown) {lexeme : List Char}
    (h : kind.Admits lexeme) (start : Nat) : Lexes start lexeme [⟨kind, lexeme, start⟩] := by
  have hmax : Longest (lexeme ++ []) kind lexeme [] :=
    longest_of_noDigit hk h (fun _ => noDigit_nil) (by simp)
  rw [List.append_nil] at hmax
  exact .take hmax .done

theorem opens_of_cons {kind : Kind} {kinds : List Kind} (h : opens (kind :: kinds) = true) :
    opens kinds = true := by
  cases kinds with
  | nil => rfl
  | cons next kinds => rwa [opens, List.getLast?_cons_cons] at h

theorem mem_getLast?_append {c : Char} (cs ds : List Char) (h : c ∈ (cs ++ ds).getLast?) :
    c ∈ ds.getLast? ∨ (ds = [] ∧ c ∈ cs.getLast?) := by
  rw [Option.mem_def, List.getLast?_append, Option.or_eq_some_iff] at h
  exact h.imp id fun ⟨hnone, hlast⟩ => ⟨List.getLast?_eq_none_iff.1 hnone, hlast⟩

theorem standsAlone_of_sign {kind : Kind} {lexeme : List Char} (hkind : kind.sign?.isSome = true)
    (h : kind.Admits lexeme) : ∀ c ∈ lexeme.getLast?, standsAlone c = true := by
  intro c hc
  cases kind with
  | plus =>
    obtain rfl : lexeme = ['+'] := h
    cases hc
    rfl
  | minus =>
    obtain rfl : lexeme = ['-'] := h
    cases hc
    rfl
  | _ => cases hkind

/-- Where a term has to come next, a text ends in a separator or a sign. -/
theorem Lexes.standsAlone_last {start : Nat} {cs : List Char} {ts : List Token}
    (h : Lexes start cs ts) (hopens : opens (kinds ts) = true) :
    ∀ c ∈ cs.getLast?, standsAlone c = true := by
  induction h with
  | done =>
    intro c hc
    cases hc
  | @skip start c cs ts hsep _ ih =>
    intro d hd
    rcases mem_getLast?_append [c] cs hd with hlast | ⟨-, hlast⟩
    · exact ih hopens d hlast
    · cases hlast
      exact standsAlone_of_isSeparator hsep
  | @take start cs lexeme rest kind ts hmax h ih =>
    intro d hd
    rw [← hmax.append] at hd
    rcases mem_getLast?_append lexeme rest hd with hlast | ⟨rfl, hlast⟩
    · exact ih (opens_of_cons hopens) d hlast
    · obtain rfl : ts = [] := h.unique .done
      exact standsAlone_of_sign hopens hmax.admits d hlast
  | @stray start c cs ts _ _ h ih =>
    intro d hd
    rcases mem_getLast?_append [c] cs hd with hlast | ⟨rfl, -⟩
    · exact ih (opens_of_cons hopens) d hlast
    · obtain rfl : ts = [] := h.unique .done
      cases hopens

theorem isBlank_of_isLexical {c : Char} (h : IsLexical c) : Text.isBlank c = false := by
  rcases h with hdigit | hletter
  · exact isBlank_of_isDigit hdigit
  · have hall : ∀ d ∈ lexemeLetters, Text.isBlank d = false :=
      List.all_iff_forall_prop.1 (by decide)
    exact hall c hletter

/-- A text that ends in a lexeme is not blank. -/
theorem trim_append_ne_empty (front : String) {lexeme : String} {kind : Kind}
    (hk : kind ≠ .unknown) (h : kind.Admits lexeme.toList) : Text.trim (front ++ lexeme) ≠ "" := by
  obtain ⟨c, cs, hcs⟩ := List.exists_cons_of_ne_nil (admits_ne_nil hk h)
  have hmem : c ∈ lexeme.toList := hcs ▸ List.mem_cons_self
  refine Text.trim_ne_empty_of_mem (c := c) ?_ (isBlank_of_isLexical (isLexical_of_mem hk h hmem))
  rw [String.toList_append]
  exact List.mem_append_right _ hmem

/-- The text of a single d20. -/
def loneD20 : List Char := ['d', '2', '0']

theorem admits_loneD20 : Kind.dice.Admits loneD20 :=
  ⟨[], 'd', ['2', '0'], rfl, by simp, rfl, by simp, by simp⟩

theorem exists_goes_loneD20 {w : Walk} {sign : Sign} (hstage : w.stage = .opening sign)
    (start : Nat) : ∃ w', w.Goes ⟨.dice, loneD20, start⟩ w' ∧ w'.stage.Ended := by
  have hcount : Group.CountInRange 1 := by decide
  have hsides : Group.SidesInRange 20 := by decide
  exact ⟨_, .dice hstage rfl hcount hsides, trivial⟩

/-- Where a term has to come next, a d20 completes a text. -/
theorem exists_parse_loneD20 {front : String} {before : List Token} {w : Walk} {sign : Sign}
    (hlexes : Lexes 0 front.toList before) (h : Reaches before w)
    (hstage : w.stage = .opening sign) : ∃ f, parse (front ++ "d20") = .ok f := by
  obtain ⟨w', hgoes, hended⟩ := exists_goes_loneD20 hstage (0 + Text.byteLength front.toList)
  have hfits := h.fits
  rw [hstage] at hfits
  have hlexes' := hlexes.append (lexes_lexeme (by decide) admits_loneD20 _)
    (.inl (hlexes.standsAlone_last hfits.opens))
  have htext : (front ++ "d20").toList = front.toList ++ loneD20 := String.toList_append
  have hblank : Text.trim (front ++ "d20") ≠ "" :=
    trim_append_ne_empty front (by decide) admits_loneD20
  rw [← htext] at hlexes'
  exact exists_parse_of_reaches hblank hlexes' (.snoc h hgoes) hended
    ⟨_, List.mem_append_right _ (List.mem_singleton_self _), rfl⟩

/-- **A text that has been walked over can be completed.** -/
theorem exists_completion {front : String} {before : List Token} {w : Walk}
    (hlexes : Lexes 0 front.toList before) (h : Reaches before w) :
    ∃ f, parse (front ++ "d20") = .ok f ∨ parse (front ++ "+d20") = .ok f := by
  by_cases hended : w.stage.Ended
  · have hsign : Kind.plus.Admits ['+'] := rfl
    have hplus := hlexes.append (lexes_lexeme (by decide) hsign _) (apart_of_head rfl)
    have htext : (front ++ "+").toList = front.toList ++ ['+'] := String.toList_append
    rw [← htext] at hplus
    obtain ⟨f, hf⟩ := exists_parse_loneD20 hplus (.snoc h (.sign hended rfl)) rfl
    rw [String.append_assoc] at hf
    exact ⟨f, .inr hf⟩
  · cases hstage : w.stage with
    | opening sign =>
      obtain ⟨f, hf⟩ := exists_parse_loneD20 hlexes h hstage
      exact ⟨f, .inl hf⟩
    | group group span =>
      rw [hstage] at hended
      exact absurd trivial hended
    | closed =>
      rw [hstage] at hended
      exact absurd trivial hended

/-! ## What is expected -/

theorem toList_append_space (front more : String) :
    (front ++ " " ++ more).toList = front.toList ++ ' ' :: more.toList := by
  rw [String.append_assoc, String.toList_append, String.toList_append]
  rfl

/-- A space keeps what comes after it apart. -/
theorem apart_space (cs ds : List Char) : Apart cs (' ' :: ds) := apart_of_head rfl

/-- The kinds that have to come next at a stage: those that start a term, or the signs. -/
inductive Stage.Awaits : Stage → List Kind → Prop
  /-- A term has to follow. -/
  | term {sign : Sign} : Awaits (.opening sign) Kind.terms
  /-- A sign can follow. -/
  | sign {stage : Stage} (hended : stage.Ended) : Awaits stage Kind.signs

theorem label_injective {kind kind' : Kind} (h : kind.label = kind'.label) : kind = kind' := by
  cases kind <;> cases kind' <;> first | rfl | exact absurd h (by decide)

/-- A token of a kind that has to come next is no surprise. -/
theorem Stage.Awaits.not_unexpected {w : Walk} {ks : List Kind} {t : Token} {place : Excerpt}
    {labels : List String} (h : w.stage.Awaits ks) (hkind : t.kind ∈ ks) :
    ¬w.Stops t (.unexpected place labels) := by
  intro hstops
  generalize he : ParseError.unexpected place labels = e at hstops
  generalize hstage : w.stage = stage at h
  cases h with
  | term =>
    simp only [Kind.terms, List.mem_cons, List.not_mem_nil, or_false] at hkind
    cases hstops with
    | term _ hdice hinteger => exact hkind.elim hdice hinteger
    | sign hended _ _ =>
      rw [hstage] at hended
      cases hended
    | _ => cases he
  | sign hended =>
    simp only [Kind.signs, List.mem_cons, List.not_mem_nil, or_false] at hkind
    cases hstops with
    | term hopening _ _ =>
      rw [← hstage, hopening] at hended
      cases hended
    | sign _ _ hsign => rcases hkind with hkind | hkind <;> simp [hkind, Kind.sign?] at hsign
    | _ => cases he

theorem Stage.Awaits.known {stage : Stage} {ks : List Kind} {kind : Kind} (h : stage.Awaits ks)
    (hkind : kind ∈ ks) : kind ≠ .unknown := by
  rintro rfl
  cases h with
  | term => revert hkind; decide
  | sign _ => revert hkind; decide

/-- A token after a space is one token more. -/
theorem lexes_append_space {front lexeme : String} {before : List Token} {kind : Kind}
    (hlexes : Lexes 0 front.toList before) (hk : kind ≠ .unknown)
    (hadmits : kind.Admits lexeme.toList) :
    Lexes 0 (front ++ " " ++ lexeme).toList
      (before ++ [⟨kind, lexeme.toList, front.utf8ByteSize + 1⟩]) := by
  have hspace : 0 + Text.byteLength front.toList + ' '.utf8Size = front.utf8ByteSize + 1 := by
    rw [Nat.zero_add, Text.utf8ByteSize_eq]
    rfl
  have hlexes' := hlexes.append (.skip rfl (lexes_lexeme hk hadmits _)) (apart_space _ _)
  rwa [← toList_append_space, hspace] at hlexes'

/-- **A syntax error is about a token that was added** only if that token stops the walk. -/
theorem stops_of_start_eq {front lexeme : String} {before : List Token} {w : Walk} {kind : Kind}
    {place : Excerpt} {labels : List String} (hlexes : Lexes 0 front.toList before)
    (h : Reaches before w) (hk : kind ≠ .unknown) (hadmits : kind.Admits lexeme.toList)
    (hparse : parse (front ++ " " ++ lexeme) = .error (.unexpected place labels))
    (hstart : place.span.start = front.utf8ByteSize + 1) :
    w.Stops ⟨kind, lexeme.toList, front.utf8ByteSize + 1⟩ (.unexpected place labels) := by
  have hblank := trim_append_ne_empty (front ++ " ") hk hadmits
  have hlexes' := lexes_append_space hlexes hk hadmits
  rcases w.goes_or_stops ⟨kind, lexeme.toList, front.utf8ByteSize + 1⟩ with
    ⟨w', hgoes⟩ | ⟨e, hstops⟩
  · -- the walk comes to the end, so that the error is about the end
    exfalso
    have hlexeme : lexeme.utf8ByteSize ≠ 0 := by
      rw [Text.utf8ByteSize_eq, Ne, Text.byteLength_eq_zero_iff]
      exact admits_ne_nil hk hadmits
    have hspace : " ".utf8ByteSize = 1 := rfl
    have hend : (front ++ " " ++ lexeme).utf8ByteSize = front.utf8ByteSize + 1 := by
      rw [← hstart, place_of_reaches hblank hlexes' (.snoc h hgoes) hparse rfl]
      rfl
    rw [String.utf8ByteSize_append, String.utf8ByteSize_append] at hend
    omega
  · rw [parse_of_stops hblank hlexes' h hstops, Except.error.injEq] at hparse
    exact hparse ▸ hstops

/-- **Where a token comes that was expected**, a syntax error is not about that token. -/
theorem start_ne_of_awaits {front lexeme : String} {before : List Token} {w : Walk}
    {ks : List Kind} {kind : Kind} {place : Excerpt} {labels : List String}
    (hlexes : Lexes 0 front.toList before) (h : Reaches before w) (hawaits : w.stage.Awaits ks)
    (hlabel : kind.label ∈ ks.map Kind.label) (hadmits : kind.Admits lexeme.toList)
    (hparse : parse (front ++ " " ++ lexeme) = .error (.unexpected place labels)) :
    place.span.start ≠ front.utf8ByteSize + 1 := by
  obtain ⟨kind', hkind, hsame⟩ := List.mem_map.1 hlabel
  rw [label_injective hsame] at hkind
  intro hstart
  exact hawaits.not_unexpected hkind
    (stops_of_start_eq hlexes h (hawaits.known hkind) hadmits hparse hstart)

/-! ## Errors are where a text first goes wrong -/

/-- The text goes wrong at the excerpt `x`, which comes after `front`, and the error `e` is about
that. -/
structure GoesWrong (text front : String) (e : ParseError) (x : Excerpt) : Prop where
  /-- The excerpt is what comes after the front. -/
  split : ∃ back, text = front ++ x.slice ++ back
  /-- It starts where the front ends. -/
  start : front.utf8ByteSize = x.span.start
  /-- It stops where its text ends. -/
  stop : (front ++ x.slice).utf8ByteSize = x.span.stop
  /-- The front can be completed. -/
  viable : ∃ f, parse (front ++ "d20") = .ok f ∨ parse (front ++ "+d20") = .ok f
  /-- A token of a kind that is expected there is not what a syntax error is about. -/
  expected : ∀ labels, e = .unexpected x labels → ∀ (kind : Kind) (lexeme : String),
    kind.label ∈ labels → kind.Admits lexeme.toList → ∀ place labels',
    parse (front ++ " " ++ lexeme) = .error (.unexpected place labels') →
    place.span.start ≠ x.span.start + 1
  /-- Unless the excerpt is empty, nothing completes the front with it. -/
  lost : x.span.start ≠ x.span.stop → ∀ more, ∃ e',
    parse (front ++ x.slice ++ " " ++ more) = .error e'
  /-- Unless the excerpt is empty, nothing that is added to the text changes the error. -/
  stable : x.span.start ≠ x.span.stop → ∀ more, parse (text ++ " " ++ more) = .error e

theorem Walk.Stops.place?_eq {w : Walk} {t : Token} {e : ParseError} (h : w.Stops t e) :
    e.place? = some t.excerpt := by
  cases h <;> rfl

/-- A syntax error lists the kinds that have to come next. -/
theorem Walk.Stops.exists_awaits {w : Walk} {t : Token} {place : Excerpt} {labels : List String}
    (h : w.Stops t (.unexpected place labels)) :
    ∃ ks, labels = ks.map Kind.label ∧ w.stage.Awaits ks := by
  generalize he : ParseError.unexpected place labels = e at h
  cases h with
  | term hstage _ _ =>
    cases he
    exact ⟨_, rfl, hstage ▸ .term⟩
  | sign hended _ _ =>
    cases he
    exact ⟨_, rfl, .sign hended⟩
  | _ => cases he

theorem parse_of_blank {text : String} (hblank : Text.trim text = "") :
    parse text = .error (unexpected (.emptyAt 0) Kind.terms) := by
  rw [parse_eq_error_iff_formula, formula_eq_error_iff, Reading.ofText, if_pos hblank]
  exact .inl rfl

/-- A text that ends too early goes wrong at its end. -/
theorem goesWrong_emptyAt {text front back : String} {before : List Token} {w : Walk} {sign : Sign}
    (hsplit : text = front ++ back) (hlexes : Lexes 0 front.toList before) (h : Reaches before w)
    (hstage : w.stage = .opening sign) :
    GoesWrong text front (unexpected (.emptyAt front.utf8ByteSize) Kind.terms)
      (.emptyAt front.utf8ByteSize) where
  split := ⟨back, by rw [hsplit]; simp [Excerpt.emptyAt]⟩
  start := rfl
  stop := by simp [Excerpt.emptyAt]
  viable := exists_completion hlexes h
  expected := by
    rintro labels he kind lexeme hlabel hadmits place labels' hparse
    cases he
    exact start_ne_of_awaits hlexes h (hstage ▸ .term) hlabel hadmits hparse
  lost hspan := absurd rfl hspan
  stable hspan := absurd rfl hspan

theorem Token.toList_append_slice (front : List Char) (t : Token) :
    (String.ofList front ++ t.excerpt.slice).toList = front ++ t.lexeme := by
  simp [Token.excerpt]

/-- A text is what comes before a token, the token and the rest, and the token's positions are the
sizes of what ends there. -/
theorem Token.split_of_toList {t : Token} {text : String} {front back : List Char}
    (htext : text.toList = front ++ (t.lexeme ++ back)) (hstart : t.start = Text.byteLength front) :
    text = String.ofList front ++ t.excerpt.slice ++ String.ofList back ∧
      (String.ofList front).utf8ByteSize = t.span.start ∧
      (String.ofList front ++ t.excerpt.slice).utf8ByteSize = t.span.stop := by
  refine ⟨?_, ?_, ?_⟩
  · rw [← String.toList_inj, String.toList_append, t.toList_append_slice, htext]
    simp
  · rw [Text.utf8ByteSize_eq, String.toList_ofList, ← hstart]
    rfl
  · rw [Text.utf8ByteSize_eq, t.toList_append_slice, Text.byteLength_append, ← hstart]
    rfl

/-- A text can be cut at each of its tokens. -/
theorem exists_split_of_tokens {text : String} {before after : List Token} {t : Token}
    (htokens : tokens text = before ++ t :: after) :
    ∃ front back, text = front ++ t.excerpt.slice ++ back ∧ front.utf8ByteSize = t.span.start ∧
      (front ++ t.excerpt.slice).utf8ByteSize = t.span.stop ∧ Lexes 0 front.toList before ∧
      Lexes 0 (front ++ t.excerpt.slice).toList (before ++ [t]) := by
  have hlexes := lexes_tokensFrom 0 text.toList
  rw [tokens] at htokens
  rw [htokens] at hlexes
  obtain ⟨front, back, htext, hstart, hfront, hboth⟩ := hlexes.split_token
  rw [Nat.zero_add] at hstart
  obtain ⟨hsplit, hfrontSize, hstop⟩ := Token.split_of_toList htext hstart
  refine ⟨String.ofList front, String.ofList back, hsplit, hfrontSize, hstop, ?_, ?_⟩
  · rwa [String.toList_ofList]
  · rwa [t.toList_append_slice]

/-- A text that a token stops goes wrong at this token. -/
theorem goesWrong_of_stops {text : String} {before after : List Token} {t : Token} {w : Walk}
    {e : ParseError} (hblank : Text.trim text ≠ "") (htokens : tokens text = before ++ t :: after)
    (h : Reaches before w) (hstops : w.Stops t e) : ∃ front, GoesWrong text front e t.excerpt := by
  have hlexes : Lexes 0 text.toList (before ++ t :: after) :=
    htokens ▸ lexes_tokensFrom 0 text.toList
  obtain ⟨front, back, hsplit, hstart, hstop, hfront, hboth⟩ := exists_split_of_tokens htokens
  refine ⟨front, ⟨⟨back, hsplit⟩, hstart, hstop, exists_completion hfront h, ?_, fun _ more => ?_,
    fun _ more => ?_⟩⟩
  · rintro labels rfl kind lexeme hlabel hadmits place labels' hparse
    obtain ⟨ks, rfl, hawaits⟩ := hstops.exists_awaits
    have hne := start_ne_of_awaits hfront h hawaits hlabel hadmits hparse
    rwa [hstart] at hne
  · by_cases hblank' : Text.trim (front ++ t.excerpt.slice ++ " " ++ more) = ""
    · exact ⟨_, parse_of_blank hblank'⟩
    · have hlexes' := hboth.append (.skip rfl (lexes_tokensFrom _ more.toList)) (apart_space _ _)
      rw [← toList_append_space, List.append_assoc] at hlexes'
      exact ⟨e, parse_of_stops hblank' hlexes' h hstops⟩
  · have hlexes' := hlexes.append (.skip rfl (lexes_tokensFrom _ more.toList)) (apart_space _ _)
    rw [← toList_append_space, List.append_assoc] at hlexes'
    refine parse_of_stops (fun hempty => hblank ?_) hlexes' h hstops
    rw [Text.trim_eq_empty_iff] at hempty ⊢
    intro c hc
    exact hempty c (by rw [toList_append_space]; exact List.mem_append_left _ hc)

/-- **An error is where the text first goes wrong.**  What comes before it can be completed, and
what the error expects there would do; with it the text is lost, and the error stays the same
whatever comes afterwards. -/
theorem parse_error_place {text : String} {e : ParseError} {x : Excerpt}
    (h : parse text = .error e) (hx : e.place? = some x) : ∃ front, GoesWrong text front e x := by
  have he : e ≠ .noDice := by
    rintro rfl
    cases hx
  cases halts_of_parse h he with
  | blank hblank =>
    cases hx
    exact ⟨"", goesWrong_emptyAt String.empty_append.symm .done .start rfl⟩
  | token hblank htokens hw hstops =>
    rw [hstops.place?_eq, Option.some_inj] at hx
    subst hx
    exact goesWrong_of_stops hblank htokens hw hstops
  | ending hblank hw hstage =>
    cases hx
    have hlexes := lexes_tokensFrom 0 text.toList
    exact ⟨text, goesWrong_emptyAt String.append_empty.symm hlexes hw hstage⟩

/-- A character of two bytes, after which there are other faults. -/
theorem parse_error_place_letter :
    parse "2d6 + é 1d1" = .error (.unexpected ⟨⟨6, 8⟩, "é"⟩ ["<dice>", "<integer>"]) ∧
      ∃ front, GoesWrong "2d6 + é 1d1" front
        (.unexpected ⟨⟨6, 8⟩, "é"⟩ ["<dice>", "<integer>"]) ⟨⟨6, 8⟩, "é"⟩ := by
  have hparse : parse "2d6 + é 1d1" =
      .error (.unexpected ⟨⟨6, 8⟩, "é"⟩ ["<dice>", "<integer>"]) := by
    decide +kernel
  exact ⟨hparse, parse_error_place hparse rfl⟩

end Dicebag
