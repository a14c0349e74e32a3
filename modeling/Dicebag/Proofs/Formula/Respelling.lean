import Mathlib.Data.List.Forall2
import Dicebag.Proofs.Formula.RoundTrip
import Dicebag.Proofs.Formula.Walk
import Dicebag.Proofs.Token.Letters
import Dicebag.Proofs.Token.Seam

/-!
# Spelling does not matter

Separators may stand between any two tokens and at both ends of a text, and letters may be capitals
or small.  Neither changes what a text is read as, or why it is refused: `parse_respelled` says that
of every text, whether it is a formula or not.

Both come from one fact about walks.  Two tokens are alike (`Token.Alike`) if they are of one kind
and give the same numbers, whatever is the case with their excerpts.  Walks over tokens that are
alike take the same steps (`Walk.Goes.alike`, `Walk.Stops.alike`), so they read the same terms or
stop with the same error, about excerpts that are related in the way in which those of the tokens
are (`Walk.run_alike`).

* Separators move the tokens after them, and a token that is moved is alike (`alike_shift`); its
  excerpt still says the same.
* In small letters a text has the same tokens at the same places, and a token in small letters is
  alike (`alike_of_small_eq`); the two excerpts say the same but for the case of letters.
-/

set_option autoImplicit false

namespace Dicebag

/-! ## Outcomes that are alike -/

/-- Two errors are of one kind and give the same numbers and expectations, and their places are
related. -/
inductive ParseError.Alike (P : Excerpt → Excerpt → Prop) : ParseError → ParseError → Prop
  | unexpected {x y : Excerpt} (h : P x y) (expected : List String) :
      Alike P (.unexpected x expected) (.unexpected y expected)
  | constantTooLarge {x y : Excerpt} (h : P x y) :
      Alike P (.constantTooLarge x) (.constantTooLarge y)
  | noDice : Alike P .noDice .noDice
  | countOutOfRange {x y : Excerpt} (h : P x y) (count : Nat) :
      Alike P (.countOutOfRange x count) (.countOutOfRange y count)
  | sidesOutOfRange {x y : Excerpt} (h : P x y) (sides : Nat) :
      Alike P (.sidesOutOfRange x sides) (.sidesOutOfRange y sides)
  | secondConstant {x y : Excerpt} (h : P x y) : Alike P (.secondConstant x) (.secondConstant y)
  | keepOutOfRange {x y : Excerpt} (h : P x y) (amount count : Nat) :
      Alike P (.keepOutOfRange x amount count) (.keepOutOfRange y amount count)

/-- Two texts were read as the same formula, or refused with errors that are alike. -/
inductive SameOutcome (P : Excerpt → Excerpt → Prop) :
    Except ParseError Written → Except ParseError Written → Prop
  | read {w w' : Written} (h : w.toFormula = w'.toFormula) : SameOutcome P (.ok w) (.ok w')
  | refused {e e' : ParseError} (h : e.Alike P e') : SameOutcome P (.error e) (.error e')

variable {P : Excerpt → Excerpt → Prop}

/-- Two readings have the same terms, wherever these stand, or errors that are alike. -/
inductive Reading.Alike (P : Excerpt → Excerpt → Prop) : Reading → Reading → Prop
  | read {terms terms' : List Term} (h : terms.map Term.piece = terms'.map Term.piece) :
      Alike P ⟨terms, none⟩ ⟨terms', none⟩
  | refused {terms terms' : List Term} {e e' : ParseError} (h : e.Alike P e') :
      Alike P ⟨terms, some e⟩ ⟨terms', some e'⟩

theorem groups_congr {r r' : Reading} (h : r.terms.map Term.piece = r'.terms.map Term.piece) :
    r.groups = r'.groups := by
  rw [Reading.groups, Reading.groups, ← filterMap_group?_piece, h, filterMap_group?_piece]

theorem constant_congr {r r' : Reading} (h : r.terms.map Term.piece = r'.terms.map Term.piece) :
    r.constant = r'.constant := by
  rw [Reading.constant, Reading.constant, ← List.head?_filterMap, ← List.head?_filterMap,
    ← filterMap_constant?_piece, h, filterMap_constant?_piece]

theorem Reading.Alike.sameOutcome {text text' : String}
    (h : (Reading.ofText text).Alike P (Reading.ofText text')) :
    SameOutcome P (parse text) (parse text') := by
  rw [parse, parse]
  generalize Reading.ofText text = r at h
  generalize Reading.ofText text' = r' at h
  cases h with
  | @read terms terms' h =>
    have hgroups : (⟨terms, none⟩ : Reading).groups = (⟨terms', none⟩ : Reading).groups :=
      groups_congr h
    have hconstant : (⟨terms, none⟩ : Reading).constant = (⟨terms', none⟩ : Reading).constant :=
      constant_congr h
    simp only [Reading.formula, hgroups, hconstant]
    split
    · exact .refused .noDice
    · exact .read rfl
  | refused h => exact .refused h

/-! ## Walks that are alike -/

/-- Two tokens are of one kind and give the same numbers, and their excerpts are related. -/
structure Token.Alike (P : Excerpt → Excerpt → Prop) (t t' : Token) : Prop where
  /-- The tokens are of one kind. -/
  kind : t'.kind = t.kind
  /-- As dice they are the same. -/
  dice : t.kind = .dice → t'.count = t.count ∧ t'.sides = t.sides
  /-- As keep suffixes they keep the same. -/
  keep : t.kind.keepMode?.isSome = true → t'.keepAmount = t.keepAmount
  /-- As integers they have the same value. -/
  integer : t.kind = .integer → t'.value = t.value
  /-- Their excerpts are related. -/
  excerpt : P t.excerpt t'.excerpt

/-- Two stages are the same, wherever their dice stand. -/
inductive Stage.Alike : Stage → Stage → Prop
  | opening (sign : Sign) : Alike (.opening sign) (.opening sign)
  | group (group : Group) (span span' : Span) : Alike (.group group span) (.group group span')
  | closed : Alike .closed .closed

theorem Stage.Alike.eq_opening {stage : Stage} {sign : Sign}
    (h : (Stage.opening sign).Alike stage) : stage = .opening sign := by
  cases h
  rfl

theorem Stage.Alike.exists_group {stage : Stage} {group : Group} {span : Span}
    (h : (Stage.group group span).Alike stage) : ∃ span', stage = .group group span' := by
  cases h
  exact ⟨_, rfl⟩

theorem Stage.Alike.exists_group_left {stage : Stage} {group : Group} {span : Span}
    (h : stage.Alike (.group group span)) : ∃ span', stage = .group group span' := by
  cases h
  exact ⟨_, rfl⟩

theorem Stage.Alike.ended {stage stage' : Stage} (h : stage.Alike stage') (hended : stage.Ended) :
    stage'.Ended := by
  cases h with
  | opening => exact hended
  | group => trivial
  | closed => trivial

/-- Two walks are the same, wherever their terms stand. -/
structure Walk.Alike (w w' : Walk) : Prop where
  /-- They have read the same terms. -/
  terms : w'.terms.map Term.piece = w.terms.map Term.piece
  /-- They are at the same stage. -/
  stage : w.stage.Alike w'.stage

namespace Walk

variable {w w' v : Walk} {t t' : Token} {e : ParseError}

theorem taken_eq_any_piece (w : Walk) :
    w.taken = (w.terms.map Term.piece).any fun p => p.constant?.isSome := by
  rw [taken, List.any_map]
  congr 1
  funext term
  cases term <;> rfl

theorem Alike.taken_eq (h : w.Alike w') : w'.taken = w.taken := by
  rw [taken_eq_any_piece, h.terms, ← taken_eq_any_piece]

theorem Alike.accepted (h : w.Alike w') (ht : t.Alike P t') :
    (w'.accepted t').map Term.piece = (w.accepted t).map Term.piece := by
  obtain ⟨terms, stage⟩ := w
  obtain ⟨terms', stage'⟩ := w'
  obtain ⟨hterms, hstage⟩ := h
  cases hstage with
  | opening => exact hterms
  | group group span span' =>
    rw [Walk.accepted, Walk.accepted, ht.kind]
    cases t.kind.keepMode? with
    | none => simp [hterms, Term.piece]
    | some mode => exact hterms
  | closed => exact hterms

/-- **A token that is alike takes a walk that is alike to where it takes the other.** -/
theorem Goes.alike (hgoes : w.Goes t v) (hw : w.Alike w') (ht : t.Alike P t') :
    ∃ v', w'.Goes t' v' ∧ v.Alike v' := by
  have hstages := hw.stage
  cases hgoes with
  | dice hstage hkind hcount hsides =>
    rw [hstage] at hstages
    obtain ⟨hcount', hsides'⟩ := ht.dice hkind
    rw [← hcount'] at hcount
    rw [← hsides'] at hsides
    refine ⟨_, .dice hstages.eq_opening (ht.kind.trans hkind) hcount hsides, hw.terms, ?_⟩
    rw [hcount', hsides']
    exact .group _ _ _
  | constant hstage hkind htaken hvalue =>
    rw [hstage] at hstages
    have hvalue' := ht.integer hkind
    rw [← hvalue'] at hvalue
    refine ⟨_, .constant hstages.eq_opening (ht.kind.trans hkind) (hw.taken_eq.trans htaken) hvalue,
      ?_, .closed⟩
    simp [hw.terms, Term.piece, hvalue']
  | keep hstage hmode hrange =>
    rw [hstage] at hstages
    obtain ⟨span', hstage'⟩ := hstages.exists_group
    have hamount := ht.keep (by rw [hmode, Option.isSome_some])
    rw [← hamount] at hrange
    rw [← ht.kind] at hmode
    refine ⟨_, .keep hstage' hmode hrange, ?_, .closed⟩
    simp [hw.terms, Term.piece, hamount]
  | sign hstage hsign =>
    rw [← ht.kind] at hsign
    exact ⟨_, .sign (hstages.ended hstage) hsign, hw.accepted ht, .opening _⟩

/-- **A token that is alike stops a walk that is alike**, for the same reason. -/
theorem Stops.alike (hstops : w.Stops t e) (hw : w.Alike w') (ht : t.Alike P t') :
    ∃ e', w'.Stops t' e' ∧ e.Alike P e' := by
  have hstages := hw.stage
  cases hstops with
  | term hstage hdice hinteger =>
    rw [hstage] at hstages
    rw [← ht.kind] at hdice hinteger
    exact ⟨_, .term hstages.eq_opening hdice hinteger, .unexpected ht.excerpt _⟩
  | count hstage hkind hcount =>
    rw [hstage] at hstages
    rw [← (ht.dice hkind).1] at hcount ⊢
    exact ⟨_, .count hstages.eq_opening (ht.kind.trans hkind) hcount,
      .countOutOfRange ht.excerpt _⟩
  | sides hstage hkind hcount hsides =>
    rw [hstage] at hstages
    rw [← (ht.dice hkind).1] at hcount
    rw [← (ht.dice hkind).2] at hsides ⊢
    exact ⟨_, .sides hstages.eq_opening (ht.kind.trans hkind) hcount hsides,
      .sidesOutOfRange ht.excerpt _⟩
  | second hstage hkind htaken =>
    rw [hstage] at hstages
    exact ⟨_, .second hstages.eq_opening (ht.kind.trans hkind) (hw.taken_eq.trans htaken),
      .secondConstant ht.excerpt⟩
  | large hstage hkind htaken hvalue =>
    rw [hstage] at hstages
    rw [← ht.integer hkind] at hvalue
    exact ⟨_, .large hstages.eq_opening (ht.kind.trans hkind) (hw.taken_eq.trans htaken) hvalue,
      .constantTooLarge ht.excerpt⟩
  | keep hstage hmode hrange =>
    rw [hstage] at hstages
    obtain ⟨span', hstage'⟩ := hstages.exists_group
    rw [← ht.keep (by rw [hmode, Option.isSome_some])] at hrange ⊢
    rw [← ht.kind] at hmode
    exact ⟨_, .keep hstage' hmode hrange, .keepOutOfRange ht.excerpt _ _⟩
  | sign hstage hkeep hsign =>
    refine ⟨_, .sign (hstages.ended hstage) (fun group span hgroup => ?_) (ht.kind ▸ hsign),
      .unexpected ht.excerpt _⟩
    rw [hgroup] at hstages
    obtain ⟨span', hgroup'⟩ := hstages.exists_group_left
    rw [ht.kind, hkeep group span' hgroup']

/-- **Walks over tokens that are alike read what is alike.** -/
theorem run_alike {stop stop' : Nat} {ts ts' : List Token} (hw : w.Alike w')
    (hts : List.Forall₂ (Token.Alike P) ts ts') (hstop : P (.emptyAt stop) (.emptyAt stop')) :
    (w.run stop ts).Alike P (w'.run stop' ts') := by
  induction hts generalizing w w' with
  | nil =>
    obtain ⟨terms, stage⟩ := w
    obtain ⟨terms', stage'⟩ := w'
    obtain ⟨hterms, hstage⟩ := hw
    cases hstage with
    | opening => exact .refused (.unexpected hstop _)
    | group => exact .read (by simp [hterms, Term.piece])
    | closed => exact .read hterms.symm
  | @cons t t' ts ts' ht _ ih =>
    rcases w.goes_or_stops t with ⟨v, hgoes⟩ | ⟨e, hstops⟩
    · obtain ⟨v', hgoes', hv⟩ := hgoes.alike hw ht
      rw [run_of_ok hgoes.step_eq, run_of_ok hgoes'.step_eq]
      exact ih hv
    · obtain ⟨e', hstops', he⟩ := hstops.alike hw ht
      rw [run_of_error hstops.step_eq, run_of_error hstops'.step_eq]
      exact .refused he

end Walk

/-- **Texts with tokens that are alike have the same outcome.** -/
theorem sameOutcome_of_tokens {text text' : String} {ts ts' : List Token}
    (hblank : Text.trim text = "" ↔ Text.trim text' = "") (hlexes : Lexes 0 text.toList ts)
    (hlexes' : Lexes 0 text'.toList ts') (hts : List.Forall₂ (Token.Alike P) ts ts')
    (hstart : P (.emptyAt 0) (.emptyAt 0))
    (hstop : P (.emptyAt text.utf8ByteSize) (.emptyAt text'.utf8ByteSize)) :
    SameOutcome P (parse text) (parse text') := by
  apply Reading.Alike.sameOutcome
  by_cases h : Text.trim text = ""
  · rw [Reading.ofText, if_pos h, Reading.ofText, if_pos (hblank.1 h)]
    exact .refused (.unexpected hstart _)
  · rw [ofText_of_lexes h hlexes, ofText_of_lexes (mt hblank.2 h) hlexes', Walk.readTerms_eq_run,
      Walk.readTerms_eq_run]
    exact Walk.run_alike ⟨rfl, .opening .plus⟩ hts hstop

/-! ## Separators -/

/-- Two excerpts say the same, wherever that is. -/
def SameSlice (x y : Excerpt) : Prop := x.slice = y.slice

/-- A token that is moved says the same. -/
theorem alike_shift (n : Nat) (t : Token) : t.Alike SameSlice (t.shift n) :=
  ⟨rfl, fun _ => ⟨rfl, rfl⟩, fun _ => rfl, fun _ => rfl, rfl⟩

theorem isBlank_of_isSeparator {c : Char} (h : isSeparator c = true) : Text.isBlank c = true := by
  rcases isSeparator_iff.1 h with rfl | rfl | rfl | rfl <;> decide

/-- Separators leave a blank text blank, and any other text as it is. -/
theorem trim_eq_empty_insert_iff {front back seps : String}
    (hseps : ∀ c ∈ seps.toList, isSeparator c = true) :
    Text.trim (front ++ back) = "" ↔ Text.trim (front ++ seps ++ back) = "" := by
  have hblank : ∀ c ∈ seps.toList, Text.isBlank c = true := fun c hc =>
    isBlank_of_isSeparator (hseps c hc)
  simp only [Text.trim_eq_empty_iff, String.toList_append, List.forall_mem_append]
  rw [and_iff_left hblank]

/-- Both ends of a text are boundaries. -/
theorem isBoundary_of_end {front back : String} (hend : front = "" ∨ back = "") :
    IsBoundary (tokens (front ++ back)) front.utf8ByteSize := by
  intro t ht
  rcases hend with rfl | rfl
  · exact .inr (Nat.zero_le _)
  · rw [String.append_empty] at ht
    have hle := (lexes_tokensFrom 0 front.toList).stop_le t ht
    rw [Nat.zero_add, ← Text.utf8ByteSize_eq] at hle
    exact .inl hle

/-- **Separators at a boundary between tokens do not matter.** -/
theorem sameOutcome_insert {front back seps : String}
    (hseam : IsBoundary (tokens (front ++ back)) front.utf8ByteSize)
    (hseps : ∀ c ∈ seps.toList, isSeparator c = true) :
    SameOutcome SameSlice (parse (front ++ back)) (parse (front ++ seps ++ back)) := by
  have hlexes := lexes_tokensFrom 0 (front ++ back).toList
  have htext : (front ++ seps ++ back).toList = front.toList ++ (seps.toList ++ back.toList) := by
    rw [String.toList_append, String.toList_append, List.append_assoc]
  rw [Text.utf8ByteSize_eq, ← Nat.zero_add (Text.byteLength _), tokens] at hseam
  rw [String.toList_append] at hseam hlexes
  obtain ⟨us, vs, hsplit, hlexes'⟩ := hlexes.insert hseam hseps
  rw [← htext] at hlexes'
  rw [hsplit, ← String.toList_append] at hlexes
  refine sameOutcome_of_tokens (trim_eq_empty_insert_iff hseps) hlexes hlexes' ?_ rfl rfl
  refine List.rel_append (List.forall₂_same.2 fun t _ => alike_shift 0 t) ?_
  exact List.forall₂_map_right_iff.2 (List.forall₂_same.2 fun t _ => alike_shift _ t)

/-! ## Letters -/

/-- Two excerpts are of one place and say the same but for the case of letters. -/
def SameLetters (x y : Excerpt) : Prop := x.span = y.span ∧ x.slice.toLower = y.slice.toLower

theorem toList_toLower (text : String) : text.toLower.toList = lower text.toList :=
  String.toList_map

theorem toLower_ofList (cs : List Char) :
    (String.ofList cs).toLower = String.ofList (lower cs) := by
  rw [← String.toList_inj, toList_toLower, String.toList_ofList, String.toList_ofList]

theorem proper_small {t : Token} : t.small.Proper ↔ t.Proper := admits_lower

/-- A token in small letters gives the numbers that the token gives. -/
theorem dice_small {t : Token} (h : t.Proper) (hkind : t.kind = .dice) :
    t.small.count = t.count ∧ t.small.sides = t.sides := by
  obtain ⟨count, sides, hdice⟩ := exists_writesDice_of_proper h hkind
  have hsmall : WritesDice t.small.lexeme count sides := writesDice_lower hdice
  rw [count_of_writesDice hdice, sides_of_writesDice hdice, count_of_writesDice hsmall,
    sides_of_writesDice hsmall]
  exact ⟨rfl, rfl⟩

theorem keepAmount_small {t : Token} (h : t.Proper) {mode : KeepMode}
    (hmode : t.kind.keepMode? = some mode) : t.small.keepAmount = t.keepAmount := by
  obtain ⟨amount, hkeep⟩ := exists_writesKeep (isKeep_of_proper h hmode)
  have hsmall : WritesKeep mode t.small.lexeme amount := writesKeep_lower hkeep
  rw [keepAmount_of_writesKeep hkeep, keepAmount_of_writesKeep hsmall]

theorem value_small {t : Token} (h : t.Proper) (hkind : t.kind = .integer) :
    t.small.value = t.value := by
  rw [Token.Proper, hkind] at h
  rw [Token.value, Token.value, Token.small, lower_of_isDigit h.2]

/-- Tokens that are the same in small letters are alike. -/
theorem alike_of_small_eq {t t' : Token} (h : t.small = t'.small) (hproper : t.Proper) :
    t.Alike SameLetters t' := by
  have hkind : t.small.kind = t'.small.kind := congrArg Token.kind h
  have hlexeme : lower t.lexeme = lower t'.lexeme := congrArg Token.lexeme h
  have hstart : t.small.start = t'.small.start := congrArg Token.start h
  have hproper' : t'.Proper := proper_small.1 (h ▸ proper_small.2 hproper)
  refine ⟨hkind.symm, fun hdice => ?_, fun hkeep => ?_, fun hinteger => ?_, ?_, ?_⟩
  · obtain ⟨hcount, hsides⟩ := dice_small hproper hdice
    obtain ⟨hcount', hsides'⟩ := dice_small hproper' (hkind.symm.trans hdice)
    rw [← hcount, ← hsides, ← hcount', ← hsides', h]
    exact ⟨rfl, rfl⟩
  · obtain ⟨mode, hmode⟩ := Option.isSome_iff_exists.1 hkeep
    have hmode' : t'.kind.keepMode? = some mode := (congrArg _ hkind.symm).trans hmode
    rw [← keepAmount_small hproper hmode, ← keepAmount_small hproper' hmode', h]
  · rw [← value_small hproper hinteger, ← value_small hproper' (hkind.symm.trans hinteger), h]
  · show (⟨t.start, t.start + Text.byteLength t.lexeme⟩ : Span) = ⟨t'.start, _⟩
    rw [← byteLength_lower t.lexeme, ← byteLength_lower t'.lexeme, hlexeme]
    exact congrArg (fun n => (⟨n, n + _⟩ : Span)) hstart
  · rw [Token.excerpt, Token.excerpt, toLower_ofList, toLower_ofList, hlexeme]

/-- **The case of letters does not matter.** -/
theorem sameOutcome_of_toLower_eq {text text' : String} (h : text.toLower = text'.toLower) :
    SameOutcome SameLetters (parse text) (parse text') := by
  have hlexes := lexes_tokensFrom 0 text.toList
  have hlexes' := lexes_tokensFrom 0 text'.toList
  have hletters : lower text.toList = lower text'.toList := by
    rw [← toList_toLower, h, toList_toLower]
  have hblank : ∀ {text : String},
      Text.trim text = "" ↔ ∀ c ∈ lower text.toList, Text.isBlank c = true := by
    intro text
    simp [Text.trim_eq_empty_iff, lower, isBlank_toLower]
  have hstop : text.utf8ByteSize = text'.utf8ByteSize := by
    rw [Text.utf8ByteSize_eq, Text.utf8ByteSize_eq, ← byteLength_lower, hletters, byteLength_lower]
  have hsmall : (tokensFrom 0 text.toList).map Token.small =
      (tokensFrom 0 text'.toList).map Token.small :=
    (lexes_lower hlexes).unique (hletters ▸ lexes_lower hlexes')
  have hsame : List.Forall₂ (· = ·) ((tokensFrom 0 text.toList).map Token.small)
      ((tokensFrom 0 text'.toList).map Token.small) := by
    rw [hsmall]
    exact List.forall₂_same.2 fun _ _ => rfl
  have hts : List.Forall₂ (fun t t' => t.Proper ∧ t.small = t'.small) (tokensFrom 0 text.toList)
      (tokensFrom 0 text'.toList) :=
    (List.forall₂_and_left ..).2
      ⟨hlexes.proper, List.forall₂_map_right_iff.1 (List.forall₂_map_left_iff.1 hsame)⟩
  refine sameOutcome_of_tokens (by rw [hblank, hblank, hletters]) hlexes hlexes'
    (hts.imp fun t t' ht => alike_of_small_eq ht.2 ht.1) ⟨rfl, rfl⟩ ⟨?_, rfl⟩
  rw [hstop]

/-- **Spelling does not matter.**  A text has the same outcome with separators put in between its
tokens or at one of its ends, and with letters of the other case. -/
theorem parse_respelled :
    (∀ front back seps : String,
      IsBoundary (tokens (front ++ back)) front.utf8ByteSize ∨ front = "" ∨ back = "" →
      (∀ c ∈ seps.toList, isSeparator c = true) →
      SameOutcome SameSlice (parse (front ++ back)) (parse (front ++ seps ++ back))) ∧
    ∀ text text' : String, text.toLower = text'.toLower →
      SameOutcome SameLetters (parse text) (parse text') := by
  constructor
  · intro front back seps hplace hseps
    exact sameOutcome_insert (hplace.elim id isBoundary_of_end) hseps
  · intro text text' hletters
    exact sameOutcome_of_toLower_eq hletters

/-- Blanks before a keep suffix, and capitals in front of a stray letter. -/
theorem parse_respelled_keep :
    IsBoundary (tokens ("2d6" ++ "kh3")) "2d6".utf8ByteSize ∧
      (∀ c ∈ " \t".toList, isSeparator c = true) ∧
      SameOutcome SameSlice (parse ("2d6" ++ "kh3")) (parse ("2d6" ++ " \t" ++ "kh3")) ∧
      "2D6KL1 X".toLower = "2d6Kl1 x".toLower ∧
      SameOutcome SameLetters (parse "2D6KL1 X") (parse "2d6Kl1 x") := by
  have htokens : tokens ("2d6" ++ "kh3") =
      [⟨.dice, ['2', 'd', '6'], 0⟩, ⟨.keepHighest, ['k', 'h', '3'], 3⟩] := by
    decide +kernel
  have hseam : IsBoundary (tokens ("2d6" ++ "kh3")) "2d6".utf8ByteSize := by
    intro t ht
    rw [htokens] at ht
    rcases List.mem_cons.1 ht with rfl | ht
    · exact .inl (by decide)
    · obtain rfl := List.mem_singleton.1 ht
      exact .inr (by decide)
  have hseps : ∀ c ∈ " \t".toList, isSeparator c = true := by
    simp [isSeparator]
  have hletters : "2D6KL1 X".toLower = "2d6Kl1 x".toLower := by
    rw [← String.toList_inj, toList_toLower, toList_toLower]
    decide
  obtain ⟨hinsert, hcase⟩ := parse_respelled
  exact ⟨hseam, hseps, hinsert _ _ _ (.inl hseam) hseps, hletters, hcase _ _ hletters⟩

end Dicebag
