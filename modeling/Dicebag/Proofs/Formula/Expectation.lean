import Dicebag.Proofs.Formula.Position

/-!
# What a syntax error expects

A syntax error lists kinds of token that would have done.  `expected_complete_iff` compares this
list with what the reading of a text takes at that place: the text up to there, a space and a token
of some kind are refused for this token (`IsSurprise`) or they are not.

Which kinds are taken depends on the stage of the walk alone (`Stage.Takes`), and not on the number
that a token writes.  The lists are fixed, one for the start of a term and one for what comes after
a term (`Stage.Awaits`).  They name all kinds that are taken but for one case: behind dice a keep
suffix is taken as well as a sign, and the list has the signs only.  So the list is complete exactly
where what comes before the error does not end in dice.
-/

set_option autoImplicit false

namespace Dicebag

/-- The text `front` with the token `lexeme` after a space is a syntax error about this token. -/
def IsSurprise (front lexeme : String) : Prop :=
  ∃ place labels, parse (front ++ " " ++ lexeme) = .error (.unexpected place labels) ∧
    place.span.start = front.utf8ByteSize + 1

/-- The last token of the text is dice. -/
def EndsInDice (front : String) : Prop := (kinds (tokens front)).getLast? = some .dice

/-- The labels are those of all kinds of token that are no surprise after `front`, as the samples of
the kinds show. -/
def ListsAll (front : String) (labels : List String) (sample : Kind → String) : Prop :=
  ∀ kind : Kind, kind ≠ .unknown → ¬IsSurprise front (sample kind) → kind.label ∈ labels

/-- A short lexeme of each kind. -/
def Kind.sample : Kind → String
  | dice => "d20"
  | integer => "1"
  | keepHighest => "kh1"
  | keepLowest => "kl1"
  | plus => "+"
  | minus => "-"
  | unknown => "?"

/-! ## What a walk takes -/

/-- The kinds of token that a walk takes at a stage, if their numbers are in range. -/
def Stage.Takes : Stage → Kind → Prop
  | opening _, kind => kind ∈ Kind.terms
  | group .., kind => kind.keepMode?.isSome = true ∨ kind ∈ Kind.signs
  | closed, kind => kind ∈ Kind.signs

theorem mem_terms_iff {kind : Kind} : kind ∈ Kind.terms ↔ kind = .dice ∨ kind = .integer := by
  simp [Kind.terms]

theorem mem_signs_iff {kind : Kind} : kind ∈ Kind.signs ↔ kind.sign?.isSome = true := by
  cases kind <;> decide

/-- **A token is unexpected exactly where its kind is not taken.** -/
theorem Walk.stops_unexpected_iff {w : Walk} {t : Token} :
    (∃ place labels, w.Stops t (.unexpected place labels)) ↔ ¬w.stage.Takes t.kind := by
  constructor
  · rintro ⟨place, labels, hstops⟩ htakes
    generalize he : ParseError.unexpected place labels = e at hstops
    cases hstops with
    | term hstage hdice hinteger =>
      rw [hstage] at htakes
      exact (mem_terms_iff.1 htakes).elim hdice hinteger
    | sign hended hkeep hsign =>
      have hnot : t.kind ∉ Kind.signs := by rw [mem_signs_iff, hsign]; decide
      cases hstage : w.stage with
      | opening sign => simp [hstage, Stage.Ended] at hended
      | group group span =>
        rw [hstage] at htakes
        rcases htakes with hsome | hmem
        · simp [hkeep group span hstage] at hsome
        · exact hnot hmem
      | closed =>
        rw [hstage] at htakes
        exact hnot htakes
    | _ => cases he
  · intro hnot
    cases hstage : w.stage with
    | opening sign =>
      rw [hstage] at hnot
      rw [Stage.Takes, mem_terms_iff, not_or] at hnot
      exact ⟨_, _, .term hstage hnot.1 hnot.2⟩
    | group group span =>
      rw [hstage] at hnot
      rw [Stage.Takes, mem_signs_iff, not_or, Bool.not_eq_true, Option.isSome_eq_false_iff,
        Option.isNone_iff_eq_none, Bool.not_eq_true, Option.isSome_eq_false_iff,
        Option.isNone_iff_eq_none] at hnot
      exact ⟨_, _, .sign (by rw [hstage]; trivial) (fun _ _ _ => hnot.1) hnot.2⟩
    | closed =>
      rw [hstage] at hnot
      rw [Stage.Takes, mem_signs_iff, Bool.not_eq_true, Option.isSome_eq_false_iff,
        Option.isNone_iff_eq_none] at hnot
      refine ⟨_, _, .sign (by rw [hstage]; trivial) (fun group span heq => ?_) hnot⟩
      rw [hstage] at heq
      cases heq

theorem Walk.Stops.place_eq {w : Walk} {t : Token} {place : Excerpt} {labels : List String}
    (h : w.Stops t (.unexpected place labels)) : place = t.excerpt := Option.some.inj h.place?_eq

/-- **What is a surprise depends on the stage and on the kind.** -/
theorem isSurprise_iff {front lexeme : String} {before : List Token} {w : Walk} {kind : Kind}
    (hlexes : Lexes 0 front.toList before) (h : Reaches before w) (hk : kind ≠ .unknown)
    (hadmits : kind.Admits lexeme.toList) : IsSurprise front lexeme ↔ ¬w.stage.Takes kind := by
  have hstops_iff : _ ↔ ¬w.stage.Takes kind :=
    Walk.stops_unexpected_iff (t := ⟨kind, lexeme.toList, front.utf8ByteSize + 1⟩)
  rw [← hstops_iff]
  constructor
  · rintro ⟨place, labels, hparse, hstart⟩
    exact ⟨place, labels, stops_of_start_eq hlexes h hk hadmits hparse hstart⟩
  · rintro ⟨place, labels, hstops⟩
    have hparse := parse_of_stops (trim_append_ne_empty _ hk hadmits)
      (lexes_append_space hlexes hk hadmits) h hstops
    exact ⟨place, labels, hparse, by rw [hstops.place_eq]; rfl⟩

/-! ## What is listed -/

theorem label_mem_iff {kind : Kind} {ks : List Kind} :
    kind.label ∈ ks.map Kind.label ↔ kind ∈ ks := by
  constructor
  · intro h
    obtain ⟨kind', hkind, hsame⟩ := List.mem_map.1 h
    exact label_injective hsame ▸ hkind
  · exact List.mem_map_of_mem

/-- A walk is at a group exactly where the tokens before it end in dice. -/
theorem Stage.Fits.last_dice_iff {before : List Token} {stage : Stage} (h : stage.Fits before) :
    (kinds before).getLast? = some .dice ↔ ∃ group span, stage = .group group span := by
  cases h with
  | opening _ hopens =>
    refine iff_of_false (fun hlast => ?_) (by simp)
    rw [Dicebag.opens, hlast] at hopens
    cases hopens
  | group _ hkind _ _ =>
    refine iff_of_true ?_ ⟨_, _, rfl⟩
    rw [kinds_concat, List.getLast?_concat, hkind]
  | closed _ hlast => exact iff_of_false hlast (by simp)

/-- **All that is taken is awaited**, but for a keep suffix behind dice. -/
theorem Stage.Awaits.takes_iff {stage : Stage} {ks : List Kind} {kind : Kind}
    (h : stage.Awaits ks) :
    stage.Takes kind ↔
      kind ∈ ks ∨ (kind.keepMode?.isSome = true ∧ ∃ group span, stage = .group group span) := by
  cases h with
  | term => simp [Stage.Takes]
  | sign hended =>
    cases stage with
    | opening sign => cases hended
    | group group span => simp [Stage.Takes, or_comm]
    | closed => simp [Stage.Takes]

/-- A keep suffix is never awaited. -/
theorem Stage.Awaits.not_keep {stage : Stage} {ks : List Kind} {kind : Kind}
    (h : stage.Awaits ks) (hkind : kind ∈ ks) : kind.keepMode?.isSome ≠ true := by
  cases h with
  | term => rcases mem_terms_iff.1 hkind with rfl | rfl <;> decide
  | sign _ =>
    have hall : ∀ kind ∈ Kind.signs, kind.keepMode?.isSome ≠ true := by decide
    exact hall kind hkind

/-- A syntax error comes where a walk is that awaits what the error lists. -/
theorem exists_awaits_of_parse {text : String} {x : Excerpt} {labels : List String}
    (h : parse text = .error (.unexpected x labels)) :
    ∃ front before w ks, x.CutFrom text front ∧ Lexes 0 front.toList before ∧ Reaches before w ∧
      w.stage.Awaits ks ∧ labels = ks.map Kind.label := by
  generalize he : ParseError.unexpected x labels = e at h
  cases halts_of_parse h (by rw [← he]; simp) with
  | blank hblank =>
    cases he
    exact ⟨"", [], .start, _, cutFrom_emptyAt String.empty_append.symm, .done, .start, .term, rfl⟩
  | @token before after t w _ hblank htokens hw hstops =>
    subst he
    obtain ⟨front, htrue⟩ := truePlace_of_stops hblank htokens hw hstops
    obtain ⟨ks, hlabels, hawaits⟩ := hstops.exists_awaits
    rw [← hstops.place_eq] at htrue
    exact ⟨front, before, w, ks, htrue.cut, htrue.accepted.lexes, hw, hawaits, hlabels⟩
  | @ending w sign _ hw hstage =>
    cases he
    exact ⟨text, tokens text, w, _, cutFrom_emptyAt String.append_empty.symm,
      lexes_tokensFrom 0 text.toList, hw, hstage ▸ .term, rfl⟩

/-- **When the list of a syntax error is complete.**  A token after the front of the text is no
surprise exactly if its kind is listed, or if it is a keep suffix behind dice.  So the list is
complete unless the front ends in dice. -/
theorem expected_complete_iff {text : String} {x : Excerpt} {labels : List String}
    (h : parse text = .error (.unexpected x labels)) :
    ∃ front, x.CutFrom text front ∧
      (∀ (kind : Kind) (lexeme : String), kind ≠ .unknown → kind.Admits lexeme.toList →
        (¬IsSurprise front lexeme ↔
          kind.label ∈ labels ∨ (kind.keepMode?.isSome = true ∧ EndsInDice front))) ∧
      ∀ sample : Kind → String,
        (∀ kind : Kind, kind ≠ .unknown → kind.Admits (sample kind).toList) →
        (ListsAll front labels sample ↔ ¬EndsInDice front) := by
  obtain ⟨front, before, w, ks, hcut, hlexes, hw, hawaits, rfl⟩ := exists_awaits_of_parse h
  have hdice : EndsInDice front ↔ ∃ group span, w.stage = .group group span := by
    rw [EndsInDice, tokens, ← lexes_iff.1 hlexes]
    exact hw.fits.last_dice_iff
  have htaken : ∀ (kind : Kind) (lexeme : String), kind ≠ .unknown → kind.Admits lexeme.toList →
      (¬IsSurprise front lexeme ↔ kind.label ∈ ks.map Kind.label ∨
        (kind.keepMode?.isSome = true ∧ EndsInDice front)) := by
    intro kind lexeme hk hadmits
    rw [isSurprise_iff hlexes hw hk hadmits, not_not, hawaits.takes_iff, label_mem_iff, hdice]
  refine ⟨front, hcut, htaken, fun sample hsample => ⟨fun hall hends => ?_, fun hnot => ?_⟩⟩
  · -- behind dice a keep suffix is no surprise, but it is not listed
    have hknown : Kind.keepHighest ≠ .unknown := by decide
    have hlisted := hall .keepHighest hknown
      ((htaken _ _ hknown (hsample _ hknown)).2 (.inr ⟨rfl, hends⟩))
    exact hawaits.not_keep (label_mem_iff.1 hlisted) rfl
  · intro kind hk hno
    refine ((htaken kind _ hk (hsample kind hk)).1 hno).resolve_right fun hkeep => hnot hkeep.2

/-- Behind a keep suffix the signs are all that is taken. -/
theorem expected_complete_iff_kept :
    parse "2d6 kh1 x" = .error (.unexpected ⟨⟨8, 9⟩, "x"⟩ ["'+'", "'-'"]) ∧
      ∃ front, (⟨⟨8, 9⟩, "x"⟩ : Excerpt).CutFrom "2d6 kh1 x" front ∧
        (∀ (kind : Kind) (lexeme : String), kind ≠ .unknown → kind.Admits lexeme.toList →
          (¬IsSurprise front lexeme ↔
            kind.label ∈ ["'+'", "'-'"] ∨ (kind.keepMode?.isSome = true ∧ EndsInDice front))) ∧
        ∀ sample : Kind → String,
          (∀ kind : Kind, kind ≠ .unknown → kind.Admits (sample kind).toList) →
          (ListsAll front ["'+'", "'-'"] sample ↔ ¬EndsInDice front) := by
  have hparse : parse "2d6 kh1 x" = .error (.unexpected ⟨⟨8, 9⟩, "x"⟩ ["'+'", "'-'"]) := by
    decide +kernel
  exact ⟨hparse, expected_complete_iff hparse⟩

/-- Behind dice, `kh1` is taken and is not listed. -/
theorem not_listsAll_behind_dice :
    parse "1d20 x" = .error (.unexpected ⟨⟨5, 6⟩, "x"⟩ ["'+'", "'-'"]) ∧
      (⟨⟨5, 6⟩, "x"⟩ : Excerpt).CutFrom "1d20 x" "1d20 " ∧
      ¬ListsAll "1d20 " ["'+'", "'-'"] Kind.sample := by
  have hparse : parse "1d20 x" = .error (.unexpected ⟨⟨5, 6⟩, "x"⟩ ["'+'", "'-'"]) := by
    decide +kernel
  have hkeep : ∃ w, parse "1d20  kh1" = .ok w :=
    ⟨⟨⟨[⟨.plus, 1, 20, some ⟨.highest, 1⟩⟩], 0, by decide⟩, "1d20  kh1"⟩, by decide +kernel⟩
  have hno : ¬IsSurprise "1d20 " "kh1" := by
    rintro ⟨place, labels, hbad, -⟩
    obtain ⟨w, hw⟩ := hkeep
    have htext : "1d20 " ++ " " ++ "kh1" = "1d20  kh1" := rfl
    rw [htext, hw] at hbad
    cases hbad
  refine ⟨hparse, cutFrom_of_split "" rfl rfl rfl, fun hall => ?_⟩
  have hlisted := hall .keepHighest (by decide) hno
  revert hlisted
  decide

end Dicebag
