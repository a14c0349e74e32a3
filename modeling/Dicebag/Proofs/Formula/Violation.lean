import Dicebag.Proofs.Formula.Walk

/-!
# Which error is reported

A text can break several rules of the notation at once, and only one error is reported.  This module
says which one, with the rules stated apart from any walk over the tokens.

* `IsSentence` is the shape of a formula in kinds of token: terms with a sign between each two.
  `Viable` kinds are those that some sentence starts with.
* `Offends before t e` says that the token `t`, with the tokens `before` in front of it, breaks a
  rule, and which error is due for that.  The rules do not know of each other, so a token can break
  several of them; `ParseError.rank` is their order of precedence.
* `FirstViolation` is the offence of the first token that has one, the precedence deciding between
  several of them.  Where no token offends, it is a text that ends too early.

`parse_eq_error_iff` says that this is what `parse` reports, and that dice are missing only where
nothing else is wrong.

The tokens before a walk fit the stage that it is at (`Reaches.fits`).  Hence every token that it
takes is good (`Walk.Goes.not_offends`), and the one that stops it offends (`Walk.Stops.offends`) in
no way that comes before the one that is reported (`Walk.Stops.rank_le`).
-/

set_option autoImplicit false

namespace Dicebag

/-! ## The shape of a formula -/

/-- The kinds of token that make up a term. -/
inductive IsTerm : List Kind → Prop
  /-- Dice. -/
  | dice : IsTerm [.dice]
  /-- Dice and a keep suffix. -/
  | kept {kind : Kind} {mode : KeepMode} (hmode : kind.keepMode? = some mode) :
      IsTerm [.dice, kind]
  /-- A constant. -/
  | integer : IsTerm [.integer]

/-- The kinds of token that make up a formula: terms with a sign between each two. -/
inductive IsSentence : List Kind → Prop
  /-- A single term. -/
  | first {term : List Kind} (hterm : IsTerm term) : IsSentence term
  /-- A sign and a term after what was there. -/
  | more {kinds term : List Kind} {kind : Kind} {sign : Sign} (h : IsSentence kinds)
      (hsign : kind.sign? = some sign) (hterm : IsTerm term) : IsSentence (kinds ++ kind :: term)

/-- Some sentence starts with these kinds. -/
def Viable (kinds : List Kind) : Prop := ∃ others, IsSentence (kinds ++ others)

/-- A term has to come next: nothing is there yet, or a sign is the last. -/
def opens (kinds : List Kind) : Bool := kinds.getLast?.all fun kind => kind.sign?.isSome

/-- The kind can end a term. -/
def Kind.EndsTerm (kind : Kind) : Prop :=
  kind = .dice ∨ kind = .integer ∨ kind.keepMode?.isSome = true

/-- The kind can stand after these, as far as the last of them tells. -/
def Follows (kinds : List Kind) (kind : Kind) : Prop :=
  (opens kinds = true ∧ (kind = .dice ∨ kind = .integer)) ∨
    (kinds.getLast? = some .dice ∧ kind.keepMode?.isSome = true) ∨
    ((∃ last ∈ kinds.getLast?, last.EndsTerm) ∧ kind.sign?.isSome = true)

theorem IsSentence.viable {kinds : List Kind} (h : IsSentence kinds) : Viable kinds :=
  ⟨[], by rwa [List.append_nil]⟩

theorem opens_append_sign {kind : Kind} {sign : Sign} (h : kind.sign? = some sign)
    (kinds : List Kind) : opens (kinds ++ [kind]) = true := by
  rw [opens, List.getLast?_concat, Option.all_some, h, Option.isSome_some]

theorem Kind.EndsTerm.not_sign {kind : Kind} (h : kind.EndsTerm) : kind.sign? = none := by
  cases kind <;> simp_all [Kind.EndsTerm, Kind.sign?, Kind.keepMode?]

theorem IsTerm.endsTerm {term : List Kind} (h : IsTerm term) :
    ∃ kind ∈ term.getLast?, kind.EndsTerm := by
  cases h with
  | dice => exact ⟨_, rfl, .inl rfl⟩
  | @kept kind mode hmode => exact ⟨kind, rfl, .inr (.inr (by rw [hmode, Option.isSome_some]))⟩
  | integer => exact ⟨_, rfl, .inr (.inl rfl)⟩

/-- A sentence ends with a term. -/
theorem IsSentence.endsTerm {kinds : List Kind} (h : IsSentence kinds) :
    ∃ kind ∈ kinds.getLast?, kind.EndsTerm := by
  cases h with
  | first hterm => exact hterm.endsTerm
  | @more kinds term kind sign _ _ hterm =>
    obtain ⟨last, hlast, hends⟩ := hterm.endsTerm
    refine ⟨last, ?_, hends⟩
    rw [Option.mem_def] at hlast ⊢
    rw [List.getLast?_append, List.getLast?_cons, hlast]
    rfl

theorem IsSentence.not_opens {kinds : List Kind} (h : IsSentence kinds) : opens kinds = false := by
  obtain ⟨last, hlast, hends⟩ := h.endsTerm
  rw [Option.mem_def] at hlast
  rw [opens, hlast, Option.all_some, hends.not_sign, Option.isSome_none]

theorem IsTerm.follows {kinds before others : List Kind} {kind : Kind}
    (h : IsTerm (before ++ kind :: others)) (hopens : opens kinds = true) :
    Follows (kinds ++ before) kind := by
  cases before with
  | nil =>
    rw [List.append_nil]
    rw [List.nil_append] at h
    cases h with
    | dice => exact .inl ⟨hopens, .inl rfl⟩
    | kept => exact .inl ⟨hopens, .inl rfl⟩
    | integer => exact .inl ⟨hopens, .inr rfl⟩
  | cons first before =>
    -- only a keep suffix stands in a term with something before it
    generalize hterm : first :: before ++ kind :: others = term at h
    cases h with
    | dice => simp at hterm
    | integer => simp at hterm
    | @kept suffix mode hmode =>
      rw [List.cons_append, List.cons.injEq, List.append_eq_singleton_iff] at hterm
      obtain ⟨rfl, ⟨rfl, hlast⟩ | ⟨-, hlast⟩⟩ := hterm
      · rw [List.cons.injEq] at hlast
        obtain ⟨rfl, -⟩ := hlast
        exact .inr (.inl ⟨List.getLast?_concat .., by rw [hmode, Option.isSome_some]⟩)
      · cases hlast

/-- **In a sentence every kind follows those before it.** -/
theorem IsSentence.follows {before others : List Kind} {kind : Kind}
    (h : IsSentence (before ++ kind :: others)) : Follows before kind := by
  generalize hall : before ++ kind :: others = all at h
  induction h generalizing before others with
  | first hterm =>
    subst hall
    exact @IsTerm.follows [] _ _ _ hterm rfl
  | @more kinds term sgn sign h hsign hterm ih =>
    -- the kind stands in the sentence, is the sign, or stands in the term
    rcases List.append_eq_append_iff.1 hall with ⟨left, rfl, hleft⟩ | ⟨left, rfl, hleft⟩
    · cases left with
      | nil =>
        rw [List.nil_append, List.cons.injEq] at hleft
        obtain ⟨rfl, -⟩ := hleft
        rw [List.append_nil] at h
        exact .inr (.inr ⟨h.endsTerm, by rw [hsign, Option.isSome_some]⟩)
      | cons first left =>
        rw [List.cons_append, List.cons.injEq] at hleft
        obtain ⟨rfl, -⟩ := hleft
        exact ih rfl
    · cases left with
      | nil =>
        rw [List.nil_append, List.cons.injEq] at hleft
        obtain ⟨rfl, -⟩ := hleft
        rw [List.append_nil]
        exact .inr (.inr ⟨h.endsTerm, by rw [hsign, Option.isSome_some]⟩)
      | cons first left =>
        rw [List.cons_append, List.cons.injEq] at hleft
        obtain ⟨rfl, rfl⟩ := hleft
        rw [List.append_cons]
        exact hterm.follows (opens_append_sign hsign kinds)

theorem Follows.of_opens {kinds : List Kind} {kind : Kind} (h : Follows kinds kind)
    (hopens : opens kinds = true) : kind = .dice ∨ kind = .integer := by
  rcases h with ⟨-, hterm⟩ | ⟨hlast, -⟩ | ⟨⟨last, hlast, hends⟩, -⟩
  · exact hterm
  · rw [opens, hlast] at hopens
    cases hopens
  · rw [Option.mem_def] at hlast
    rw [opens, hlast, Option.all_some, hends.not_sign] at hopens
    cases hopens

theorem Follows.of_not_opens {kinds : List Kind} {kind : Kind} (h : Follows kinds kind)
    (hopens : opens kinds = false) :
    (kinds.getLast? = some .dice ∧ kind.keepMode?.isSome = true) ∨ kind.sign?.isSome = true := by
  rcases h with ⟨hopens', -⟩ | hkeep | ⟨-, hsign⟩
  · rw [hopens] at hopens'
    cases hopens'
  · exact .inl hkeep
  · exact .inr hsign

/-! ## Violations -/

/-- The kinds of some tokens. -/
def kinds (ts : List Token) : List Kind := ts.map Token.kind

theorem kinds_concat (ts : List Token) (t : Token) :
    kinds (ts ++ [t]) = kinds ts ++ [t.kind] := by
  rw [kinds, List.map_append, List.map_singleton, kinds]

/-- A token that cannot follow those before it is not part of a sentence. -/
theorem not_viable_concat {before : List Token} {t : Token} (h : ¬Follows (kinds before) t.kind) :
    ¬Viable (kinds (before ++ [t])) := by
  rintro ⟨others, hsentence⟩
  rw [kinds_concat, List.append_assoc] at hsentence
  exact h hsentence.follows

/-- The kinds that a token after these is expected to have. -/
def expected (before : List Token) : List Kind :=
  if opens (kinds before) then Kind.terms else Kind.signs

/-- The token `t`, with `before` in front of it, is an integer where a term has to start. -/
structure IntegerTerm (before : List Token) (t : Token) : Prop where
  /-- The token is an integer. -/
  kind : t.kind = .integer
  /-- A term has to start with it. -/
  opens : opens (kinds before) = true

/-- One of the tokens is an integer where a term has to start. -/
def HasConstant (ts : List Token) : Prop :=
  ∃ before t after, ts = before ++ t :: after ∧ IntegerTerm before t

/-- The token `t`, with `before` in front of it, breaks a rule, and the error says which. -/
inductive Offends (before : List Token) (t : Token) : ParseError → Prop
  /-- No formula goes on with it. -/
  | stray (h : ¬Viable (kinds (before ++ [t]))) :
      Offends before t (unexpected t.excerpt (expected before))
  /-- It asks for too few or too many dice. -/
  | count {count sides : Nat} (hkind : t.kind = .dice) (hdice : WritesDice t.lexeme count sides)
      (hrange : ¬Group.CountInRange count) :
      Offends before t (.countOutOfRange t.excerpt (min count Digits.greatest))
  /-- It gives the dice too few or too many sides. -/
  | sides {count sides : Nat} (hkind : t.kind = .dice) (hdice : WritesDice t.lexeme count sides)
      (hrange : ¬Group.SidesInRange sides) :
      Offends before t (.sidesOutOfRange t.excerpt (min sides Digits.greatest))
  /-- It keeps none of the dice before it, or more than there are. -/
  | keep {earlier : List Token} {d : Token} {count sides amount : Nat} {mode : KeepMode}
      (hbefore : before = earlier ++ [d]) (hkind : d.kind = .dice)
      (hdice : WritesDice d.lexeme count sides) (hmode : t.kind.keepMode? = some mode)
      (hkeep : WritesKeep mode t.lexeme amount) (hrange : ¬Group.KeepInRange count amount) :
      Offends before t
        (.keepOutOfRange t.excerpt (min amount Digits.greatest) (min count Digits.greatest))
  /-- It is a constant, and there is one already. -/
  | second (h : IntegerTerm before t) (hearlier : HasConstant before) :
      Offends before t (.secondConstant t.excerpt)
  /-- It is a constant that does not fit a total. -/
  | large (h : IntegerTerm before t) (hvalue : Total.greatest < (Digits.value t.lexeme : Int)) :
      Offends before t (.constantTooLarge t.excerpt)

/-- Which of several errors about one token is reported: the one with the least rank. -/
def ParseError.rank : ParseError → Nat
  | unexpected .. => 0
  | countOutOfRange .. => 1
  | sidesOutOfRange .. => 2
  | keepOutOfRange .. => 3
  | secondConstant .. => 4
  | constantTooLarge .. => 5
  | noDice => 6

/-- None of the tokens breaks a rule. -/
def Clean (ts : List Token) : Prop :=
  ∀ before t after e, ts = before ++ t :: after → ¬Offends before t e

/-- Nor does the text end too early. -/
structure Flawless (ts : List Token) : Prop where
  /-- None of the tokens breaks a rule. -/
  clean : Clean ts
  /-- The tokens make up a formula. -/
  ended : IsSentence (kinds ts)

/-- The first rule that the tokens of a text of `stop` bytes break. -/
inductive FirstViolation (stop : Nat) (ts : List Token) : ParseError → Prop
  /-- A token breaks it, and of all that this token breaks it has the least rank. -/
  | token {before after : List Token} {t : Token} {e : ParseError}
      (hsplit : ts = before ++ t :: after) (hclean : Clean before) (h : Offends before t e)
      (hleast : ∀ e', Offends before t e' → e.rank ≤ e'.rank) : FirstViolation stop ts e
  /-- All tokens are good, and the text must not end after them. -/
  | ending (hclean : Clean ts) (hend : ¬IsSentence (kinds ts)) :
      FirstViolation stop ts (unexpected (.emptyAt stop) Kind.terms)

theorem Offends.ne_noDice {before : List Token} {t : Token} {e : ParseError}
    (h : Offends before t e) : e ≠ .noDice := by
  rintro rfl
  cases h

/-! ### The rules that a kind of token can break -/

/-- Dice that have their place break a rule by their numbers. -/
theorem Offends.of_dice {before : List Token} {t : Token} {e : ParseError} (h : Offends before t e)
    (hviable : Viable (kinds (before ++ [t]))) (hkind : t.kind = .dice) :
    (¬Group.CountInRange t.count ∧ e = .countOutOfRange t.excerpt t.count) ∨
      (¬Group.SidesInRange t.sides ∧ e = .sidesOutOfRange t.excerpt t.sides) := by
  cases h with
  | stray hstray => exact absurd hviable hstray
  | count _ hdice hrange =>
    rw [count_of_writesDice hdice, countInRange_min]
    exact .inl ⟨hrange, rfl⟩
  | sides _ hdice hrange =>
    rw [sides_of_writesDice hdice, sidesInRange_min]
    exact .inr ⟨hrange, rfl⟩
  | keep _ _ _ hmode _ _ => simp [hkind, Kind.keepMode?] at hmode
  | second h _ => simp [h.kind] at hkind
  | large h _ => simp [h.kind] at hkind

/-- An integer that has its place breaks a rule as a second constant or as a large one. -/
theorem Offends.of_integer {before : List Token} {t : Token} {e : ParseError}
    (h : Offends before t e) (hviable : Viable (kinds (before ++ [t])))
    (hkind : t.kind = .integer) :
    (HasConstant before ∧ e = .secondConstant t.excerpt) ∨
      (Total.greatest < (t.value : Int) ∧ e = .constantTooLarge t.excerpt) := by
  cases h with
  | stray hstray => exact absurd hviable hstray
  | count hdice _ _ => simp [hkind] at hdice
  | sides hdice _ _ => simp [hkind] at hdice
  | keep _ _ _ hmode _ _ => simp [hkind, Kind.keepMode?] at hmode
  | second _ hearlier => exact .inl ⟨hearlier, rfl⟩
  | large _ hvalue => exact .inr ⟨hvalue, rfl⟩

/-- A keep suffix that has its place breaks a rule by its amount. -/
theorem Offends.of_keep {before : List Token} {t : Token} {e : ParseError} {mode : KeepMode}
    (h : Offends before t e) (hviable : Viable (kinds (before ++ [t])))
    (hmode : t.kind.keepMode? = some mode) :
    ∃ earlier d, before = earlier ++ [d] ∧
      (Group.CountInRange d.count → ¬Group.KeepInRange d.count t.keepAmount) ∧
      e = .keepOutOfRange t.excerpt t.keepAmount d.count := by
  cases h with
  | stray hstray => exact absurd hviable hstray
  | count hkind _ _ => simp [hkind, Kind.keepMode?] at hmode
  | sides hkind _ _ => simp [hkind, Kind.keepMode?] at hmode
  | @keep earlier d count sides amount _ hbefore _ hdice _ hkeep hrange =>
    refine ⟨earlier, d, hbefore, fun hcount => ?_, ?_⟩
    · rw [count_of_writesDice hdice, countInRange_min] at hcount
      rwa [count_of_writesDice hdice, min_of_countInRange hcount, keepAmount_of_writesKeep hkeep,
        keepInRange_min hcount]
    · rw [count_of_writesDice hdice, keepAmount_of_writesKeep hkeep]
  | second h _ => simp [h.kind, Kind.keepMode?] at hmode
  | large h _ => simp [h.kind, Kind.keepMode?] at hmode

/-- A sign that has its place breaks no rule. -/
theorem not_offends_of_sign {before : List Token} {t : Token} {e : ParseError} {sign : Sign}
    (hviable : Viable (kinds (before ++ [t]))) (hsign : t.kind.sign? = some sign) :
    ¬Offends before t e := by
  intro h
  cases h with
  | stray hstray => exact hstray hviable
  | count hkind _ _ => simp [hkind, Kind.sign?] at hsign
  | sides hkind _ _ => simp [hkind, Kind.sign?] at hsign
  | keep _ _ _ hmode _ _ => simp [Walk.keepMode?_of_sign hsign] at hmode
  | second h _ => simp [h.kind, Kind.sign?] at hsign
  | large h _ => simp [h.kind, Kind.sign?] at hsign

/-! ### There is only one first violation -/

/-- **A token breaks a rule in one way only.** -/
theorem Offends.eq_of_rank_eq {before : List Token} {t : Token} {e e' : ParseError}
    (h : Offends before t e) (h' : Offends before t e') (hrank : e.rank = e'.rank) : e = e' := by
  cases h with
  | stray =>
    cases h' with
    | stray => rfl
    | _ => cases hrank
  | count _ hdice _ =>
    cases h' with
    | count _ hdice' _ => rw [← count_of_writesDice hdice, ← count_of_writesDice hdice']
    | _ => cases hrank
  | sides _ hdice _ =>
    cases h' with
    | sides _ hdice' _ => rw [← sides_of_writesDice hdice, ← sides_of_writesDice hdice']
    | _ => cases hrank
  | keep hbefore _ hdice _ hkeep _ =>
    cases h' with
    | keep hbefore' _ hdice' _ hkeep' _ =>
      obtain ⟨-, hlast⟩ := List.append_inj' (hbefore.symm.trans hbefore') rfl
      obtain ⟨rfl, -⟩ := List.cons.inj hlast
      rw [← count_of_writesDice hdice, ← count_of_writesDice hdice',
        ← keepAmount_of_writesKeep hkeep, ← keepAmount_of_writesKeep hkeep']
    | _ => cases hrank
  | second =>
    cases h' with
    | second => rfl
    | _ => cases hrank
  | large =>
    cases h' with
    | large => rfl
    | _ => cases hrank

/-- Tokens that break no rule are not more than those before the first that does. -/
theorem Clean.length_le {ts before after before' after' : List Token} {t t' : Token}
    {e : ParseError} (hclean : Clean before') (h : Offends before t e)
    (hsplit : ts = before ++ t :: after) (hsplit' : ts = before' ++ t' :: after') :
    before'.length ≤ before.length := by
  rcases List.append_eq_append_iff.1 (hsplit.symm.trans hsplit') with
    ⟨left, rfl, hleft⟩ | ⟨left, rfl, -⟩
  · cases left with
    | nil => simp
    | cons u left =>
      rw [List.cons_append, List.cons.injEq] at hleft
      obtain ⟨rfl, -⟩ := hleft
      exact absurd h (hclean _ _ _ _ rfl)
  · simp

theorem FirstViolation.unique {stop : Nat} {ts : List Token} {e e' : ParseError}
    (h : FirstViolation stop ts e) (h' : FirstViolation stop ts e') : e = e' := by
  cases h with
  | token hsplit hclean h hleast =>
    cases h' with
    | token hsplit' hclean' h' hleast' =>
      have hlength : _ = _ :=
        Nat.le_antisymm (hclean.length_le h' hsplit' hsplit) (hclean'.length_le h hsplit hsplit')
      obtain ⟨rfl, hsame⟩ := List.append_inj (hsplit.symm.trans hsplit') hlength
      obtain ⟨rfl, -⟩ := List.cons.inj hsame
      exact h.eq_of_rank_eq h' (Nat.le_antisymm (hleast _ h') (hleast' _ h))
    | ending hclean' _ => exact absurd h (hclean' _ _ _ _ hsplit)
  | ending hclean _ =>
    cases h' with
    | token hsplit' _ h' _ => exact absurd h' (hclean _ _ _ _ hsplit')
    | ending => rfl

/-! ## Where a walk stands -/

/-- What the tokens before it say of the stage of a walk. -/
inductive Stage.Fits : List Token → Stage → Prop
  /-- A term has to come next, and any would do. -/
  | opening {before : List Token} {sign : Sign}
      (hterm : ∀ {term : List Kind}, IsTerm term → IsSentence (kinds before ++ term))
      (hopens : opens (kinds before) = true) : Fits before (.opening sign)
  /-- Dice are the last token, and stand where any term would have done. -/
  | group {before : List Token} {d : Token} {group : Group} {span : Span}
      (hterm : ∀ {term : List Kind}, IsTerm term → IsSentence (kinds before ++ term))
      (hkind : d.kind = .dice) (hcount : group.count = d.count)
      (hrange : Group.CountInRange d.count) : Fits (before ++ [d]) (.group group span)
  /-- The tokens are a formula that does not end in dice. -/
  | closed {before : List Token} (h : IsSentence (kinds before))
      (hlast : (kinds before).getLast? ≠ some .dice) : Fits before .closed

theorem Stage.Fits.opens {before : List Token} {sign : Sign}
    (h : (Stage.opening sign).Fits before) : opens (kinds before) = true := by
  cases h with
  | opening _ hopens => exact hopens

/-- The group that a walk is at has as many dice as the last token. -/
theorem Stage.Fits.count {earlier : List Token} {d : Token} {group : Group} {span : Span}
    (h : (Stage.group group span).Fits (earlier ++ [d])) :
    group.count = d.count ∧ Group.CountInRange d.count := by
  generalize hall : earlier ++ [d] = before at h
  cases h with
  | @group before d' _ _ _ _ hcount hrange =>
    obtain ⟨-, hlast⟩ := List.append_inj' hall rfl
    obtain ⟨rfl, -⟩ := List.cons.inj hlast
    exact ⟨hcount, hrange⟩

theorem Stage.Fits.isSentence {before : List Token} {stage : Stage} (h : stage.Fits before)
    (hended : stage.Ended) : IsSentence (kinds before) := by
  cases h with
  | opening => cases hended
  | group hterm hkind _ _ =>
    rw [kinds_concat, hkind]
    exact hterm .dice
  | closed h _ => exact h

/-- Behind dice that end a formula, a walk is still at their group. -/
theorem Stage.Fits.exists_group {before : List Token} {stage : Stage} (h : stage.Fits before)
    (hended : stage.Ended) (hlast : (kinds before).getLast? = some .dice) :
    ∃ group span, stage = .group group span := by
  cases h with
  | opening => cases hended
  | group => exact ⟨_, _, rfl⟩
  | closed _ hnot => exact absurd hlast hnot

/-- Where a term has to start, the kinds that start one can. -/
theorem Stage.Fits.isSentence_term {before : List Token} {t : Token} {sign : Sign}
    (h : (Stage.opening sign).Fits before) (hkind : t.kind = .dice ∨ t.kind = .integer) :
    IsSentence (kinds (before ++ [t])) := by
  cases h with
  | opening hterm _ =>
    rw [kinds_concat]
    rcases hkind with hkind | hkind
    · exact hkind ▸ hterm .dice
    · exact hkind ▸ hterm .integer

/-- Behind dice a keep suffix can stand. -/
theorem Stage.Fits.isSentence_keep {before : List Token} {t : Token} {group : Group} {span : Span}
    {mode : KeepMode} (h : (Stage.group group span).Fits before)
    (hmode : t.kind.keepMode? = some mode) : IsSentence (kinds (before ++ [t])) := by
  cases h with
  | group hterm hkind _ _ =>
    rw [kinds_concat, kinds_concat, hkind, List.append_assoc]
    exact hterm (.kept hmode)

theorem Stage.Fits.viable {before : List Token} {stage : Stage} (h : stage.Fits before) :
    Viable (kinds before) := by
  cases stage with
  | opening sign =>
    cases h with
    | opening hterm _ => exact ⟨_, hterm .integer⟩
  | group group span => exact (h.isSentence trivial).viable
  | closed => exact (h.isSentence trivial).viable

/-- **A token takes a walk to a stage that fits.** -/
theorem Walk.Goes.fits {before : List Token} {w w' : Walk} {t : Token} (h : w.Goes t w')
    (hfits : w.stage.Fits before) : w'.stage.Fits (before ++ [t]) := by
  cases h with
  | dice hstage hkind hcount _ =>
    rw [hstage] at hfits
    cases hfits with
    | opening hterm _ => exact .group hterm hkind rfl hcount
  | constant hstage hkind _ _ =>
    rw [hstage] at hfits
    refine .closed (hfits.isSentence_term (.inr hkind)) ?_
    rw [kinds_concat, List.getLast?_concat, hkind]
    decide
  | keep hstage hmode _ =>
    rw [hstage] at hfits
    refine .closed (hfits.isSentence_keep hmode) ?_
    rw [kinds_concat, List.getLast?_concat, Ne, Option.some_inj]
    intro hdice
    rw [hdice] at hmode
    cases hmode
  | sign hstage hsign =>
    refine .opening (fun hterm => ?_) ?_
    · rw [kinds_concat, List.append_assoc]
      exact .more (hfits.isSentence hstage) hsign hterm
    · rw [kinds_concat]
      exact opens_append_sign hsign _

theorem Reaches.fits {before : List Token} {w : Walk} (h : Reaches before w) :
    w.stage.Fits before := by
  induction h with
  | start => exact .opening .first rfl
  | snoc _ hgoes ih => exact hgoes.fits ih

/-! ### The constant of a walk -/

/-- Tokens are split at the last of them or before it. -/
theorem split_concat {ts before after : List Token} {t u : Token}
    (h : ts ++ [t] = before ++ u :: after) :
    (ts = before ∧ t = u) ∨ ∃ rest, ts = before ++ u :: rest := by
  rcases List.eq_nil_or_concat after with rfl | ⟨rest, last, rfl⟩
  · obtain ⟨hts, hlast⟩ := List.append_inj' h rfl
    exact .inl ⟨hts, (List.cons.inj hlast).1⟩
  · rw [List.concat_eq_append, ← List.cons_append, ← List.append_assoc] at h
    exact .inr ⟨rest, (List.append_inj' h rfl).1⟩

theorem hasConstant_concat {ts : List Token} {t : Token} :
    HasConstant (ts ++ [t]) ↔ HasConstant ts ∨ IntegerTerm ts t := by
  constructor
  · rintro ⟨before, u, after, hsplit, hterm⟩
    rcases split_concat hsplit with ⟨rfl, rfl⟩ | ⟨rest, hts⟩
    · exact .inr hterm
    · exact .inl ⟨before, u, rest, hts, hterm⟩
  · rintro (⟨before, u, after, rfl, hterm⟩ | hterm)
    · exact ⟨before, u, after ++ [t], by simp, hterm⟩
    · exact ⟨ts, t, [], rfl, hterm⟩

theorem Walk.Goes.taken_iff {before : List Token} {w w' : Walk} {t : Token} (h : w.Goes t w')
    (hfits : w.stage.Fits before) :
    w'.taken = true ↔ w.taken = true ∨ IntegerTerm before t := by
  cases h with
  | dice hstage hkind _ _ =>
    have hnot : ¬IntegerTerm before t := fun hterm => by simp [hterm.kind] at hkind
    rw [or_iff_left hnot]
    rfl
  | constant hstage hkind _ _ =>
    rw [hstage] at hfits
    cases hfits with
    | opening _ hopens =>
      have hterm : IntegerTerm before t := ⟨hkind, hopens⟩
      simp [Walk.taken, Term.isConstant, hterm]
  | keep hstage hmode _ =>
    have hnot : ¬IntegerTerm before t := fun hterm => by simp [hterm.kind, Kind.keepMode?] at hmode
    rw [or_iff_left hnot]
    simp [Walk.taken, Term.isConstant]
  | sign hstage hsign =>
    have hnot : ¬IntegerTerm before t := fun hterm => by simp [hterm.kind, Kind.sign?] at hsign
    rw [or_iff_left hnot]
    rw [Walk.taken, Walk.taken, Walk.accepted]
    split <;> simp [keepMode?_of_sign hsign, Term.isConstant]

theorem Reaches.taken_iff {before : List Token} {w : Walk} (h : Reaches before w) :
    w.taken = true ↔ HasConstant before := by
  induction h with
  | start =>
    refine iff_of_false (by decide) ?_
    rintro ⟨before, t, after, hsplit, -⟩
    simp at hsplit
  | snoc h hgoes ih => rw [hasConstant_concat, ← ih, hgoes.taken_iff h.fits]

/-! ## A walk meets no violation before the one that stops it -/

/-- **A token that a walk takes breaks no rule.** -/
theorem Walk.Goes.not_offends {before : List Token} {w w' : Walk} {t : Token} {e : ParseError}
    (hgoes : w.Goes t w') (h : Reaches before w) : ¬Offends before t e := by
  have hviable := (hgoes.fits h.fits).viable
  intro hoffends
  cases hgoes with
  | dice _ hkind hcount hsides =>
    rcases hoffends.of_dice hviable hkind with ⟨hbad, -⟩ | ⟨hbad, -⟩
    · exact hbad hcount
    · exact hbad hsides
  | constant _ hkind htaken hvalue =>
    rcases hoffends.of_integer hviable hkind with ⟨hearlier, -⟩ | ⟨hlarge, -⟩
    · rw [← h.taken_iff, htaken] at hearlier
      cases hearlier
    · exact Int.not_lt.2 hvalue hlarge
  | keep hstage hmode hrange =>
    obtain ⟨earlier, d, rfl, hbad, -⟩ := hoffends.of_keep hviable hmode
    obtain ⟨hcount, hcountRange⟩ := (hstage ▸ h.fits).count
    exact hbad hcountRange (hcount ▸ hrange)
  | sign _ hsign => exact not_offends_of_sign hviable hsign hoffends

theorem Reaches.clean {ts : List Token} {w : Walk} (h : Reaches ts w) : Clean ts := by
  induction h with
  | start =>
    intro before t after e hsplit
    simp at hsplit
  | @snoc ts u w w' h hgoes ih =>
    intro before t after e hsplit
    rcases split_concat hsplit with ⟨rfl, rfl⟩ | ⟨rest, hts⟩
    · exact hgoes.not_offends h
    · exact ih _ _ _ _ hts

/-- What stops a walk is a rule that its token breaks. -/
theorem Walk.Stops.offends {before : List Token} {w : Walk} {t : Token} {e : ParseError}
    (hstops : w.Stops t e) (h : Reaches before w) (hproper : ∀ u ∈ before ++ [t], u.Proper) :
    Offends before t e := by
  have hfits := h.fits
  cases hstops with
  | term hstage hdice hinteger =>
    rw [hstage] at hfits
    cases hfits with
    | opening _ hopens =>
      have hexpected : expected before = Kind.terms := if_pos hopens
      rw [← hexpected]
      exact .stray (not_viable_concat fun h => (h.of_opens hopens).elim hdice hinteger)
  | count hstage hkind hcount =>
    obtain ⟨count, sides, hdice⟩ := exists_writesDice_of_proper (hproper t (by simp)) hkind
    rw [count_of_writesDice hdice] at hcount ⊢
    exact .count hkind hdice (mt countInRange_min.2 hcount)
  | sides hstage hkind _ hsides =>
    obtain ⟨count, sides, hdice⟩ := exists_writesDice_of_proper (hproper t (by simp)) hkind
    rw [sides_of_writesDice hdice] at hsides ⊢
    exact .sides hkind hdice (mt sidesInRange_min.2 hsides)
  | second hstage hkind htaken =>
    rw [hstage] at hfits
    exact .second ⟨hkind, hfits.opens⟩ (h.taken_iff.1 htaken)
  | large hstage hkind _ hvalue =>
    rw [hstage] at hfits
    exact .large ⟨hkind, hfits.opens⟩ hvalue
  | @keep group span mode hstage hmode hrange =>
    rw [hstage] at hfits
    cases hfits with
    | @group earlier d _ _ _ hkind hcount hcountRange =>
      obtain ⟨count, sides, hdice⟩ := exists_writesDice_of_proper (hproper d (by simp)) hkind
      obtain ⟨amount, hkeep⟩ := exists_writesKeep (isKeep_of_proper (hproper t (by simp)) hmode)
      rw [hcount, count_of_writesDice hdice, keepAmount_of_writesKeep hkeep] at hrange ⊢
      rw [count_of_writesDice hdice, countInRange_min] at hcountRange
      rw [min_of_countInRange hcountRange, keepInRange_min hcountRange] at hrange
      exact .keep rfl hkind hdice hmode hkeep hrange
  | sign hstage hkeep hsign =>
    have hopens := (hfits.isSentence hstage).not_opens
    have hexpected : expected before = Kind.signs := if_neg (by rw [hopens]; simp)
    rw [← hexpected]
    refine .stray (not_viable_concat fun h => ?_)
    rcases h.of_not_opens hopens with ⟨hlast, hsome⟩ | hsome
    · obtain ⟨group, span, hgroup⟩ := hfits.exists_group hstage hlast
      simp [hkeep group span hgroup] at hsome
    · simp [hsign] at hsome

/-- A walk stops for the rule that is reported, of all that its token breaks. -/
theorem Walk.Stops.rank_le {before : List Token} {w : Walk} {t : Token} {e e' : ParseError}
    (hstops : w.Stops t e) (h : Reaches before w) (h' : Offends before t e') :
    e.rank ≤ e'.rank := by
  have hfits := h.fits
  cases hstops with
  | term => exact Nat.zero_le _
  | sign => exact Nat.zero_le _
  | count hstage hkind _ =>
    rw [hstage] at hfits
    rcases h'.of_dice (hfits.isSentence_term (.inl hkind)).viable hkind with ⟨-, rfl⟩ | ⟨-, rfl⟩
    · exact Nat.le_refl _
    · simp [ParseError.rank]
  | sides hstage hkind hcount _ =>
    rw [hstage] at hfits
    rcases h'.of_dice (hfits.isSentence_term (.inl hkind)).viable hkind with ⟨hbad, -⟩ | ⟨-, rfl⟩
    · exact absurd hcount hbad
    · exact Nat.le_refl _
  | keep hstage hmode _ =>
    rw [hstage] at hfits
    obtain ⟨earlier, d, -, -, rfl⟩ := h'.of_keep (hfits.isSentence_keep hmode).viable hmode
    exact Nat.le_refl _
  | second hstage hkind _ =>
    rw [hstage] at hfits
    rcases h'.of_integer (hfits.isSentence_term (.inr hkind)).viable hkind with
      ⟨-, rfl⟩ | ⟨-, rfl⟩
    · exact Nat.le_refl _
    · simp [ParseError.rank]
  | large hstage hkind htaken _ =>
    rw [hstage] at hfits
    rcases h'.of_integer (hfits.isSentence_term (.inr hkind)).viable hkind with
      ⟨hearlier, -⟩ | ⟨-, rfl⟩
    · rw [← h.taken_iff, htaken] at hearlier
      cases hearlier
    · exact Nat.le_refl _

/-! ## Formulas without dice -/

theorem Walk.Goes.groups_finish {w w' : Walk} {t : Token} (h : w.Goes t w') (stop : Nat) :
    (w'.finish stop).groups = [] ↔ (w.finish stop).groups = [] ∧ t.kind ≠ .dice := by
  cases h with
  | dice hstage hkind _ _ =>
    simp [Walk.finish, Reading.groups, Term.group?, hkind]
  | constant hstage hkind _ _ =>
    simp [Walk.finish, Reading.groups, Term.group?, hstage, hkind]
  | keep hstage _ _ => simp [Walk.finish, Reading.groups, Term.group?, hstage]
  | sign hstage hsign =>
    have hkind : t.kind ≠ .dice := by
      intro hdice
      rw [hdice] at hsign
      cases hsign
    rw [and_iff_left hkind]
    cases hcase : w.stage with
    | opening sign =>
      rw [hcase] at hstage
      cases hstage
    | group group span =>
      simp [Walk.finish, Reading.groups, hcase, Walk.accepted, keepMode?_of_sign hsign]
    | closed => simp [Walk.finish, Reading.groups, hcase, Walk.accepted]

/-- A walk has read a group exactly where it has met dice. -/
theorem Reaches.groups_finish {ts : List Token} {w : Walk} (h : Reaches ts w) (stop : Nat) :
    (w.finish stop).groups = [] ↔ ∀ t ∈ ts, t.kind ≠ .dice := by
  induction h with
  | start => exact iff_of_true rfl (by simp)
  | snoc _ hgoes ih =>
    rw [hgoes.groups_finish, ih]
    simp [or_imp, forall_and]

/-- A walk without dice has met no more than one constant and a sign. -/
theorem Reaches.without_dice {ts : List Token} {w : Walk} (h : Reaches ts w)
    (hdice : ∀ t ∈ ts, t.kind ≠ .dice) :
    ts = [] ∨ ∃ t, t.kind = .integer ∧ (t.value : Int) ≤ Total.greatest ∧
      (ts = [t] ∨ ∃ u, u.kind.sign?.isSome = true ∧ ts = [t, u]) := by
  induction h with
  | start => exact .inl rfl
  | @snoc ts t w w' h hgoes ih =>
    have hfits := h.fits
    refine .inr ?_
    cases hgoes with
    | dice _ hkind _ _ => exact absurd hkind (hdice t (by simp))
    | constant hstage hkind htaken hvalue =>
      rw [hstage] at hfits
      rcases ih fun u hu => hdice u (by simp [hu]) with
        rfl | ⟨u, hu, -, rfl | ⟨sgn, hsgn, rfl⟩⟩
      · exact ⟨t, hkind, hvalue, .inl rfl⟩
      · have hopens := hfits.opens
        simp [opens, kinds, hu, Kind.sign?] at hopens
      · -- the constant would be a second one
        have hearlier : HasConstant [u, sgn] := ⟨[], u, [sgn], rfl, hu, rfl⟩
        rw [← h.taken_iff, htaken] at hearlier
        cases hearlier
    | keep hstage _ _ =>
      rw [hstage] at hfits
      cases hfits with
      | @group before d _ _ _ hkind _ _ => exact absurd hkind (hdice d (by simp))
    | sign hstage hsign =>
      rcases ih fun u hu => hdice u (by simp [hu]) with
        rfl | ⟨u, hu, hvalue, rfl | ⟨sgn, hsgn, rfl⟩⟩
      · obtain ⟨last, hlast, -⟩ := (hfits.isSentence hstage).endsTerm
        cases hlast
      · exact ⟨u, hu, hvalue, .inr ⟨t, by rw [hsign, Option.isSome_some], rfl⟩⟩
      · have hopens := (hfits.isSentence hstage).not_opens
        simp [opens, kinds, hsgn] at hopens

/-! ## What is reported -/

theorem Walk.error_finish {w : Walk} {before : List Token} (hfits : w.stage.Fits before)
    (stop : Nat) :
    (IsSentence (kinds before) ∧ (w.finish stop).error = none) ∨
      (¬IsSentence (kinds before) ∧
        (w.finish stop).error = some (unexpected (.emptyAt stop) Kind.terms)) := by
  rw [Walk.finish]
  cases hstage : w.stage with
  | opening sign =>
    rw [hstage] at hfits
    refine .inr ⟨fun h => ?_, rfl⟩
    have hopens := h.not_opens
    rw [hfits.opens] at hopens
    cases hopens
  | group group span => exact .inl ⟨hfits.isSentence (by rw [hstage]; trivial), rfl⟩
  | closed => exact .inl ⟨hfits.isSentence (by rw [hstage]; trivial), rfl⟩

/-- **Reading stops for the first rule that is broken**, or there is none. -/
theorem readTerms_reports (stop : Nat) {ts : List Token} (hproper : ∀ t ∈ ts, t.Proper) :
    (∃ e, (readTerms stop .plus false ts).error = some e ∧ FirstViolation stop ts e) ∨
      ∃ w, Reaches ts w ∧ readTerms stop .plus false ts = w.finish stop ∧
        (w.finish stop).error = none ∧ Flawless ts := by
  rcases reaches_or_stops ts with ⟨w, hw⟩ | ⟨before, t, after, w, e, rfl, hw, hstops⟩
  · have hread := readTerms_of_reaches hw stop
    rcases w.error_finish hw.fits stop with ⟨hended, hnone⟩ | ⟨hended, hsome⟩
    · exact .inr ⟨w, hw, hread, hnone, hw.clean, hended⟩
    · exact .inl ⟨_, by rw [hread, hsome], .ending hw.clean hended⟩
  · have hproper' : ∀ u ∈ before ++ [t], u.Proper := fun u hu =>
      hproper u (by rw [List.append_cons]; exact List.mem_append_left _ hu)
    refine .inl ⟨e, by rw [readTerms_of_stops hw hstops], ?_⟩
    exact .token rfl hw.clean (hstops.offends hw hproper') fun e' h' => hstops.rank_le hw h'

theorem Flawless.not_firstViolation {stop : Nat} {ts : List Token} {e : ParseError}
    (h : Flawless ts) : ¬FirstViolation stop ts e := by
  rintro (⟨hsplit, -, hoffends, -⟩ | ⟨-, hend⟩)
  · exact h.clean _ _ _ _ hsplit hoffends
  · exact hend h.ended

theorem FirstViolation.ne_noDice {stop : Nat} {ts : List Token} {e : ParseError}
    (h : FirstViolation stop ts e) : e ≠ .noDice := by
  cases h with
  | token _ _ hoffends _ => exact hoffends.ne_noDice
  | ending => nofun

theorem error_readTerms_iff {stop : Nat} {ts : List Token} (hproper : ∀ t ∈ ts, t.Proper)
    {e : ParseError} :
    (readTerms stop .plus false ts).error = some e ↔ FirstViolation stop ts e := by
  rcases readTerms_reports stop hproper with ⟨e', herror, hfirst⟩ | ⟨w, -, hread, hnone, hflawless⟩
  · rw [herror, Option.some_inj]
    constructor
    · rintro rfl
      exact hfirst
    · exact hfirst.unique
  · rw [hread, hnone]
    exact iff_of_false nofun hflawless.not_firstViolation

theorem groups_readTerms_iff {stop : Nat} {ts : List Token} (hproper : ∀ t ∈ ts, t.Proper) :
    ((readTerms stop .plus false ts).error = none ∧
        (readTerms stop .plus false ts).groups = []) ↔
      Flawless ts ∧ ∀ t ∈ ts, t.kind ≠ .dice := by
  rcases readTerms_reports stop hproper with ⟨e, herror, hfirst⟩ | ⟨w, hw, hread, hnone, hflawless⟩
  · rw [herror]
    exact iff_of_false nofun fun h => h.1.not_firstViolation hfirst
  · rw [hread, hw.groups_finish]
    exact and_congr_left fun _ => iff_of_true hnone hflawless

/-- Tokens that break no rule and are no dice are a single constant. -/
theorem flawless_without_dice_iff {ts : List Token} (hproper : ∀ t ∈ ts, t.Proper) :
    (Flawless ts ∧ ∀ t ∈ ts, t.kind ≠ .dice) ↔
      ∃ t, ts = [t] ∧ t.kind = .integer ∧ (Digits.value t.lexeme : Int) ≤ Total.greatest := by
  constructor
  · rintro ⟨hflawless, hdice⟩
    rcases readTerms_reports 0 hproper with ⟨e, -, hfirst⟩ | ⟨w, hw, -, -, -⟩
    · exact absurd hfirst hflawless.not_firstViolation
    · have hopens := hflawless.ended.not_opens
      rcases hw.without_dice hdice with rfl | ⟨t, hkind, hvalue, rfl | ⟨u, hu, rfl⟩⟩
      · cases hopens
      · exact ⟨t, rfl, hkind, hvalue⟩
      · simp [opens, kinds, hu] at hopens
  · rintro ⟨t, rfl, hkind, hvalue⟩
    have hw : Reaches [t] _ := .snoc .start (.constant rfl hkind rfl hvalue)
    exact ⟨⟨hw.clean, hw.fits.isSentence trivial⟩, by simp [hkind]⟩

/-- **Which error is reported.**  A text that is not blank and no formula is refused for the first
rule that its tokens break.  Where they break none, dice are missing, and that is so exactly where
the text is a single constant that fits a total. -/
theorem parse_eq_error_iff {text : String} (hblank : Text.trim text ≠ "") :
    (∀ e, e ≠ .noDice →
      (parse text = .error e ↔ FirstViolation text.utf8ByteSize (tokens text) e)) ∧
    (parse text = .error .noDice ↔
      Flawless (tokens text) ∧ ∀ t ∈ tokens text, t.kind ≠ .dice) ∧
    ((Flawless (tokens text) ∧ ∀ t ∈ tokens text, t.kind ≠ .dice) ↔
      ∃ t, tokens text = [t] ∧ t.kind = .integer ∧
        (Digits.value t.lexeme : Int) ≤ Total.greatest) := by
  have hproper : ∀ t ∈ tokens text, t.Proper := (lexes_tokensFrom 0 text.toList).proper
  have hread : Reading.ofText text = readTerms text.utf8ByteSize .plus false (tokens text) :=
    if_neg hblank
  have herror : ∀ e, parse text = .error e ↔
      FirstViolation text.utf8ByteSize (tokens text) e ∨
        (e = .noDice ∧ Flawless (tokens text) ∧ ∀ t ∈ tokens text, t.kind ≠ .dice) := fun e => by
    rw [parse_eq_error_iff_formula, formula_eq_error_iff, hread, error_readTerms_iff hproper,
      groups_readTerms_iff hproper]
  refine ⟨fun e he => ?_, ?_, flawless_without_dice_iff hproper⟩
  · rw [herror, or_iff_left fun h => he h.1]
  · rw [herror, or_iff_right fun h => h.ne_noDice rfl, and_iff_right rfl]

/-- The dice that are too many come before the keep suffix, the letter and the second constant. -/
theorem parse_eq_error_iff_many :
    Text.trim "2d6 + 4294967296d1kh0 x - 3 + 4" ≠ "" ∧
      FirstViolation 31 (tokens "2d6 + 4294967296d1kh0 x - 3 + 4")
        (.countOutOfRange ⟨⟨6, 18⟩, "4294967296d1"⟩ 4294967295) := by
  have hblank : Text.trim "2d6 + 4294967296d1kh0 x - 3 + 4" ≠ "" := by
    decide
  have hparse : parse "2d6 + 4294967296d1kh0 x - 3 + 4" =
      .error (.countOutOfRange ⟨⟨6, 18⟩, "4294967296d1"⟩ 4294967295) := by
    decide +kernel
  obtain ⟨hviolation, -, -⟩ := parse_eq_error_iff hblank
  exact ⟨hblank, (hviolation _ (by simp)).1 hparse⟩

end Dicebag
