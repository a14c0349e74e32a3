import Mathlib.Algebra.BigOperators.Group.List.Basic
import Mathlib.Algebra.GroupWithZero.Nat
import Mathlib.Algebra.Ring.Int.Defs
import Dicebag.Formula.Reading
import Dicebag.Proofs.Token.Longest

/-!
# The grammar of formulas

`parse` walks over the tokens of a text and checks as it goes.  Here is what it accepts, as a
grammar without any order of checks:

* `WritesDice` and `WritesKeep` say which numbers a lexeme writes, however large they are;
* `WritesTerm` and `WritesTerms` say which tokens write which terms, a sign standing between any
  two;
* `Accepts` adds the limits: the ranges of the numbers, one constant at most, and some dice.

`parse_eq_ok_iff` says that `parse` reads a text exactly where its longest matches write terms
within the limits, and that it returns these terms.

The walk caps the numbers of a dice token where the grammar does not, so the two have to agree on
what is in range (`countInRange_min` and its companions).  The keep suffix is the only choice that
the walk makes, and it always takes one; no sentence of the grammar goes on with a keep suffix where
a term may end, so nothing is lost by that.
-/

set_option autoImplicit false

namespace Dicebag

/-! ## The numbers that a lexeme writes -/

/-- The dice lexeme writes a number of dice, which is one if there are no digits for it, and a
number of sides. -/
inductive WritesDice : List Char → Nat → Nat → Prop
  | one {letter : Char} {sides : List Char} (hletter : isDieLetter letter = true)
      (hsides : IsDigits sides) : WritesDice (letter :: sides) 1 (Digits.value sides)
  | many {letter : Char} {count sides : List Char} (hcount : IsDigits count)
      (hletter : isDieLetter letter = true) (hsides : IsDigits sides) :
      WritesDice (count ++ letter :: sides) (Digits.value count) (Digits.value sides)

/-- The lexeme of a keep suffix writes an amount. -/
inductive WritesKeep (mode : KeepMode) : List Char → Nat → Prop
  | intro {k m : Char} {amount : List Char} (hk : isKeepLetter k = true)
      (hm : keepLetterMode? m = some mode) (hamount : IsDigits amount) :
      WritesKeep mode (k :: m :: amount) (Digits.value amount)

theorem exists_writesDice {lexeme : List Char} (h : Kind.dice.Admits lexeme) :
    ∃ count sides, WritesDice lexeme count sides := by
  obtain ⟨count, letter, sides, rfl, hcount, hletter, hsides⟩ := h
  cases count with
  | nil => exact ⟨_, _, .one hletter hsides⟩
  | cons d ds => exact ⟨_, _, .many ⟨by simp, hcount⟩ hletter hsides⟩

theorem exists_writesKeep {mode : KeepMode} {lexeme : List Char} (h : IsKeep mode lexeme) :
    ∃ amount, WritesKeep mode lexeme amount := by
  obtain ⟨k, m, ds, rfl, hk, hm, hds⟩ := h
  exact ⟨_, .intro hk hm hds⟩

/-! ### The numbers that a token gives -/

section

variable {t : Token} {count sides : List Char} {letter : Char}
  (hlexeme : t.lexeme = count ++ letter :: sides) (hcount : ∀ c ∈ count, c.isDigit = true)
  (hletter : isDieLetter letter = true)

include hlexeme hcount hletter

/-- A dice token gives no number of dice just when it starts with its letter. -/
theorem Token.count?_eq :
    t.count? = if count = [] then none else some (Digits.amount count) := by
  rw [Token.count?, hlexeme, (takeWhile_count_append hcount hletter).1]
  cases count <;> rfl

/-- The letter stays with the sides, and does not count. -/
theorem Token.sides_eq : t.sides = Digits.amount sides := by
  have hnone : ∀ c ∈ [letter], c.isDigit = false :=
    List.forall_mem_singleton.2 (not_isDigit_of_isDieLetter hletter)
  rw [Token.sides, hlexeme, (takeWhile_count_append hcount hletter).2]
  exact Digits.amount_append hnone sides

end

/-- The letters of a keep suffix do not count. -/
theorem Token.keepAmount_eq {t : Token} {mode : KeepMode} {k m : Char} {amount : List Char}
    (hlexeme : t.lexeme = k :: m :: amount) (hk : isKeepLetter k = true)
    (hm : keepLetterMode? m = some mode) : t.keepAmount = Digits.amount amount := by
  have hnone : ∀ c ∈ [k, m], c.isDigit = false := by
    rw [List.forall_mem_cons, List.forall_mem_singleton]
    exact ⟨not_isDigit_of_isKeepLetter hk, not_isDigit_of_keepLetterMode? hm⟩
  rw [Token.keepAmount, hlexeme]
  exact Digits.amount_append hnone amount

/-- **A token gives the numbers that its lexeme writes**, up to the cap. -/
theorem count_of_writesDice {t : Token} {count sides : Nat}
    (h : WritesDice t.lexeme count sides) : t.count = min count Digits.greatest := by
  generalize hlexeme : t.lexeme = lexeme at h
  rw [Token.count]
  cases h with
  | one hletter _ =>
    rw [Token.count?_eq (hlexeme.trans (List.nil_append _).symm) (by simp) hletter, if_pos rfl]
    rfl
  | many hcount hletter _ =>
    rw [Token.count?_eq hlexeme hcount.2 hletter, if_neg hcount.1]
    exact Digits.amount_eq hcount.2

theorem sides_of_writesDice {t : Token} {count sides : Nat}
    (h : WritesDice t.lexeme count sides) : t.sides = min sides Digits.greatest := by
  generalize hlexeme : t.lexeme = lexeme at h
  cases h with
  | one hletter hsides =>
    rw [Token.sides_eq (hlexeme.trans (List.nil_append _).symm) (by simp) hletter]
    exact Digits.amount_eq hsides.2
  | many hcount hletter hsides =>
    rw [Token.sides_eq hlexeme hcount.2 hletter]
    exact Digits.amount_eq hsides.2

theorem keepAmount_of_writesKeep {t : Token} {mode : KeepMode} {amount : Nat}
    (h : WritesKeep mode t.lexeme amount) : t.keepAmount = min amount Digits.greatest := by
  generalize hlexeme : t.lexeme = lexeme at h
  cases h with
  | intro hk hm hamount =>
    rw [Token.keepAmount_eq hlexeme hk hm]
    exact Digits.amount_eq hamount.2

/-! ### The cap is out of every range -/

theorem countInRange_min {n : Nat} :
    Group.CountInRange (min n Digits.greatest) ↔ Group.CountInRange n := by
  simp only [Group.CountInRange, Group.minCount, Group.maxCount, Digits.greatest]
  omega

theorem sidesInRange_min {n : Nat} :
    Group.SidesInRange (min n Digits.greatest) ↔ Group.SidesInRange n := by
  simp only [Group.SidesInRange, Group.minSides, Group.maxSides, Digits.greatest]
  omega

theorem keepInRange_min {count n : Nat} (hcount : Group.CountInRange count) :
    Group.KeepInRange count (min n Digits.greatest) ↔ Group.KeepInRange count n := by
  simp only [Group.CountInRange, Group.minCount, Group.maxCount] at hcount
  simp only [Group.KeepInRange, Digits.greatest]
  omega

theorem min_of_countInRange {n : Nat} (h : Group.CountInRange n) : min n Digits.greatest = n := by
  simp only [Group.CountInRange, Group.maxCount] at h
  rw [Digits.greatest]
  omega

theorem min_of_sidesInRange {n : Nat} (h : Group.SidesInRange n) : min n Digits.greatest = n := by
  simp only [Group.SidesInRange, Group.maxSides] at h
  rw [Digits.greatest]
  omega

theorem min_of_keepInRange {count n : Nat} (hcount : Group.CountInRange count)
    (h : Group.KeepInRange count n) : min n Digits.greatest = n := by
  simp only [Group.CountInRange, Group.maxCount] at hcount
  simp only [Group.KeepInRange] at h
  rw [Digits.greatest]
  omega

/-! ## Terms and their tokens -/

/-- The tokens write the term, before which the sign `sign` stands. -/
inductive WritesTerm (sign : Sign) : List Token → Term → Prop
  | dice {t : Token} {count sides : Nat} (hkind : t.kind = .dice)
      (hdice : WritesDice t.lexeme count sides) :
      WritesTerm sign [t] (.dice ⟨sign, count, sides, none⟩ t.span)
  | kept {t u : Token} {count sides amount : Nat} {mode : KeepMode} (hkind : t.kind = .dice)
      (hdice : WritesDice t.lexeme count sides) (hmode : u.kind.keepMode? = some mode)
      (hkeep : WritesKeep mode u.lexeme amount) :
      WritesTerm sign [t, u] (.dice ⟨sign, count, sides, some ⟨mode, amount⟩⟩ t.span)
  | constant {t : Token} (hkind : t.kind = .integer) :
      WritesTerm sign [t] (.constant sign (Digits.value t.lexeme) t.span)

/-- The tokens write the terms, with a sign token between each two.  Before the first stands the
sign `sign`. -/
inductive WritesTerms : Sign → List Token → List Term → Prop
  | last {sign : Sign} {ts : List Token} {term : Term} (h : WritesTerm sign ts term) :
      WritesTerms sign ts [term]
  | more {sign next : Sign} {ts us : List Token} {u : Token} {term : Term} {terms : List Term}
      (h : WritesTerm sign ts term) (hsign : u.kind.sign? = some next)
      (hmore : WritesTerms next us terms) :
      WritesTerms sign (ts ++ u :: us) (term :: terms)

/-- The numbers of the term are within the limits. -/
def Term.Allowed : Term → Prop
  | dice group _ => group.WellFormed
  | constant _ amount _ => (amount : Int) ≤ Total.greatest

/-- The text writes the terms, and they stay within all limits. -/
structure Accepts (text : String) (terms : List Term) : Prop where
  /-- The longest matches in the text write the terms, the first of them without a sign. -/
  writes : ∃ ts, Lexes 0 text.toList ts ∧ WritesTerms .plus ts terms
  /-- Every number is in its range. -/
  allowed : ∀ term ∈ terms, term.Allowed
  /-- There is no second constant. -/
  once : terms.countP Term.isConstant ≤ 1
  /-- There are dice. -/
  rolls : terms.filterMap Term.group? ≠ []

/-! ## Reading one term -/

/-- What a token of the text has for its lexeme is of its kind. -/
def Token.Proper (t : Token) : Prop := t.kind.Admits t.lexeme

theorem Lexes.proper {start : Nat} {cs : List Char} {ts : List Token} (h : Lexes start cs ts) :
    ∀ t ∈ ts, t.Proper := by
  induction h with
  | done => simp
  | skip _ _ ih => exact ih
  | take hmax _ ih => exact List.forall_mem_cons.2 ⟨hmax.admits, ih⟩
  | stray _ _ _ ih => exact List.forall_mem_cons.2 ⟨⟨_, rfl⟩, ih⟩

theorem exists_writesDice_of_proper {t : Token} (h : t.Proper) (hkind : t.kind = .dice) :
    ∃ count sides, WritesDice t.lexeme count sides := by
  rw [Token.Proper, hkind] at h
  exact exists_writesDice h

theorem isKeep_of_proper {t : Token} (h : t.Proper) {mode : KeepMode}
    (hmode : t.kind.keepMode? = some mode) : IsKeep mode t.lexeme := by
  rw [Token.Proper] at h
  cases hk : t.kind <;> rw [hk] at h hmode <;> cases hmode
  · exact h
  · exact h

/-- No keep suffix comes next. -/
def NoKeep (ts : List Token) : Prop := ∀ t ∈ ts.head?, t.kind.keepMode? = none

theorem noKeep_nil : NoKeep [] := by
  intro t ht
  simp at ht

theorem noKeep_cons {t : Token} {ts : List Token} :
    NoKeep (t :: ts) ↔ t.kind.keepMode? = none := by
  rw [NoKeep]
  simp

/-- A keep suffix is read where there is one, and must then be in range. -/
theorem readKeep_eq_ok_iff {count : Nat} {ts after : List Token} {keep : Option Keep} :
    readKeep count ts = .ok (keep, after) ↔
      (NoKeep ts ∧ keep = none ∧ after = ts) ∨
        ∃ t mode, ts = t :: after ∧ t.kind.keepMode? = some mode ∧
          Group.KeepInRange count t.keepAmount ∧ keep = some ⟨mode, t.keepAmount⟩ := by
  cases ts with
  | nil =>
    rw [readKeep]
    simp [noKeep_nil, eq_comm]
  | cons t rest =>
    rw [readKeep, noKeep_cons]
    cases hmode : t.kind.keepMode? with
    | none =>
      simp only [Except.ok.injEq, Prod.mk.injEq, true_and, List.cons.injEq]
      constructor
      · rintro ⟨rfl, rfl⟩
        exact .inl ⟨rfl, rfl⟩
      · rintro (⟨rfl, rfl⟩ | ⟨u, mode, ⟨rfl, -⟩, hmode', -⟩)
        · exact ⟨rfl, rfl⟩
        · rw [hmode] at hmode'
          cases hmode'
    | some mode =>
      by_cases hrange : Group.KeepInRange count t.keepAmount
      · simp only [if_pos hrange, Except.ok.injEq, Prod.mk.injEq, reduceCtorEq, false_and,
          false_or, List.cons.injEq]
        constructor
        · rintro ⟨rfl, rfl⟩
          exact ⟨t, mode, ⟨rfl, rfl⟩, hmode, hrange, rfl⟩
        · rintro ⟨u, mode', ⟨rfl, rfl⟩, hmode', -, rfl⟩
          rw [hmode, Option.some_inj] at hmode'
          exact ⟨by rw [hmode'], rfl⟩
      · simp only [if_neg hrange, reduceCtorEq, false_and, false_or, List.cons.injEq, false_iff]
        rintro ⟨u, mode', ⟨rfl, -⟩, -, hrange', -⟩
        exact hrange hrange'

theorem readDice_eq_ok_iff {sign : Sign} {t : Token} {rest after : List Token} {term : Term} :
    readDice sign t rest = .ok (term, after) ↔
      Group.CountInRange t.count ∧ Group.SidesInRange t.sides ∧
        ∃ keep, readKeep t.count rest = .ok (keep, after) ∧
          term = .dice ⟨sign, t.count, t.sides, keep⟩ t.span := by
  rw [readDice]
  by_cases hcount : Group.CountInRange t.count
  · by_cases hsides : Group.SidesInRange t.sides
    · cases hkeep : readKeep t.count rest with
      | error e => simp [hcount, hsides]
      | ok found =>
        obtain ⟨keep, left⟩ := found
        simp only [hcount, hsides, not_true_eq_false, if_false, Except.ok.injEq, Prod.mk.injEq,
          true_and]
        constructor
        · rintro ⟨rfl, rfl⟩
          exact ⟨keep, ⟨rfl, rfl⟩, rfl⟩
        · rintro ⟨keep', ⟨rfl, rfl⟩, rfl⟩
          exact ⟨rfl, rfl⟩
    · simp [hcount, hsides]
  · simp [hcount]

theorem readConstant_eq_ok_iff {sign : Sign} {taken : Bool} {t : Token} {term : Term} :
    readConstant sign taken t = .ok term ↔
      taken = false ∧ (t.value : Int) ≤ Total.greatest ∧ term = .constant sign t.value t.span := by
  rw [readConstant]
  cases taken with
  | true => simp
  | false =>
    by_cases hlarge : Total.greatest < (t.value : Int)
    · simp [hlarge, Int.not_le.2 hlarge]
    · simp [hlarge, Int.not_lt.1 hlarge, eq_comm]

/-- **What is read as a term is written by the tokens that were used up.** -/
theorem writesTerm_of_readTerm {sign : Sign} {taken : Bool} {t : Token} {rest after : List Token}
    {term : Term} (h : readTerm sign taken t rest = .ok (term, after))
    (hproper : ∀ u ∈ t :: rest, u.Proper) :
    ∃ used, used ++ after = t :: rest ∧ WritesTerm sign used term ∧ term.Allowed ∧
      (taken = true → term.isConstant = false) := by
  rw [readTerm] at h
  split at h
  · next hkind =>
    obtain ⟨hcount, hsides, keep, hkeep, rfl⟩ := readDice_eq_ok_iff.1 h
    have hdice : Kind.dice.Admits t.lexeme := hkind ▸ hproper t (by simp)
    obtain ⟨count, sides, hdice⟩ := exists_writesDice hdice
    have hcount' := count_of_writesDice hdice
    have hsides' := sides_of_writesDice hdice
    rw [hcount', countInRange_min] at hcount
    rw [hsides', sidesInRange_min] at hsides
    rw [min_of_countInRange hcount] at hcount'
    rw [min_of_sidesInRange hsides] at hsides'
    rw [hcount'] at hkeep
    rw [hcount', hsides']
    rcases readKeep_eq_ok_iff.1 hkeep with ⟨-, rfl, rfl⟩ | ⟨u, mode, rfl, hmode, hrange, rfl⟩
    · exact ⟨[t], rfl, .dice hkind hdice, ⟨hcount, hsides, by simp⟩, fun _ => rfl⟩
    · obtain ⟨amount, hamount⟩ := exists_writesKeep (isKeep_of_proper (hproper u (by simp)) hmode)
      have hamount' := keepAmount_of_writesKeep hamount
      rw [hamount', keepInRange_min hcount] at hrange
      rw [hamount', min_of_keepInRange hcount hrange]
      refine ⟨[t, u], rfl, .kept hkind hdice hmode hamount, ⟨hcount, hsides, ?_⟩, fun _ => rfl⟩
      intro k hk
      cases hk
      exact hrange
  · next hkind =>
    cases hconstant : readConstant sign taken t with
    | error e => simp [hconstant, Except.map] at h
    | ok constant =>
      rw [hconstant, Except.map, Except.ok.injEq, Prod.mk.injEq] at h
      obtain ⟨rfl, rfl⟩ := h
      obtain ⟨htaken, hvalue, rfl⟩ := readConstant_eq_ok_iff.1 hconstant
      exact ⟨[t], rfl, .constant hkind, hvalue, fun h => absurd h (by simp [htaken])⟩
  · cases h

/-- **A term within the limits is read whole**, unless a keep suffix follows. -/
theorem readTerm_of_writesTerm {sign : Sign} {taken : Bool} {used after : List Token} {term : Term}
    (h : WritesTerm sign used term) (hallowed : term.Allowed)
    (htaken : term.isConstant = true → taken = false) (hafter : NoKeep after) :
    ∃ t rest, used ++ after = t :: rest ∧ readTerm sign taken t rest = .ok (term, after) := by
  cases h with
  | @dice t count sides hkind hdice =>
    refine ⟨t, after, rfl, ?_⟩
    have hcount := (count_of_writesDice hdice).trans (min_of_countInRange hallowed.count)
    have hsides := (sides_of_writesDice hdice).trans (min_of_sidesInRange hallowed.sides)
    rw [readTerm, hkind]
    refine readDice_eq_ok_iff.2 ⟨hcount ▸ hallowed.count, hsides ▸ hallowed.sides, none, ?_, ?_⟩
    · exact readKeep_eq_ok_iff.2 (.inl ⟨hafter, rfl, rfl⟩)
    · rw [hcount, hsides]
  | @kept t u count sides amount mode hkind hdice hmode hkeep =>
    refine ⟨t, u :: after, rfl, ?_⟩
    have hrange := hallowed.keep _ rfl
    have hcount := (count_of_writesDice hdice).trans (min_of_countInRange hallowed.count)
    have hsides := (sides_of_writesDice hdice).trans (min_of_sidesInRange hallowed.sides)
    have hamount := (keepAmount_of_writesKeep hkeep).trans
      (min_of_keepInRange hallowed.count hrange)
    rw [readTerm, hkind]
    refine readDice_eq_ok_iff.2
      ⟨hcount ▸ hallowed.count, hsides ▸ hallowed.sides, some ⟨mode, amount⟩, ?_, ?_⟩
    · refine readKeep_eq_ok_iff.2 (.inr ⟨u, mode, rfl, hmode, ?_, ?_⟩)
      · rw [hcount, hamount]
        exact hrange
      · rw [hamount]
    · rw [hcount, hsides]
  | @constant t hkind =>
    refine ⟨t, after, rfl, ?_⟩
    have hread : readConstant sign taken t = .ok (.constant sign t.value t.span) :=
      readConstant_eq_ok_iff.2 ⟨htaken rfl, hallowed, rfl⟩
    rw [readTerm, hkind]
    show (readConstant sign taken t).map _ = _
    rw [hread]
    rfl

/-! ## Reading all terms

The walk goes on in one of four ways after the first token, and each has an equation. -/

theorem readTerms_of_error {stop : Nat} {sign : Sign} {taken : Bool} {t : Token}
    {rest : List Token} {e : ParseError} (h : readTerm sign taken t rest = .error e) :
    readTerms stop sign taken (t :: rest) = ⟨[], some e⟩ := by
  rw [readTerms]
  split <;> simp_all

theorem readTerms_last {stop : Nat} {sign : Sign} {taken : Bool} {t : Token} {rest : List Token}
    {term : Term} (h : readTerm sign taken t rest = .ok (term, [])) :
    readTerms stop sign taken (t :: rest) = ⟨[term], none⟩ := by
  rw [readTerms]
  split <;> simp_all

theorem readTerms_stray {stop : Nat} {sign : Sign} {taken : Bool} {t u : Token}
    {rest after : List Token} {term : Term}
    (h : readTerm sign taken t rest = .ok (term, u :: after)) (hsign : u.kind.sign? = none) :
    readTerms stop sign taken (t :: rest) =
      ⟨[term], some (unexpected u.excerpt Kind.signs)⟩ := by
  rw [readTerms]
  split <;> simp_all

theorem readTerms_more {stop : Nat} {sign next : Sign} {taken : Bool} {t u : Token}
    {rest after : List Token} {term : Term}
    (h : readTerm sign taken t rest = .ok (term, u :: after)) (hsign : u.kind.sign? = some next) :
    readTerms stop sign taken (t :: rest) =
      ⟨term :: (readTerms stop next (taken || term.isConstant) after).terms,
        (readTerms stop next (taken || term.isConstant) after).error⟩ := by
  rw [readTerms]
  split <;> simp_all

/-- The number of constants among the terms, and one more if there was one already. -/
def constantCount (taken : Bool) (terms : List Term) : Nat :=
  terms.countP Term.isConstant + taken.toNat

theorem constantCount_cons {taken : Bool} {term : Term} (terms : List Term)
    (h : taken = true → term.isConstant = false) :
    constantCount taken (term :: terms) = constantCount (taken || term.isConstant) terms := by
  rw [constantCount, constantCount, List.countP_cons]
  cases hterm : term.isConstant with
  | false => simp
  | true =>
    cases taken with
    | false => simp
    | true => simp [h rfl] at hterm

theorem not_taken_of_constantCount {taken : Bool} {term : Term} {terms : List Term}
    (h : constantCount taken (term :: terms) ≤ 1) (hterm : term.isConstant = true) :
    taken = false := by
  rw [constantCount, List.countP_cons, if_pos hterm] at h
  cases taken with
  | false => rfl
  | true => rw [Bool.toNat_true] at h; omega

/-- **The terms that are read without an error** are written by the tokens, and are within all
limits. -/
theorem writesTerms_of_readTerms {stop : Nat} {sign : Sign} {taken : Bool} {ts : List Token}
    {terms : List Term} (hproper : ∀ t ∈ ts, t.Proper)
    (h : readTerms stop sign taken ts = ⟨terms, none⟩) :
    WritesTerms sign ts terms ∧ (∀ term ∈ terms, term.Allowed) ∧
      constantCount taken terms ≤ 1 := by
  induction sign, taken, ts using readTerms.induct stop generalizing terms with
  | case1 sign taken =>
    rw [readTerms, Reading.mk.injEq] at h
    cases h.2
  | case2 sign taken t rest e hread =>
    rw [readTerms_of_error hread, Reading.mk.injEq] at h
    cases h.2
  | case3 sign taken t rest term hread =>
    rw [readTerms_last hread, Reading.mk.injEq] at h
    obtain ⟨rfl, -⟩ := h
    obtain ⟨used, happ, hterm, hallowed, htaken⟩ := writesTerm_of_readTerm hread hproper
    rw [List.append_nil] at happ
    subst happ
    refine ⟨.last hterm, by simpa using hallowed, ?_⟩
    rw [constantCount_cons [] htaken, constantCount, List.countP_nil, Nat.zero_add]
    exact Bool.toNat_le _
  | case4 sign taken t rest term u after hread hsign =>
    rw [readTerms_stray hread hsign, Reading.mk.injEq] at h
    cases h.2
  | case5 sign taken t rest term u after hread next hsign ih =>
    rw [readTerms_more hread hsign, Reading.mk.injEq] at h
    obtain ⟨rfl, herror⟩ := h
    obtain ⟨used, happ, hterm, hallowed, htaken⟩ := writesTerm_of_readTerm hread hproper
    have hafter : ∀ v ∈ after, v.Proper := by
      intro v hv
      refine hproper v ?_
      rw [← happ]
      simp [hv]
    obtain ⟨hmore, hallowed', honce⟩ := ih hafter (by rw [← herror])
    refine ⟨happ ▸ .more hterm hsign hmore, List.forall_mem_cons.2 ⟨hallowed, hallowed'⟩, ?_⟩
    rw [constantCount_cons _ htaken]
    exact honce

theorem noKeep_of_sign {u : Token} {next : Sign} (h : u.kind.sign? = some next)
    (after : List Token) : NoKeep (u :: after) := by
  rw [noKeep_cons]
  cases hk : u.kind <;> rw [hk] at h <;> first | rfl | cases h

/-- **Terms within all limits are read from the tokens that write them.** -/
theorem readTerms_of_writesTerms {stop : Nat} {sign : Sign} {taken : Bool} {ts : List Token}
    {terms : List Term} (h : WritesTerms sign ts terms) (hallowed : ∀ term ∈ terms, term.Allowed)
    (honce : constantCount taken terms ≤ 1) :
    readTerms stop sign taken ts = ⟨terms, none⟩ := by
  induction h generalizing taken with
  | @last sign ts term h =>
    obtain ⟨t, rest, happ, hread⟩ :=
      readTerm_of_writesTerm h (hallowed term (by simp)) (not_taken_of_constantCount honce)
        noKeep_nil
    rw [List.append_nil] at happ
    rw [happ, readTerms_last hread]
  | @more sign next ts us u term terms h hsign hmore ih =>
    have htaken := not_taken_of_constantCount honce
    obtain ⟨t, rest, happ, hread⟩ :=
      readTerm_of_writesTerm h (hallowed term (by simp)) htaken (noKeep_of_sign hsign us)
    rw [constantCount_cons _ fun ht => by simpa [ht] using htaken] at honce
    have hothers := ih (fun x hx => hallowed x (by simp [hx])) honce
    rw [happ, readTerms_more hread hsign, hothers]

/-! ## Reading a text -/

theorem isBlank_of_isDigit {c : Char} (h : c.isDigit = true) : Text.isBlank c = false := by
  obtain ⟨hlow, hhigh⟩ := Char.isDigit_iff_toNat.1 h
  have hlow : 48 ≤ c.toNat := hlow
  have hhigh : c.toNat ≤ 57 := hhigh
  simp only [Text.isBlank, Text.inRanges, Text.blankRanges, List.any_cons, List.any_nil,
    Bool.or_false, Bool.or_eq_false_iff, Bool.and_eq_false_iff, decide_eq_false_iff_not]
  omega

theorem WritesTerm.exists_digit {sign : Sign} {ts : List Token} {term : Term}
    (h : WritesTerm sign ts term) (hproper : ∀ t ∈ ts, t.Proper) :
    ∃ t ∈ ts, ∃ c ∈ t.lexeme, c.isDigit = true := by
  have hdigits : ∀ {ds : List Char}, IsDigits ds → ∃ c ∈ ds, c.isDigit = true := by
    rintro ds ⟨hne, hds⟩
    obtain ⟨c, cs, rfl⟩ := List.exists_cons_of_ne_nil hne
    exact ⟨c, by simp, hds c (by simp)⟩
  have hdice : ∀ {t : Token} {count sides : Nat}, WritesDice t.lexeme count sides →
      ∃ c ∈ t.lexeme, c.isDigit = true := by
    intro t count sides h
    generalize t.lexeme = lexeme at h
    cases h with
    | one _ hsides =>
      obtain ⟨c, hc, hdigit⟩ := hdigits hsides
      exact ⟨c, by simp [hc], hdigit⟩
    | many _ _ hsides =>
      obtain ⟨c, hc, hdigit⟩ := hdigits hsides
      exact ⟨c, by simp [hc], hdigit⟩
  cases h with
  | dice hkind h => exact ⟨_, by simp, hdice h⟩
  | kept hkind h _ _ => exact ⟨_, by simp, hdice h⟩
  | @constant t hkind =>
    have ht : Kind.integer.Admits t.lexeme := hkind ▸ hproper t (by simp)
    exact ⟨t, by simp, hdigits ht⟩

theorem Lexes.mem_of_mem_lexeme {start : Nat} {cs : List Char} {ts : List Token}
    (h : Lexes start cs ts) {t : Token} (ht : t ∈ ts) {c : Char} (hc : c ∈ t.lexeme) : c ∈ cs := by
  induction h with
  | done => simp at ht
  | skip _ _ ih => exact List.mem_cons_of_mem _ (ih ht)
  | take hmax _ ih =>
    rw [← hmax.append, List.mem_append]
    rcases List.mem_cons.1 ht with rfl | ht
    · exact .inl hc
    · exact .inr (ih ht)
  | stray _ _ _ ih =>
    rcases List.mem_cons.1 ht with rfl | ht
    · exact List.mem_singleton.1 hc ▸ List.mem_cons_self
    · exact List.mem_cons_of_mem _ (ih ht)

/-- A text with a term in it is not blank: there is a digit. -/
theorem trim_ne_empty {text : String} {ts : List Token} {sign : Sign} {terms : List Term}
    (hlexes : Lexes 0 text.toList ts) (hwrites : WritesTerms sign ts terms) :
    Text.trim text ≠ "" := by
  have hdigit : ∃ t ∈ ts, ∃ c ∈ t.lexeme, c.isDigit = true := by
    cases hwrites with
    | last h => exact h.exists_digit hlexes.proper
    | more h _ _ =>
      obtain ⟨t, ht, hc⟩ := h.exists_digit fun t ht => hlexes.proper t (by simp [ht])
      exact ⟨t, by simp [ht], hc⟩
  obtain ⟨t, ht, c, hc, hdigit⟩ := hdigit
  exact Text.trim_ne_empty_of_mem (hlexes.mem_of_mem_lexeme ht hc) (isBlank_of_isDigit hdigit)

theorem ofText_of_lexes {text : String} {ts : List Token} (hblank : Text.trim text ≠ "")
    (h : Lexes 0 text.toList ts) :
    Reading.ofText text = readTerms text.utf8ByteSize .plus false ts := by
  rw [Reading.ofText, if_neg hblank, tokens, ← lexes_iff.1 h]

/-- **The walk accepts what the grammar accepts.** -/
theorem ofText_eq_iff {text : String} {terms : List Term} :
    Reading.ofText text = ⟨terms, none⟩ ∧ terms.filterMap Term.group? ≠ [] ↔
      Accepts text terms := by
  rw [Reading.ofText]
  constructor
  · rintro ⟨h, hrolls⟩
    split at h
    · rw [Reading.mk.injEq] at h
      cases h.2
    · have hlexes := lexes_tokensFrom 0 text.toList
      obtain ⟨hwrites, hallowed, honce⟩ := writesTerms_of_readTerms hlexes.proper h
      exact ⟨⟨_, hlexes, hwrites⟩, hallowed, honce, hrolls⟩
  · rintro ⟨⟨ts, hlexes, hwrites⟩, hallowed, honce, hrolls⟩
    refine ⟨?_, hrolls⟩
    rw [if_neg (trim_ne_empty hlexes hwrites), tokens, ← lexes_iff.1 hlexes]
    exact readTerms_of_writesTerms hwrites hallowed honce

theorem countP_isConstant (terms : List Term) :
    terms.countP Term.isConstant = (terms.filterMap Term.constant?).length := by
  rw [List.length_filterMap_eq_countP]
  congr 1
  funext term
  cases term <;> rfl

/-- Where there is no second constant, the first one is the sum of all. -/
theorem constant_eq_sum {terms : List Term} (honce : terms.countP Term.isConstant ≤ 1) :
    (terms.findSome? Term.constant?).getD 0 = (terms.filterMap Term.constant?).sum := by
  induction terms with
  | nil => rfl
  | cons term terms ih =>
    cases term with
    | dice group span =>
      rw [List.countP_cons, if_neg (by simp [Term.isConstant]), Nat.add_zero] at honce
      exact ih honce
    | constant sign amount span =>
      rw [List.countP_cons, if_pos (by simp [Term.isConstant])] at honce
      have hnil : terms.filterMap Term.constant? = [] := by
        rw [← List.length_eq_zero_iff, ← countP_isConstant]
        omega
      rw [List.findSome?_cons, List.filterMap_cons]
      simp [Term.constant?, hnil]

theorem formula_eq_ok_iff {r : Reading} {f : Formula} :
    r.formula = .ok f ↔ r.error = none ∧ f.groups = r.groups ∧ f.constant = r.constant := by
  obtain ⟨groups, constant, hne⟩ := f
  rw [Reading.formula]
  split
  · next e herror => simp [herror]
  · next herror =>
    split
    · next hnil => simp [hnil, hne]
    · simp [herror, eq_comm]

theorem parse_eq_ok_iff {text : String} {w : Written} :
    parse text = .ok w ↔
      (Reading.ofText text).formula = .ok w.toFormula ∧ w.raw = Text.trim text := by
  obtain ⟨f, raw⟩ := w
  rw [parse]
  cases (Reading.ofText text).formula with
  | error e => simp [Except.map]
  | ok g => simp [Except.map, eq_comm]

theorem formula_eq_error_iff {r : Reading} {e : ParseError} :
    r.formula = .error e ↔ r.error = some e ∨ (e = .noDice ∧ r.error = none ∧ r.groups = []) := by
  rw [Reading.formula]
  split
  · next e' herror => simp [herror]
  · next herror =>
    split
    · next hnil => simp [herror, hnil, eq_comm]
    · next hne => simp [herror, hne]

theorem parse_eq_error_iff_formula {text : String} {e : ParseError} :
    parse text = .error e ↔ (Reading.ofText text).formula = .error e := by
  rw [parse]
  cases (Reading.ofText text).formula with
  | error e' => simp [Except.map]
  | ok f => simp [Except.map]

theorem exists_accepts_of_parse {text : String} {w : Written} (h : parse text = .ok w) :
    ∃ terms, Accepts text terms ∧ w.groups = terms.filterMap Term.group? ∧
      w.constant = (terms.filterMap Term.constant?).sum ∧ w.raw = Text.trim text := by
  obtain ⟨hformula, hraw⟩ := parse_eq_ok_iff.1 h
  obtain ⟨herror, hgroups, hconstant⟩ := formula_eq_ok_iff.1 hformula
  have haccepts : Accepts text (Reading.ofText text).terms := by
    refine ofText_eq_iff.1 ⟨by rw [← herror], ?_⟩
    show (Reading.ofText text).groups ≠ []
    rw [← hgroups]
    exact w.groups_ne_nil
  exact ⟨_, haccepts, hgroups, hconstant.trans (constant_eq_sum haccepts.once), hraw⟩

theorem parse_of_accepts {text : String} {terms : List Term} {w : Written}
    (h : Accepts text terms) (hgroups : w.groups = terms.filterMap Term.group?)
    (hconstant : w.constant = (terms.filterMap Term.constant?).sum)
    (hraw : w.raw = Text.trim text) : parse text = .ok w := by
  refine parse_eq_ok_iff.2 ⟨formula_eq_ok_iff.2 ?_, hraw⟩
  rw [(ofText_eq_iff.2 h).1]
  exact ⟨rfl, hgroups, hconstant.trans (constant_eq_sum h.once).symm⟩

/-- **What `parse` accepts and how it reads it.**  A text is read exactly where its longest matches
write terms within the limits; the formula then has the groups of these terms in order and their
constant, zero if there is none, and the spelling is the text without the blanks at its ends. -/
theorem parse_eq_ok_iff_accepts {text : String} {w : Written} :
    parse text = .ok w ↔
      ∃ terms, Accepts text terms ∧ w.groups = terms.filterMap Term.group? ∧
        w.constant = (terms.filterMap Term.constant?).sum ∧ w.raw = Text.trim text := by
  constructor
  · exact exists_accepts_of_parse
  · rintro ⟨terms, haccepts, hgroups, hconstant, hraw⟩
    exact parse_of_accepts haccepts hgroups hconstant hraw

end Dicebag
