import Mathlib.Data.List.Induction
import Dicebag.Proofs.Formula.Grammar

/-!
# Reading token by token

`readTerms` takes one term after another off the tokens, and looks ahead for a keep suffix and for a
sign while it does.  Here the same reading is done token by token.  A `Walk` is what has been
accepted so far together with the `Stage` that the reading is at, and every token either takes the
walk to another stage or stops it.

* `Walk.step` is what one token does.  `Walk.Goes` and `Walk.Stops` list the ways in which that can
  come out, one constructor each, and between them they cover every walk and every token
  (`Walk.goes_or_stops`).
* `Walk.run` repeats the step, and `readTerms_eq_run` says that this is `readTerms`.
* `Reaches before w` says that the tokens `before` take the walk from its start to `w`.  From there
  it does not matter how it got there (`Reaches.run_append`), so what stops a walk stops it whatever
  comes afterwards (`readTerms_of_stops`).
-/

set_option autoImplicit false

namespace Dicebag

/-! ## Walks -/

/-- Where a walk stands between two tokens. -/
inductive Stage
  /-- A term has to follow; this is its sign. -/
  | opening (sign : Sign)
  /-- A group has been read so far without a keep suffix, which may follow. -/
  | group (group : Group) (span : Span)
  /-- A term has been read to its end. -/
  | closed
deriving DecidableEq, Repr

/-- A term has been read, so the text may end here. -/
def Stage.Ended : Stage → Prop
  | opening _ => False
  | group .. => True
  | closed => True

/-- A walk over the tokens of a text. -/
structure Walk where
  /-- The terms that have been read to their ends. -/
  terms : List Term
  /-- Where the walk stands. -/
  stage : Stage
deriving DecidableEq, Repr

namespace Walk

/-- A walk before the first token. -/
def start : Walk := ⟨[], .opening .plus⟩

/-- There was a constant already. -/
def taken (w : Walk) : Bool := w.terms.any Term.isConstant

/-- The terms that have been read to their ends when the token `t` comes next; unless it is a keep
suffix, the group before it is one of them. -/
def accepted (w : Walk) (t : Token) : List Term :=
  match w.stage with
  | .group group span =>
    match t.kind.keepMode? with
    | none => w.terms ++ [.dice group span]
    | some _ => w.terms
  | _ => w.terms

/-- What a token does where a term has to follow. -/
def stepTerm (w : Walk) (sign : Sign) (t : Token) : Except ParseError Walk :=
  match t.kind with
  | .dice =>
    if ¬Group.CountInRange t.count then .error (.countOutOfRange t.excerpt t.count)
    else if ¬Group.SidesInRange t.sides then .error (.sidesOutOfRange t.excerpt t.sides)
    else .ok ⟨w.terms, .group ⟨sign, t.count, t.sides, none⟩ t.span⟩
  | .integer => (readConstant sign w.taken t).map fun term => ⟨w.terms ++ [term], .closed⟩
  | _ => .error (unexpected t.excerpt Kind.terms)

/-- What a token does where a sign has to follow. -/
def stepSign (w : Walk) (t : Token) : Except ParseError Walk :=
  match t.kind.sign? with
  | some sign => .ok ⟨w.accepted t, .opening sign⟩
  | none => .error (unexpected t.excerpt Kind.signs)

/-- What a token does to a walk. -/
def step (w : Walk) (t : Token) : Except ParseError Walk :=
  match w.stage with
  | .opening sign => w.stepTerm sign t
  | .group group span =>
    match t.kind.keepMode? with
    | none => w.stepSign t
    | some mode =>
      if Group.KeepInRange group.count t.keepAmount then
        .ok ⟨w.terms ++ [.dice { group with keep := some ⟨mode, t.keepAmount⟩ } span], .closed⟩
      else .error (.keepOutOfRange t.excerpt t.keepAmount group.count)
  | .closed => w.stepSign t

/-- What has been read when the text ends, after `stop` bytes. -/
def finish (stop : Nat) (w : Walk) : Reading :=
  match w.stage with
  | .opening _ => ⟨w.terms, some (unexpected (.emptyAt stop) Kind.terms)⟩
  | .group group span => ⟨w.terms ++ [.dice group span], none⟩
  | .closed => ⟨w.terms, none⟩

/-- Goes over the tokens of a text of `stop` bytes, up to the first that stops the walk. -/
def run (stop : Nat) (w : Walk) : List Token → Reading
  | [] => w.finish stop
  | t :: ts =>
    match w.step t with
    | .error e => ⟨w.accepted t, some e⟩
    | .ok w' => w'.run stop ts

theorem run_of_ok {stop : Nat} {w w' : Walk} {t : Token} (h : w.step t = .ok w')
    (ts : List Token) : w.run stop (t :: ts) = w'.run stop ts := by
  rw [run, h]

theorem run_of_error {stop : Nat} {w : Walk} {t : Token} {e : ParseError}
    (h : w.step t = .error e) (ts : List Token) :
    w.run stop (t :: ts) = ⟨w.accepted t, some e⟩ := by
  rw [run, h]

/-- Only dice and integers start a term. -/
theorem stepTerm_of_ne (w : Walk) (sign : Sign) {t : Token} (hdice : t.kind ≠ .dice)
    (hinteger : t.kind ≠ .integer) :
    w.stepTerm sign t = .error (unexpected t.excerpt Kind.terms) := by
  rw [stepTerm]
  split
  · next hkind => exact absurd hkind hdice
  · next hkind => exact absurd hkind hinteger
  · rfl

/-! ## The walk reads what `readTerms` reads -/

/-- A group that no keep suffix follows is a term. -/
theorem run_group {stop : Nat} {terms : List Term} {group : Group} {span : Span}
    {ts : List Token} (h : NoKeep ts) :
    run stop ⟨terms, .group group span⟩ ts =
      run stop ⟨terms ++ [.dice group span], .closed⟩ ts := by
  cases ts with
  | nil => rfl
  | cons t ts =>
    have hnone := noKeep_cons.1 h
    simp only [run, step, stepSign, accepted, hnone]

theorem run_of_readTerm_ok {stop : Nat} {terms : List Term} {sign : Sign} {t : Token}
    {rest after : List Token} {term : Term}
    (h : readTerm sign (terms.any Term.isConstant) t rest = .ok (term, after)) :
    run stop ⟨terms, .opening sign⟩ (t :: rest) = run stop ⟨terms ++ [term], .closed⟩ after := by
  rw [readTerm] at h
  split at h
  · next hkind =>
    obtain ⟨hcount, hsides, keep, hkeep, rfl⟩ := readDice_eq_ok_iff.1 h
    have hstep : step ⟨terms, .opening sign⟩ t =
        .ok ⟨terms, .group ⟨sign, t.count, t.sides, none⟩ t.span⟩ := by
      simp [step, stepTerm, hkind, hcount, hsides]
    rw [run_of_ok hstep]
    rcases readKeep_eq_ok_iff.1 hkeep with ⟨hnone, rfl, rfl⟩ | ⟨u, mode, rfl, hmode, hrange, rfl⟩
    · exact run_group hnone
    · refine run_of_ok ?_ after
      simp [step, hmode, hrange]
  · next hkind =>
    cases hconstant : readConstant sign (terms.any Term.isConstant) t with
    | error e => simp [hconstant, Except.map] at h
    | ok constant =>
      rw [hconstant, Except.map, Except.ok.injEq, Prod.mk.injEq] at h
      obtain ⟨rfl, rfl⟩ := h
      refine run_of_ok ?_ rest
      simp [step, stepTerm, hkind, taken, hconstant, Except.map]
  · cases h

/-- The only keep suffix that is refused is one out of range. -/
theorem exists_keep_of_readKeep_error {count : Nat} {ts : List Token} {e : ParseError}
    (h : readKeep count ts = .error e) :
    ∃ u rest mode, ts = u :: rest ∧ u.kind.keepMode? = some mode ∧
      ¬Group.KeepInRange count u.keepAmount ∧
      e = .keepOutOfRange u.excerpt u.keepAmount count := by
  cases ts with
  | nil => cases h
  | cons u rest =>
    rw [readKeep] at h
    split at h
    · cases h
    · next mode hmode =>
      split at h
      · cases h
      · next hrange =>
        cases h
        exact ⟨u, rest, mode, rfl, hmode, hrange, rfl⟩

theorem run_of_readTerm_error {stop : Nat} {terms : List Term} {sign : Sign} {t : Token}
    {rest : List Token} {e : ParseError}
    (h : readTerm sign (terms.any Term.isConstant) t rest = .error e) :
    run stop ⟨terms, .opening sign⟩ (t :: rest) = ⟨terms, some e⟩ := by
  rw [readTerm] at h
  split at h
  · next hkind =>
    rw [readDice] at h
    split at h
    · next hcount =>
      cases h
      refine run_of_error ?_ rest
      simp [step, stepTerm, hkind, hcount]
    · next hcount =>
      rw [not_not] at hcount
      split at h
      · next hsides =>
        cases h
        refine run_of_error ?_ rest
        simp [step, stepTerm, hkind, hcount, hsides]
      · next hsides =>
        rw [not_not] at hsides
        split at h
        · next hkeep =>
          cases h
          obtain ⟨u, after, mode, rfl, hmode, hrange, rfl⟩ := exists_keep_of_readKeep_error hkeep
          have hstep : step ⟨terms, .opening sign⟩ t =
              .ok ⟨terms, .group ⟨sign, t.count, t.sides, none⟩ t.span⟩ := by
            simp [step, stepTerm, hkind, hcount, hsides]
          rw [run_of_ok hstep, run_of_error (e := .keepOutOfRange u.excerpt u.keepAmount t.count)]
          · simp [accepted, hmode]
          · simp [step, hmode, hrange]
        · cases h
  · next hkind =>
    cases hconstant : readConstant sign (terms.any Term.isConstant) t with
    | ok constant => simp [hconstant, Except.map] at h
    | error e' =>
      rw [hconstant, Except.map, Except.error.injEq] at h
      subst h
      refine run_of_error ?_ rest
      simp [step, stepTerm, hkind, taken, hconstant, Except.map]
  · next hdice hinteger =>
    cases h
    have hstep : step ⟨terms, .opening sign⟩ t = .error (unexpected t.excerpt Kind.terms) :=
      stepTerm_of_ne _ sign hdice hinteger
    exact run_of_error hstep rest

/-- **The walk reads what `readTerms` reads**, after the terms that it has read already. -/
theorem run_opening (stop : Nat) (sign : Sign) (terms : List Term) (ts : List Token) :
    run stop ⟨terms, .opening sign⟩ ts =
      ⟨terms ++ (readTerms stop sign (terms.any Term.isConstant) ts).terms,
        (readTerms stop sign (terms.any Term.isConstant) ts).error⟩ := by
  generalize htaken : terms.any Term.isConstant = taken
  induction sign, taken, ts using readTerms.induct stop generalizing terms with
  | case1 sign taken =>
    rw [readTerms, List.append_nil]
    rfl
  | case2 sign taken t rest e hread =>
    rw [readTerms_of_error hread, List.append_nil]
    exact run_of_readTerm_error (htaken ▸ hread)
  | case3 sign taken t rest term hread =>
    rw [readTerms_last hread, run_of_readTerm_ok (htaken ▸ hread)]
    rfl
  | case4 sign taken t rest term u after hread hsign =>
    rw [readTerms_stray hread hsign, run_of_readTerm_ok (htaken ▸ hread)]
    refine run_of_error ?_ after
    simp [step, stepSign, hsign]
  | case5 sign taken t rest term u after hread next hsign ih =>
    have hstep : step ⟨terms ++ [term], .closed⟩ u = .ok ⟨terms ++ [term], .opening next⟩ := by
      simp [step, stepSign, hsign, accepted]
    have hany : (terms ++ [term]).any Term.isConstant = (taken || term.isConstant) := by
      rw [List.any_append, htaken, List.any_cons, List.any_nil, Bool.or_false]
    rw [readTerms_more hread hsign, run_of_readTerm_ok (htaken ▸ hread), run_of_ok hstep,
      ih _ hany]
    simp

theorem readTerms_eq_run (stop : Nat) (ts : List Token) :
    readTerms stop .plus false ts = start.run stop ts := (run_opening stop .plus [] ts).symm

/-! ## How a token comes out -/

/-- The token takes the walk on to another stage. -/
inductive Goes (w : Walk) (t : Token) : Walk → Prop
  /-- It starts a group. -/
  | dice {sign : Sign} (hstage : w.stage = .opening sign) (hkind : t.kind = .dice)
      (hcount : Group.CountInRange t.count) (hsides : Group.SidesInRange t.sides) :
      Goes w t ⟨w.terms, .group ⟨sign, t.count, t.sides, none⟩ t.span⟩
  /-- It is the constant. -/
  | constant {sign : Sign} (hstage : w.stage = .opening sign) (hkind : t.kind = .integer)
      (htaken : w.taken = false) (hvalue : (t.value : Int) ≤ Total.greatest) :
      Goes w t ⟨w.terms ++ [.constant sign t.value t.span], .closed⟩
  /-- It is the keep suffix of a group. -/
  | keep {group : Group} {span : Span} {mode : KeepMode} (hstage : w.stage = .group group span)
      (hmode : t.kind.keepMode? = some mode) (hrange : Group.KeepInRange group.count t.keepAmount) :
      Goes w t
        ⟨w.terms ++ [.dice { group with keep := some ⟨mode, t.keepAmount⟩ } span], .closed⟩
  /-- It is the sign before the next term. -/
  | sign {sign : Sign} (hstage : w.stage.Ended) (hsign : t.kind.sign? = some sign) :
      Goes w t ⟨w.accepted t, .opening sign⟩

/-- The token stops the walk with an error. -/
inductive Stops (w : Walk) (t : Token) : ParseError → Prop
  /-- It starts no term. -/
  | term {sign : Sign} (hstage : w.stage = .opening sign) (hdice : t.kind ≠ .dice)
      (hinteger : t.kind ≠ .integer) : Stops w t (unexpected t.excerpt Kind.terms)
  /-- It has too few or too many dice. -/
  | count {sign : Sign} (hstage : w.stage = .opening sign) (hkind : t.kind = .dice)
      (hcount : ¬Group.CountInRange t.count) : Stops w t (.countOutOfRange t.excerpt t.count)
  /-- It has too few or too many sides. -/
  | sides {sign : Sign} (hstage : w.stage = .opening sign) (hkind : t.kind = .dice)
      (hcount : Group.CountInRange t.count) (hsides : ¬Group.SidesInRange t.sides) :
      Stops w t (.sidesOutOfRange t.excerpt t.sides)
  /-- It is a second constant. -/
  | second {sign : Sign} (hstage : w.stage = .opening sign) (hkind : t.kind = .integer)
      (htaken : w.taken = true) : Stops w t (.secondConstant t.excerpt)
  /-- It is a constant that is too large. -/
  | large {sign : Sign} (hstage : w.stage = .opening sign) (hkind : t.kind = .integer)
      (htaken : w.taken = false) (hvalue : Total.greatest < (t.value : Int)) :
      Stops w t (.constantTooLarge t.excerpt)
  /-- It keeps no dice, or too many. -/
  | keep {group : Group} {span : Span} {mode : KeepMode} (hstage : w.stage = .group group span)
      (hmode : t.kind.keepMode? = some mode)
      (hrange : ¬Group.KeepInRange group.count t.keepAmount) :
      Stops w t (.keepOutOfRange t.excerpt t.keepAmount group.count)
  /-- It is no sign. -/
  | sign (hstage : w.stage.Ended)
      (hkeep : ∀ group span, w.stage = .group group span → t.kind.keepMode? = none)
      (hsign : t.kind.sign? = none) : Stops w t (unexpected t.excerpt Kind.signs)

theorem keepMode?_of_sign {t : Token} {sign : Sign} (h : t.kind.sign? = some sign) :
    t.kind.keepMode? = none := noKeep_cons.1 (noKeep_of_sign h [])

theorem Goes.step_eq {w w' : Walk} {t : Token} (h : w.Goes t w') : w.step t = .ok w' := by
  cases h with
  | dice hstage hkind hcount hsides => simp [step, stepTerm, hstage, hkind, hcount, hsides]
  | constant hstage hkind htaken hvalue =>
    simp [step, stepTerm, hstage, hkind, htaken, readConstant, Int.not_lt.2 hvalue, Except.map]
  | keep hstage hmode hrange => simp [step, hstage, hmode, hrange]
  | sign hstage hsign =>
    have hkeep := keepMode?_of_sign hsign
    rw [step]
    split
    · next heq => simp [heq, Stage.Ended] at hstage
    · simp [hkeep, stepSign, hsign]
    · simp [stepSign, hsign]

theorem Stops.step_eq {w : Walk} {t : Token} {e : ParseError} (h : w.Stops t e) :
    w.step t = .error e := by
  cases h with
  | term hstage hdice hinteger =>
    rw [step, hstage]
    exact stepTerm_of_ne w _ hdice hinteger
  | count hstage hkind hcount => simp [step, stepTerm, hstage, hkind, hcount]
  | sides hstage hkind hcount hsides => simp [step, stepTerm, hstage, hkind, hcount, hsides]
  | second hstage hkind htaken =>
    simp [step, stepTerm, hstage, hkind, htaken, readConstant, Except.map]
  | large hstage hkind htaken hvalue =>
    simp [step, stepTerm, hstage, hkind, htaken, readConstant, hvalue, Except.map]
  | keep hstage hmode hrange => simp [step, hstage, hmode, hrange]
  | sign hstage hkeep hsign =>
    rw [step]
    split
    · next heq => simp [heq, Stage.Ended] at hstage
    · next heq => simp [hkeep _ _ heq, stepSign, hsign]
    · simp [stepSign, hsign]

/-- Where a sign has to follow, a token is one or it stops the walk. -/
theorem goes_or_stops_sign {w : Walk} {t : Token} (hstage : w.stage.Ended)
    (hkeep : ∀ group span, w.stage = .group group span → t.kind.keepMode? = none) :
    (∃ w', w.Goes t w') ∨ ∃ e, w.Stops t e := by
  cases hsign : t.kind.sign? with
  | none => exact .inr ⟨_, .sign hstage hkeep hsign⟩
  | some sign => exact .inl ⟨_, .sign hstage hsign⟩

/-- **A token takes a walk on or stops it.** -/
theorem goes_or_stops (w : Walk) (t : Token) : (∃ w', w.Goes t w') ∨ ∃ e, w.Stops t e := by
  cases hstage : w.stage with
  | opening sign =>
    by_cases hdice : t.kind = .dice
    · by_cases hcount : Group.CountInRange t.count
      · by_cases hsides : Group.SidesInRange t.sides
        · exact .inl ⟨_, .dice hstage hdice hcount hsides⟩
        · exact .inr ⟨_, .sides hstage hdice hcount hsides⟩
      · exact .inr ⟨_, .count hstage hdice hcount⟩
    · by_cases hinteger : t.kind = .integer
      · cases htaken : w.taken with
        | true => exact .inr ⟨_, .second hstage hinteger htaken⟩
        | false =>
          by_cases hvalue : (t.value : Int) ≤ Total.greatest
          · exact .inl ⟨_, .constant hstage hinteger htaken hvalue⟩
          · exact .inr ⟨_, .large hstage hinteger htaken (Int.not_le.1 hvalue)⟩
      · exact .inr ⟨_, .term hstage hdice hinteger⟩
  | group group span =>
    cases hmode : t.kind.keepMode? with
    | none => exact goes_or_stops_sign (by rw [hstage]; trivial) fun _ _ _ => hmode
    | some mode =>
      by_cases hrange : Group.KeepInRange group.count t.keepAmount
      · exact .inl ⟨_, .keep hstage hmode hrange⟩
      · exact .inr ⟨_, .keep hstage hmode hrange⟩
  | closed =>
    refine goes_or_stops_sign (by rw [hstage]; trivial) fun group span heq => ?_
    rw [hstage] at heq
    cases heq

end Walk

/-! ## Walking from the start -/

/-- The tokens take a walk from its start to `w`. -/
inductive Reaches : List Token → Walk → Prop
  | start : Reaches [] .start
  | snoc {before : List Token} {t : Token} {w w' : Walk} (h : Reaches before w)
      (hgoes : w.Goes t w') : Reaches (before ++ [t]) w'

/-- **A walk goes on from where it is**, however it came there. -/
theorem Reaches.run_append {before : List Token} {w : Walk} (h : Reaches before w) (stop : Nat)
    (ts : List Token) : Walk.start.run stop (before ++ ts) = w.run stop ts := by
  induction h generalizing ts with
  | start => rfl
  | snoc _ hgoes ih =>
    rw [List.append_assoc, List.singleton_append, ih, Walk.run_of_ok hgoes.step_eq]

/-- **The tokens are walked over to the end, or one of them stops the walk.** -/
theorem reaches_or_stops (ts : List Token) :
    (∃ w, Reaches ts w) ∨ ∃ before t after w e, ts = before ++ t :: after ∧ Reaches before w ∧
      w.Stops t e := by
  induction ts using List.reverseRecOn with
  | nil => exact .inl ⟨_, .start⟩
  | append_singleton ts t ih =>
    rcases ih with ⟨w, hw⟩ | ⟨before, u, after, w, e, rfl, hw, hstops⟩
    · rcases w.goes_or_stops t with ⟨w', hgoes⟩ | ⟨e, hstops⟩
      · exact .inl ⟨w', .snoc hw hgoes⟩
      · exact .inr ⟨ts, t, [], w, e, rfl, hw, hstops⟩
    · exact .inr ⟨before, u, after ++ [t], w, e, by simp, hw, hstops⟩

/-- What stops a walk stops it whatever comes afterwards. -/
theorem readTerms_of_stops {before : List Token} {w : Walk} {t : Token} {e : ParseError}
    (h : Reaches before w) (hstops : w.Stops t e) (stop : Nat) (after : List Token) :
    readTerms stop .plus false (before ++ t :: after) = ⟨w.accepted t, some e⟩ := by
  rw [Walk.readTerms_eq_run, h.run_append, Walk.run_of_error hstops.step_eq]

theorem readTerms_of_reaches {ts : List Token} {w : Walk} (h : Reaches ts w) (stop : Nat) :
    readTerms stop .plus false ts = w.finish stop := by
  have hrun := h.run_append stop []
  rw [List.append_nil] at hrun
  rw [Walk.readTerms_eq_run, hrun, Walk.run]

end Dicebag
