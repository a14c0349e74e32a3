import Dicebag.Log
import Dicebag.ParseError
import Dicebag.Token.Split

/-!
# Reading formulas

A formula is a sequence of terms with signs between them.  A term is a dice token, which a keep
suffix may follow, or an integer, of which there may be only one.

`readTerms` walks over the tokens once, from left to right.  It collects the terms that it accepts
and stops at the first token that does not fit, so what it returns is a list of terms and perhaps an
error.  Both results of reading come from there: the terms are what the log records, one record
each, and where there was no error they make up the formula.

* `parse` reads a text into a formula or says why it is none.
* `parseLogged` also has the log.
-/

set_option autoImplicit false

namespace Dicebag

/-! ## Terms -/

/-- An accepted term and the span of its first token. -/
inductive Term
  /-- A dice group. -/
  | dice (group : Group) (span : Span)
  /-- A constant. -/
  | constant (sign : Sign) (amount : Nat) (span : Span)
deriving DecidableEq, Repr

namespace Term

/-- The term is a constant. -/
def isConstant : Term → Bool
  | dice .. => false
  | constant .. => true

/-- The group of a dice term. -/
def group? : Term → Option Group
  | dice group _ => some group
  | constant .. => none

/-- The value of a constant term, with its sign. -/
def constant? : Term → Option Int
  | dice .. => none
  | constant sign amount _ => some (sign.apply amount)

/-- What the log says of the term. -/
def event : Term → Event
  | dice group span => .readGroup group span
  | constant sign amount span => .readConstant sign amount span

end Term

/-- Some other token stands where one of these kinds should. -/
def unexpected (place : Excerpt) (kinds : List Kind) : ParseError :=
  .unexpected place (kinds.map Kind.label)

/-- Reads the keep suffix of a group, if there is one: what it keeps, and the tokens after it. -/
def readKeep (count : Nat) (ts : List Token) : Except ParseError (Option Keep × List Token) :=
  match ts with
  | [] => .ok (none, [])
  | t :: rest =>
    match t.kind.keepMode? with
    | none => .ok (none, ts)
    | some mode =>
      if Group.KeepInRange count t.keepAmount then .ok (some ⟨mode, t.keepAmount⟩, rest)
      else .error (.keepOutOfRange t.excerpt t.keepAmount count)

/-- Reads a dice group that starts with the dice token `t`: the term, and the tokens after it. -/
def readDice (sign : Sign) (t : Token) (rest : List Token) :
    Except ParseError (Term × List Token) :=
  if ¬Group.CountInRange t.count then .error (.countOutOfRange t.excerpt t.count)
  else if ¬Group.SidesInRange t.sides then .error (.sidesOutOfRange t.excerpt t.sides)
  else
    match readKeep t.count rest with
    | .error e => .error e
    | .ok (keep, after) => .ok (.dice ⟨sign, t.count, t.sides, keep⟩ t.span, after)

/-- Reads the constant that the integer token `t` writes, where `taken` says whether there is one
already. -/
def readConstant (sign : Sign) (taken : Bool) (t : Token) : Except ParseError Term :=
  if taken then .error (.secondConstant t.excerpt)
  else if Total.greatest < t.value then .error (.constantTooLarge t.excerpt)
  else .ok (.constant sign t.value t.span)

/-- Reads one term that starts with the token `t`: the term, and the tokens after it. -/
def readTerm (sign : Sign) (taken : Bool) (t : Token) (rest : List Token) :
    Except ParseError (Term × List Token) :=
  match t.kind with
  | .dice => readDice sign t rest
  | .integer => (readConstant sign taken t).map fun term => (term, rest)
  | _ => .error (unexpected t.excerpt Kind.terms)

/-! ## A term takes its tokens off the front -/

theorem readKeep_length {count : Nat} {ts rest : List Token} {keep : Option Keep}
    (h : readKeep count ts = .ok (keep, rest)) : rest.length ≤ ts.length := by
  unfold readKeep at h
  split at h
  · simp_all
  · split at h
    · simp_all
    · split at h
      · simp only [Except.ok.injEq, Prod.mk.injEq] at h
        simp [← h.2]
      · simp at h

theorem readDice_length {sign : Sign} {t : Token} {rest after : List Token} {term : Term}
    (h : readDice sign t rest = .ok (term, after)) : after.length ≤ rest.length := by
  rw [readDice] at h
  split at h
  · simp at h
  · split at h
    · simp at h
    · split at h
      · simp at h
      · next hk =>
        simp only [Except.ok.injEq, Prod.mk.injEq] at h
        exact h.2 ▸ readKeep_length hk

theorem readTerm_length {sign : Sign} {taken : Bool} {t : Token} {rest after : List Token}
    {term : Term} (h : readTerm sign taken t rest = .ok (term, after)) :
    after.length ≤ rest.length := by
  rw [readTerm] at h
  split at h
  · exact readDice_length h
  · cases hc : readConstant sign taken t with
    | error e => simp [hc, Except.map] at h
    | ok c =>
      simp only [hc, Except.map, Except.ok.injEq, Prod.mk.injEq] at h
      simp [← h.2]
  · simp at h

/-! ## Sequences of terms -/

/-- What walking over the tokens gave: the accepted terms, and the error that ended the walk. -/
structure Reading where
  /-- The terms that were accepted, in order. -/
  terms : List Term
  /-- Why the walk ended before the text did, if so. -/
  error : Option ParseError
deriving DecidableEq, Repr

/-- Reads the terms of a text of `stop` bytes.  The first has the sign `sign`, every other the sign
before it; `taken` says whether there was a constant earlier. -/
def readTerms (stop : Nat) (sign : Sign) (taken : Bool) (ts : List Token) : Reading :=
  match ts with
  | [] => ⟨[], some (unexpected (.emptyAt stop) Kind.terms)⟩
  | t :: rest =>
    match _hread : readTerm sign taken t rest with
    | .error e => ⟨[], some e⟩
    | .ok (term, []) => ⟨[term], none⟩
    | .ok (term, next :: after) =>
      match next.kind.sign? with
      | none => ⟨[term], some (unexpected next.excerpt Kind.signs)⟩
      | some nextSign =>
        let others := readTerms stop nextSign (taken || term.isConstant) after
        ⟨term :: others.terms, others.error⟩
termination_by ts.length
decreasing_by
  have := readTerm_length _hread
  simp only [List.length_cons] at this ⊢
  omega

/-- Reads a whole text.  A blank text is an error at its very start. -/
def Reading.ofText (text : String) : Reading :=
  if Text.trim text = "" then ⟨[], some (unexpected (.emptyAt 0) Kind.terms)⟩
  else readTerms text.utf8ByteSize .plus false (tokens text)

/-! ## Formulas -/

/-- The dice groups among the terms. -/
def Reading.groups (r : Reading) : List Group := r.terms.filterMap Term.group?

/-- The constant among the terms, zero if there is none. -/
def Reading.constant (r : Reading) : Int := (r.terms.findSome? Term.constant?).getD 0

/-- The formula that the terms make up, unless there was an error or there are no dice. -/
def Reading.formula (r : Reading) : Except ParseError Formula :=
  match r.error with
  | some e => .error e
  | none =>
    if h : r.groups = [] then .error .noDice else .ok ⟨r.groups, r.constant, h⟩

/-- Reads a text as a formula. -/
def parse (text : String) : Except ParseError Written :=
  (Reading.ofText text).formula.map fun f => ⟨f, Text.trim text⟩

/-- The log of reading a text: one record for each accepted term, and one for the formula. -/
def parseLog (text : String) : List Event :=
  (Reading.ofText text).terms.map Term.event ++
    match parse text with
    | .ok w => [.readFormula w.raw w.toFormula]
    | .error _ => []

end Dicebag
