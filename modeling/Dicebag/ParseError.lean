import Dicebag.Text.Span

/-!
# Parse errors

Why a text is not a formula.  Each cause but one names the excerpt of the text where it arose, and
the numbers that were out of range; `ParseError.place?` is that excerpt and `ParseError.message`
puts the error into words.
-/

set_option autoImplicit false

namespace Dicebag

/-- The reasons for which a text is not a formula. -/
inductive ParseError
  /-- Something stands where one of the `expected` kinds of token should. -/
  | unexpected (place : Excerpt) (expected : List String)
  /-- The constant does not fit a total. -/
  | constantTooLarge (place : Excerpt)
  /-- There is a constant but no dice. -/
  | noDice
  /-- A group rolls too few or too many dice. -/
  | countOutOfRange (place : Excerpt) (count : Nat)
  /-- A die has too few or too many sides. -/
  | sidesOutOfRange (place : Excerpt) (sides : Nat)
  /-- There is a constant already. -/
  | secondConstant (place : Excerpt)
  /-- A group keeps no dice, or more dice than it rolls. -/
  | keepOutOfRange (place : Excerpt) (amount count : Nat)
deriving DecidableEq, Repr

namespace ParseError

/-- Where the error arose, unless it is about the text as a whole. -/
def place? : ParseError → Option Excerpt
  | unexpected place _ => some place
  | constantTooLarge place => some place
  | noDice => none
  | countOutOfRange place _ => some place
  | sidesOutOfRange place _ => some place
  | secondConstant place => some place
  | keepOutOfRange place _ _ => some place

/-- Alternatives in a sentence: `a`, `a or b`, `a, b, or c`. -/
def alternatives : List String → String
  | [] => ""
  | [a] => a
  | [a, b] => a ++ " or " ++ b
  | items => String.intercalate ", " items.dropLast ++ ", or " ++ items.getLastD ""

/-- The opening of a message about a place. -/
def opening (place : Excerpt) : String := "(at position " ++ toString place.span.start ++ "): "

/-- The opening of a message that quotes its place. -/
def quoting (place : Excerpt) : String := opening place ++ Text.quote place.slice

/-- The error in words. -/
def message : ParseError → String
  | unexpected place expected =>
    opening place ++ "unexpected " ++ place.found ++ "; expected " ++ alternatives expected
  | constantTooLarge place =>
    opening place ++ "integer " ++ Text.quote place.slice ++ " is too large"
  | noDice => "a formula must roll at least one die"
  | countOutOfRange place count =>
    quoting place ++ " rolls " ++ toString count ++
      " dice; the count must be between 1 and 100"
  | sidesOutOfRange place sides =>
    quoting place ++ " has " ++ toString sides ++
      " sides; dice must have between 2 and 1000 sides"
  | secondConstant place =>
    quoting place ++ " is a second modifier; only one constant term is allowed"
  | keepOutOfRange place amount count =>
    quoting place ++ " keeps " ++ toString amount ++ " of " ++ toString count ++
      " dice; the amount must be between 1 and " ++ toString count

end ParseError
end Dicebag
