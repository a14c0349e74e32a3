import Dicebag.Digits
import Dicebag.Group
import Dicebag.Text.Span

/-!
# Tokens

A formula is written in six kinds of token.  Five of them are given by the shape of their lexeme:

* `Kind.integer`: digits;
* `Kind.dice`: digits or none, a `d` in either case, digits;
* `Kind.keepHighest` and `Kind.keepLowest`: `kh` or `kl` in either case, digits;
* `Kind.plus` and `Kind.minus`: the two signs.

`Kind.Admits` says which lexemes a kind has.  Whatever fits none of the six is `Kind.unknown`, one
character at a time.
-/

set_option autoImplicit false

namespace Dicebag

/-- The kinds of token. -/
inductive Kind
  /-- A run of digits. -/
  | integer
  /-- A number of dice of one size. -/
  | dice
  /-- A suffix that keeps the highest dice. -/
  | keepHighest
  /-- A suffix that keeps the lowest dice. -/
  | keepLowest
  /-- A plus sign. -/
  | plus
  /-- A minus sign. -/
  | minus
  /-- A character that starts no token. -/
  | unknown
deriving DecidableEq, Repr

namespace Kind

/-- How an error names the kind. -/
def label : Kind → String
  | integer => "<integer>"
  | dice => "<dice>"
  | keepHighest => "'kh'"
  | keepLowest => "'kl'"
  | plus => "'+'"
  | minus => "'-'"
  | unknown => "<error>"

/-- The kinds that start a term. -/
def terms : List Kind := [dice, integer]

/-- The kinds that stand between two terms. -/
def signs : List Kind := [plus, minus]

/-- The sign that a sign token stands for. -/
def sign? : Kind → Option Sign
  | plus => some .plus
  | minus => some .minus
  | _ => none

/-- The mode that a keep suffix stands for. -/
def keepMode? : Kind → Option KeepMode
  | keepHighest => some .highest
  | keepLowest => some .lowest
  | _ => none

end Kind

/-! ## The shapes of lexemes -/

/-- A digit run: one digit or more, and nothing else. -/
def IsDigits (cs : List Char) : Prop := cs ≠ [] ∧ ∀ c ∈ cs, c.isDigit = true

/-- The letter between the number of dice and their size. -/
def isDieLetter (c : Char) : Bool := c == 'd' || c == 'D'

/-- The first letter of a keep suffix. -/
def isKeepLetter (c : Char) : Bool := c == 'k' || c == 'K'

/-- The second letter of a keep suffix. -/
def keepLetterMode? (c : Char) : Option KeepMode :=
  if c == 'h' || c == 'H' then some .highest
  else if c == 'l' || c == 'L' then some .lowest
  else none

/-- The kind of a keep suffix. -/
def KeepMode.kind : KeepMode → Kind
  | highest => .keepHighest
  | lowest => .keepLowest

/-- A keep suffix of the given mode: two letters and a digit run. -/
def IsKeep (mode : KeepMode) (cs : List Char) : Prop :=
  ∃ k m ds, cs = k :: m :: ds ∧ isKeepLetter k = true ∧ keepLetterMode? m = some mode ∧ IsDigits ds

/-- The lexemes of each kind.  An unknown token has any one character; that no token starts there
is a matter of what follows it. -/
def Kind.Admits : Kind → List Char → Prop
  | .integer, cs => IsDigits cs
  | .dice, cs => ∃ count letter sides, cs = count ++ letter :: sides ∧
      (∀ c ∈ count, c.isDigit = true) ∧ isDieLetter letter = true ∧ IsDigits sides
  | .keepHighest, cs => IsKeep .highest cs
  | .keepLowest, cs => IsKeep .lowest cs
  | .plus, cs => cs = ['+']
  | .minus, cs => cs = ['-']
  | .unknown, cs => ∃ c, cs = [c]

/-! ## Tokens in a text -/

/-- A token: its kind, the text it was read from and where that starts. -/
structure Token where
  /-- The kind of token. -/
  kind : Kind
  /-- The characters that make it up. -/
  lexeme : List Char
  /-- The position of its first byte. -/
  start : Nat
deriving DecidableEq, Repr

namespace Token

/-- The bytes that the token covers. -/
def span (t : Token) : Span := ⟨t.start, t.start + Text.byteLength t.lexeme⟩

/-- The token as an excerpt of its text. -/
def excerpt (t : Token) : Excerpt := ⟨t.span, String.ofList t.lexeme⟩

/-- The number that an integer token writes. -/
def value (t : Token) : Nat := Digits.value t.lexeme

/-- The number of dice that a dice token gives before its letter, if it gives one. -/
def count? (t : Token) : Option Nat :=
  match t.lexeme.takeWhile fun c => !isDieLetter c with
  | [] => none
  | ds => some (Digits.amount ds)

/-- The number of dice that a dice token asks for, one if it gives none. -/
def count (t : Token) : Nat := t.count?.getD 1

/-- The number of sides that a dice token gives, from its letter on. -/
def sides (t : Token) : Nat := Digits.amount (t.lexeme.dropWhile fun c => !isDieLetter c)

/-- The amount that a keep suffix gives behind its two letters. -/
def keepAmount (t : Token) : Nat := Digits.amount t.lexeme

end Token
end Dicebag
