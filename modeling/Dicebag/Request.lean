import Dicebag.Formula.Reading
import Dicebag.Roll

/-!
# Requests

A request is a formula with the settings that it is rolled under.  It can be rolled any number of
times: the formula is read once, only the dice change.  Two requests are the same if they roll the
same formula under the same settings, however the formulas were spelled.
-/

set_option autoImplicit false

namespace Dicebag

/-- A formula and the settings that it is rolled under. -/
structure Request where
  /-- The formula. -/
  written : Written
  /-- The mode that it is rolled in. -/
  mode : Mode
  /-- What is added on top of the constant of the formula. -/
  modifier : Int
deriving Repr

namespace Request

/-- A request in normal mode without a modifier. -/
def of (w : Written) : Request := ⟨w, .normal, 0⟩

/-- The formula of a request. -/
def formula (r : Request) : Formula := r.written.toFormula

/-- The same formula under the same settings. -/
instance : BEq Request where
  beq a b := a.formula == b.formula && a.mode == b.mode && a.modifier == b.modifier

/-- Reads a text as a request in normal mode without a modifier. -/
def parse (text : String) : Except ParseError Request := (Dicebag.parse text).map of

/-- Rolls the request. -/
def roll {σ : Type} [Roller σ] (r : Request) : Rolling σ Roll := r.formula.roll r.mode r.modifier

end Request
end Dicebag
