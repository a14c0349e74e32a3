import Dicebag.Formula

/-!
# The dice of a tray

The sizes of dice that a player has at hand, and the formulas that roll a number of one size.  Such
a formula is built without reading a text, so a number of dice that no text could ask for is first
brought into range.
-/

set_option autoImplicit false

namespace Dicebag

/-- The sizes of dice in a tray. -/
inductive StandardDie
  /-- Three sides. -/
  | d3
  /-- Four sides. -/
  | d4
  /-- Six sides. -/
  | d6
  /-- Eight sides. -/
  | d8
  /-- Ten sides. -/
  | d10
  /-- Twelve sides. -/
  | d12
  /-- Twenty sides. -/
  | d20
  /-- A hundred sides. -/
  | d100
deriving DecidableEq, Repr

namespace StandardDie

/-- All sizes, from the smallest to the largest. -/
def all : List StandardDie := [d3, d4, d6, d8, d10, d12, d20, d100]

/-- The number of sides. -/
def sides : StandardDie → Nat
  | d3 => 3
  | d4 => 4
  | d6 => 6
  | d8 => 8
  | d10 => 10
  | d12 => 12
  | d20 => 20
  | d100 => 100

/-- The name of the size. -/
def label (die : StandardDie) : String := "d" ++ toString die.sides

/-- The size that a name stands for. -/
def ofLabel? (name : String) : Option StandardDie := all.find? fun die => die.label == name

/-- The number of dice that is rolled where `count` is asked for: the nearest that a formula may
have. -/
def legalCount (count : Nat) : Nat := max Group.minCount (min count Group.maxCount)

/-- The text that asks for so many dice of the size. -/
def text (die : StandardDie) (count : Nat) : String :=
  toString (legalCount count) ++ "d" ++ toString die.sides

/-- The formula that rolls so many dice of the size. -/
def formula (die : StandardDie) (count : Nat) : Formula :=
  .single ⟨.plus, legalCount count, die.sides, none⟩

/-- That formula with its text. -/
def written (die : StandardDie) (count : Nat) : Written := ⟨die.formula count, die.text count⟩

end StandardDie
end Dicebag
