/-!
# Dice and the mode they are rolled in

A `Die` is one die on the table: its size, the face it shows, and whether it has been set aside.  A
`Mode` is how a lone d20 is rolled: once, or twice with the better or the worse of the two
counting.
-/

set_option autoImplicit false

namespace Dicebag

/-- One rolled die. -/
structure Die where
  /-- The number of sides. -/
  sides : Nat
  /-- The face that it shows. -/
  value : Nat
  /-- It does not count towards the subtotal. -/
  discarded : Bool
deriving DecidableEq, Repr

namespace Die

/-- The die counts. -/
def kept (d : Die) : Bool := !d.discarded

/-- The die shows its highest face. -/
def isMax (d : Die) : Bool := d.value == d.sides

/-- The die shows a one. -/
def isMin (d : Die) : Bool := d.value == 1

end Die

/-- The sum of the dice that count. -/
def keptSum : List Die → Nat
  | [] => 0
  | d :: ds => (if d.kept then d.value else 0) + keptSum ds

/-- How a lone d20 is rolled. -/
inductive Mode
  /-- One d20. -/
  | normal
  /-- Two d20, of which the higher counts. -/
  | advantage
  /-- Two d20, of which the lower counts. -/
  | disadvantage
deriving DecidableEq, Repr

namespace Mode

/-- The word for the mode. -/
def label : Mode → String
  | normal => "normal"
  | advantage => "advantage"
  | disadvantage => "disadvantage"

/-- The three modes. -/
def all : List Mode := [normal, advantage, disadvantage]

/-- The mode that a word stands for. -/
def ofLabel? (word : String) : Option Mode := all.find? fun mode => mode.label == word

end Mode
end Dicebag
