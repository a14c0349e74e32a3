import Dicebag.Roller

/-!
# Rollers without chance

* A `Script` gives the faces of a list in order, whatever die is asked for, until none is left.
* A `Counter` counts up in equal steps, without end, and wraps each count onto the die.  It has no
  greatest count, so that it never has to stop.
-/

set_option autoImplicit false

namespace Dicebag

/-- The faces that are still to come. -/
structure Script where
  /-- The faces in the order in which they are given. -/
  faces : List Nat
deriving DecidableEq, Repr

instance : Roller Script where
  roll _ script :=
    match script.faces with
    | [] => (.error .exhausted, script)
    | face :: rest => (.ok face, ⟨rest⟩)

/-- A count, and what is added to it after every die. -/
structure Counter where
  /-- The present count. -/
  current : Nat
  /-- What is added to the count. -/
  step : Nat
deriving DecidableEq, Repr

namespace Counter

/-- The face that a count comes to when it is wrapped onto a die: a count of one is the face one, and
after the last face comes the first one again. -/
def face (counter : Counter) (sides : Nat) : Nat := (counter.current + (sides - 1)) % sides + 1

/-- The next count. -/
def next (counter : Counter) : Counter := { counter with current := counter.current + counter.step }

end Counter

instance : Roller Counter where
  roll sides counter :=
    if sides = 0 then (.error .divisionByZero, counter)
    else (.ok (counter.face sides), counter.next)

end Dicebag
