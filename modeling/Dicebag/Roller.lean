/-!
# Rollers

A roller is where the faces of dice come from: a generator, a list of faces that somebody wrote
down, a counter.  `Roller.roll` asks it for one face of a die with so many sides; it answers with a
face or a `Fault`, and is left in a new state either way.  Nothing here says that the face lies on
the die.  Whoever rolls dice checks that.
-/

set_option autoImplicit false

namespace Dicebag

/-- Why rolling had to stop. -/
inductive Fault
  /-- The roller has nothing left to give. -/
  | exhausted
  /-- A generator was asked for a die without sides. -/
  | noFaces
  /-- A counter was asked for a die without sides. -/
  | divisionByZero
  /-- The roller gave a face that the die does not have. -/
  | impossibleFace (value sides : Nat)
  /-- A sum left its range. -/
  | overflow
deriving DecidableEq, Repr

/-- The fault in words. -/
def Fault.message : Fault → String
  | exhausted => "roller exhausted"
  | noFaces => "cannot sample empty range"
  | divisionByZero => "attempt to calculate the remainder with a divisor of zero"
  | impossibleFace value sides =>
    "roller produced " ++ toString value ++ " for a d" ++ toString sides
  | overflow => "attempt to add with overflow"

/-- Something that gives the faces of dice. -/
class Roller (σ : Type) where
  /-- One face of a die with `sides` sides, and the roller afterwards. -/
  roll (sides : Nat) (roller : σ) : Except Fault Nat × σ

/-- A roller that counts the faces it has given. -/
structure Counted (σ : Type) where
  /-- The roller that is counted. -/
  roller : σ
  /-- How many faces it has given. -/
  drawn : Nat
deriving Repr

instance {σ : Type} [Roller σ] : Roller (Counted σ) where
  roll sides counted :=
    let (answer, roller) := Roller.roll sides counted.roller
    match answer with
    | .ok value => (.ok value, ⟨roller, counted.drawn + 1⟩)
    | .error fault => (.error fault, ⟨roller, counted.drawn⟩)

end Dicebag
