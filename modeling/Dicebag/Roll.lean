import Dicebag.Rule
import Dicebag.Rolling

/-!
# Rolling a formula

To roll a formula is to throw the dice of its groups one after another, set aside those that do not
count, and add up.  `Formula.throws` plans the throws: a group throws its own dice, save that under
advantage or disadvantage the first lone d20 throws two and picks one.  `Formula.roll` carries the
plan out and gives a `Roll`.

* A face that the die does not have ends the roll, after the draw and before it is logged.
* All dice lie in one row, in the order in which they were rolled, and each group has its `Stretch`
  of that row.
* The subtotal is a running sum of the groups in order; what a group adds and each intermediate sum
  have to be totals.
* The constant and the outside modifier are added with `Total.add`, and so is the result to the
  subtotal.
* A critical is a 20, and a fumble a 1, on the die that counts of the first lone d20.  No other die
  gives either.
-/

set_option autoImplicit false

namespace Dicebag

/-! ## The result -/

/-- A stretch of a row: the places from `start` on and before `stop`. -/
structure Stretch where
  /-- The first place of the stretch. -/
  start : Nat
  /-- The place after its last. -/
  stop : Nat
deriving DecidableEq, Repr

namespace Stretch

/-- The number of places in a stretch. -/
def length (s : Stretch) : Nat := s.stop - s.start

/-- What a row has in the stretch. -/
def cut {α : Type} (s : Stretch) (row : List α) : List α := (row.drop s.start).take s.length

end Stretch

/-- A rolled formula. -/
structure Roll where
  /-- All dice in the order in which they were rolled. -/
  dice : List Die
  /-- Where the dice of each group lie, in the order of the groups. -/
  stretches : List Stretch
  /-- The mode that the formula was rolled in. -/
  mode : Mode
  /-- The place of the group that was thrown twice over, if any. -/
  modeGroup : Option Nat
  /-- The sum of the dice that count, with the signs of their groups. -/
  subtotal : Int
  /-- The constant of the formula and the outside modifier together. -/
  modifier : Int
  /-- The subtotal and the modifier together. -/
  total : Int
  /-- The first lone d20 came up 20. -/
  critical : Bool
  /-- The first lone d20 came up 1. -/
  fumble : Bool
deriving DecidableEq, Repr

namespace Roll

/-- The dice of each group, in the order of the groups. -/
def pools (r : Roll) : List (List Die) := r.stretches.map fun s => s.cut r.dice

/-- The dice that count. -/
def kept (r : Roll) : List Die := r.dice.filter Die.kept

/-- The dice that were set aside. -/
def discarded (r : Roll) : List Die := r.dice.filter Die.discarded

/-- The mode that the group at a place was rolled in: the mode of the roll for the group that was
thrown twice over, and normal for all others. -/
def groupMode (r : Roll) (place : Nat) : Mode :=
  if r.modeGroup = some place then r.mode else .normal

end Roll

/-! ## The plan -/

/-- The dice of one group, as they are thrown. -/
structure Throw where
  /-- Whether the dice are added or subtracted. -/
  sign : Sign
  /-- The number of dice that are thrown. -/
  count : Nat
  /-- The number of sides of each. -/
  sides : Nat
  /-- Which of them do not count. -/
  rule : Rule
deriving DecidableEq, Repr

/-- How a group is thrown on its own account. -/
def Group.throw (g : Group) : Throw :=
  ⟨g.sign, g.count, g.sides, match g.keep with | some k => .keep k | none => .all⟩

/-- How the lone d20 is thrown in a mode other than normal: one die more, of which one is picked. -/
def Group.twinThrow (g : Group) (mode : Mode) : Throw :=
  ⟨g.sign, g.count + 1, g.sides, .pick mode⟩

/-- The place of the group that is thrown twice over: the first lone d20, in any mode but normal. -/
def Formula.modeGroup (f : Formula) (mode : Mode) : Option Nat :=
  if mode = .normal then none else f.advantageGroup

/-- How each group of the formula is thrown. -/
def Formula.throws (f : Formula) (mode : Mode) : List Throw :=
  let place := f.modeGroup mode
  f.groups.zipIdx.map fun (g, i) => if place = some i then g.twinThrow mode else g.throw

/-! ## Throwing dice -/

variable {σ : Type} [Roller σ]

/-- Rolls one die. -/
def rollDie (sides : Nat) : Rolling σ Die := do
  let value ← Rolling.draw sides
  if 1 ≤ value ∧ value ≤ sides then
    Rolling.record [.rolledDie sides value]
    pure ⟨sides, value, false⟩
  else Rolling.fail (.impossibleFace value sides)

/-- Rolls so many dice of one size. -/
def rollDice (sides : Nat) : Nat → Rolling σ (List Die)
  | 0 => pure []
  | n + 1 => do
    let d ← rollDie sides
    (d :: ·) <$> rollDice sides n

/-- Throws the dice of one group and sets aside those that do not count. -/
def Throw.roll (t : Throw) : Rolling σ (List Die) := do
  let dice ← rollDice t.sides t.count
  let (marked, events) := t.rule.apply dice
  Rolling.record events
  pure marked

/-- The subtotal after the dice of a throw have been counted, where every number on the way is a
total: the sum of the dice that count, that sum with its sign, and the new subtotal. -/
def Throw.addTo? (t : Throw) (subtotal : Int) (dice : List Die) : Option Int := do
  let sum ← Total.ofInt? (keptSum dice)
  let score ← t.sign.total? sum
  Total.ofInt? (subtotal + score)

/-- What lies on the table after some throws. -/
structure Table where
  /-- The dice of these throws, in the order in which they were rolled. -/
  dice : List Die
  /-- Where the dice of each throw lie in the whole row. -/
  stretches : List Stretch
  /-- The subtotal that they brought the roll to. -/
  subtotal : Int
deriving DecidableEq, Repr

/-- The table with the dice of one more throw in front, which start at the place `start`. -/
def Table.push (start : Nat) (dice : List Die) (table : Table) : Table :=
  ⟨dice ++ table.dice, ⟨start, start + dice.length⟩ :: table.stretches, table.subtotal⟩

/-- Throws the dice of all groups in order, where `start` dice lie in the row already and bring the
roll to `subtotal`. -/
def rollThrows (start : Nat) (subtotal : Int) : List Throw → Rolling σ Table
  | [] => pure ⟨[], [], subtotal⟩
  | t :: ts => do
    let dice ← t.roll
    match t.addTo? subtotal dice with
    | none => Rolling.fail .overflow
    | some sum => Table.push start dice <$> rollThrows (start + dice.length) sum ts

/-! ## Rolling a formula -/

/-- The face of the first lone d20 that counts. -/
def Formula.natural? (f : Formula) (table : Table) : Option Nat := do
  let place ← f.advantageGroup
  let stretch ← table.stretches[place]?
  let die ← (stretch.cut table.dice).find? Die.kept
  pure die.value

/-- Puts a roll together from what lies on the table. -/
def Roll.ofTable (f : Formula) (mode : Mode) (modifier : Int) (table : Table) : Roll :=
  let applied := Total.add f.constant modifier
  { dice := table.dice
    stretches := table.stretches
    mode
    modeGroup := f.modeGroup mode
    subtotal := table.subtotal
    modifier := applied
    total := Total.add table.subtotal applied
    critical := f.natural? table == some Group.d20
    fumble := f.natural? table == some 1 }

/-- Rolls a formula in a mode and with a modifier from outside. -/
def Formula.roll (f : Formula) (mode : Mode) (modifier : Int) : Rolling σ Roll := do
  let table ← rollThrows 0 0 (f.throws mode)
  let result := Roll.ofTable f mode modifier table
  Rolling.record [.rolledFormula f mode modifier result.dice.length result.subtotal result.total]
  pure result

end Dicebag
