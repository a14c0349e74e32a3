import Dicebag.Digits
import Dicebag.Total

/-!
# Dice groups

A group is one term of a formula that rolls dice: so many dice of so many sides, added or
subtracted, of which the highest or the lowest may be kept.  `Group.text` writes it without its
sign, as in `4d6kh3`.

A group that has been read from a text is `Group.WellFormed`: between 1 and 100 dice, between 2 and
1000 sides, and a keep amount between 1 and the number of dice.  Doubling for a critical hit can
exceed the first of these.
-/

set_option autoImplicit false

namespace Dicebag

/-! ## Signs -/

/-- The sign of a term. -/
inductive Sign
  /-- The term is added. -/
  | plus
  /-- The term is subtracted. -/
  | minus
deriving DecidableEq, Repr

namespace Sign

/-- The sign as it is written. -/
def symbol : Sign → String
  | plus => "+"
  | minus => "-"

/-- A number with the sign in front. -/
def apply : Sign → Int → Int
  | plus, x => x
  | minus, x => -x

/-- A total with the sign in front, where that is a total again.  Only the smallest total cannot be
negated. -/
def total? (sign : Sign) (x : Int) : Option Int := Total.ofInt? (sign.apply x)

end Sign

/-! ## Keeping some of the dice -/

/-- Which dice of a group are kept. -/
inductive KeepMode
  /-- The highest dice are kept. -/
  | highest
  /-- The lowest dice are kept. -/
  | lowest
deriving DecidableEq, Repr

/-- Keeps a number of dice and discards the rest. -/
structure Keep where
  /-- Which end of the ranking is kept. -/
  mode : KeepMode
  /-- How many dice are kept. -/
  amount : Nat
deriving DecidableEq, Repr

/-- A keep suffix as it is written: `kh3` or `kl1`. -/
def Keep.text (keep : Keep) : String :=
  (match keep.mode with | .highest => "kh" | .lowest => "kl") ++ toString keep.amount

/-! ## Groups -/

/-- Dice of one size that are rolled together. -/
structure Group where
  /-- Whether the dice are added or subtracted. -/
  sign : Sign
  /-- The number of dice. -/
  count : Nat
  /-- The number of sides of each die. -/
  sides : Nat
  /-- Which dice are kept, if not all of them. -/
  keep : Option Keep
deriving DecidableEq, Repr

namespace Group

/-- The fewest dice a written group may roll. -/
def minCount : Nat := 1

/-- The most dice a written group may roll. -/
def maxCount : Nat := 100

/-- The fewest sides a written die may have. -/
def minSides : Nat := 2

/-- The most sides a written die may have. -/
def maxSides : Nat := 1000

/-- A written group may roll this many dice. -/
def CountInRange (n : Nat) : Prop := minCount ≤ n ∧ n ≤ maxCount

/-- A written die may have this many sides. -/
def SidesInRange (n : Nat) : Prop := minSides ≤ n ∧ n ≤ maxSides

/-- This many of `count` dice may be kept. -/
def KeepInRange (count amount : Nat) : Prop := 1 ≤ amount ∧ amount ≤ count

instance (n : Nat) : Decidable (CountInRange n) := inferInstanceAs (Decidable (_ ∧ _))
instance (n : Nat) : Decidable (SidesInRange n) := inferInstanceAs (Decidable (_ ∧ _))
instance (count amount : Nat) : Decidable (KeepInRange count amount) :=
  inferInstanceAs (Decidable (_ ∧ _))

/-- Every number of the group is one that the notation allows. -/
structure WellFormed (g : Group) : Prop where
  /-- The number of dice is in range. -/
  count : CountInRange g.count
  /-- The number of sides is in range. -/
  sides : SidesInRange g.sides
  /-- The keep amount is at least one and at most the number of dice. -/
  keep : ∀ k, g.keep = some k → KeepInRange g.count k.amount

/-- A group without its sign: the number of dice, a `d`, the sides, and the keep suffix if any. -/
def text (g : Group) : String :=
  toString g.count ++ "d" ++ toString g.sides ++ (g.keep.map Keep.text).getD ""

/-- A group after its sign. -/
def signedText (g : Group) : String := g.sign.symbol ++ g.text

/-- The number of sides that advantage, criticals and fumbles look for. -/
def d20 : Nat := 20

/-- A lone d20 of which nothing is discarded: the group that advantage and disadvantage act on, and
the only one that criticals and fumbles are read from. -/
def isLoneD20 (g : Group) : Bool := g.sides == d20 && g.count == 1 && g.keep.isNone

/-- The group with twice its dice, twice as many of them kept. -/
def doubled (g : Group) : Group :=
  { g with
    count := Digits.double g.count
    keep := g.keep.map fun k => { k with amount := Digits.double k.amount } }

end Group
end Dicebag
