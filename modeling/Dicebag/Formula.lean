import Dicebag.Group

/-!
# Formulas

A `Formula` is what a text in dice notation means: at least one dice group, in the order written,
and a constant.  Two texts that mean the same have equal formulas, so `d20` and `1D20` cannot be
told apart by anything that takes a `Formula`; rolling does.  `Written` remembers the spelling
beside the meaning.

`Formula.text` is the canonical spelling.  Terms go in order with the constant last, except that a
text cannot open with a sign: a formula whose first group is subtracted puts its constant first
instead, as in `5-1d20`.

* `Formula.advantageGroup` is the place of the group that advantage acts on.
* `Formula.doubled` is the formula that is rolled for damage on a critical hit; `Written.doubled`
  is that formula with its canonical spelling.
-/

set_option autoImplicit false

namespace Dicebag

/-- Dice groups in order, and a constant that is added to them. -/
structure Formula where
  /-- The dice groups in the order in which they are written and rolled. -/
  groups : List Group
  /-- The constant that is added to the dice. -/
  constant : Int
  /-- There is a group to roll. -/
  groups_ne_nil : groups ≠ [] := by simp
deriving DecidableEq, Repr

namespace Formula

/-- The formula of a single group with no constant. -/
def single (g : Group) : Formula := ⟨[g], 0, by simp⟩

/-- The first group. -/
def first (f : Formula) : Group := f.groups.head f.groups_ne_nil

/-- The canonical spelling. -/
def text (f : Formula) : String :=
  match f.first.sign with
  | .minus => toString f.constant ++ String.join (f.groups.map Group.signedText)
  | .plus =>
    f.first.text ++ String.join (f.groups.tail.map Group.signedText) ++
      if f.constant = 0 then "" else Total.signed f.constant

/-- The place of the first lone d20, which is the group that advantage acts on. -/
def advantageGroup (f : Formula) : Option Nat := f.groups.findIdx? Group.isLoneD20

/-- Every group with twice its dice, keep amounts included; the constant is not doubled. -/
def doubled (f : Formula) : Formula :=
  ⟨f.groups.map Group.doubled, f.constant, by simpa using f.groups_ne_nil⟩

/-- A formula that some text can mean: its groups are well formed, its constant can be written, and
where the first group is subtracted there is a constant to put before it. -/
structure WellFormed (f : Formula) : Prop where
  /-- Every group is well formed. -/
  groups : ∀ g ∈ f.groups, g.WellFormed
  /-- The constant is a total, and so is its negation. -/
  constant : -Total.greatest ≤ f.constant ∧ f.constant ≤ Total.greatest
  /-- A constant that goes first is not negative. -/
  leading : f.first.sign = .minus → 0 ≤ f.constant

end Formula

/-- A formula together with the way it was spelled. -/
structure Written extends Formula where
  /-- The spelling, without blanks at either end. -/
  raw : String
deriving DecidableEq, Repr

/-- The doubled formula in its canonical spelling. -/
def Written.doubled (w : Written) : Written := ⟨w.toFormula.doubled, w.toFormula.doubled.text⟩

end Dicebag
