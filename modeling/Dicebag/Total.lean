/-!
# Totals

Modifiers, subtotals and totals are whole numbers between `-2 ^ 63` and `2 ^ 63 - 1`.  They are
plain `Int`s here, and each operation says what it does at the ends of that range:

* `Total.add` stops at the ends, which is how a constant, an outside modifier and a subtotal are
  put together;
* `Total.ofInt?` has no answer outside the range, which is how a running subtotal is kept;
* `Total.signed` writes a modifier with its sign, zero included.
-/

set_option autoImplicit false

namespace Dicebag
namespace Total

/-- The smallest total, `-2 ^ 63`. -/
def least : Int := -9223372036854775808

/-- The largest total, `2 ^ 63 - 1`. -/
def greatest : Int := 9223372036854775807

/-- `x` is a total: it lies between the ends of the range. -/
def InRange (x : Int) : Prop := least ≤ x ∧ x ≤ greatest

instance (x : Int) : Decidable (InRange x) := inferInstanceAs (Decidable (_ ∧ _))

/-- The total nearest to `x`. -/
def clamp (x : Int) : Int := max least (min x greatest)

/-- Addition that stops at the ends of the range. -/
def add (x y : Int) : Int := clamp (x + y)

/-- `x` itself where it is a total, and nothing where it is not. -/
def ofInt? (x : Int) : Option Int := if InRange x then some x else none

/-- A modifier with its sign: `+3`, `-1`, and `+0` for none. -/
def signed (x : Int) : String := if 0 ≤ x then "+" ++ toString x else toString x

/-! ## The range -/

theorem clamp_inRange (x : Int) : InRange (clamp x) := by
  unfold InRange clamp least greatest
  omega

theorem clamp_of_inRange {x : Int} (h : InRange x) : clamp x = x := by
  unfold InRange least greatest at h
  unfold clamp least greatest
  omega

theorem ofInt?_eq_some_iff {x y : Int} : ofInt? x = some y ↔ InRange x ∧ x = y := by
  rw [ofInt?]
  split <;> simp_all

end Total
end Dicebag
