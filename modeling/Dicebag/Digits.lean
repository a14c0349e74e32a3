/-!
# Runs of decimal digits

The notation writes its numbers as runs of ASCII digits of any length, leading zeros allowed.  Such
a run is read in two ways:

* `Digits.value` is the number it writes, however large;
* `Digits.amount` is a count, a number of sides or a keep amount.  These stop at `2 ^ 32 - 1`, so
  an oversized one is still a number that the range checks can refuse and an error can report.
-/

set_option autoImplicit false

namespace Dicebag
namespace Digits

/-- The number that one digit writes. -/
def digit (c : Char) : Nat := c.toNat - '0'.toNat

/-- The number that a run of digits writes, the first digit being the most significant. -/
def value (ds : List Char) : Nat := Nat.ofDigitChars 10 ds 0

/-- The largest amount, `2 ^ 32 - 1`. -/
def greatest : Nat := 4294967295

/-- An amount with one more digit behind it: ten times as much, and then the digit more.  Each of
the two steps stops at `greatest`, so nothing larger is ever held. -/
def extend (n : Nat) (c : Char) : Nat := min (min (10 * n) greatest + digit c) greatest

/-- The amount that the digits in a text write.  Its other characters do not count. -/
def amount (cs : List Char) : Nat := (cs.filter Char.isDigit).foldl extend 0

/-- Twice an amount, stopping at `greatest`. -/
def double (n : Nat) : Nat := min (2 * n) greatest

/-! ## The two readings agree up to the cap -/

theorem extend_min (n : Nat) (c : Char) :
    extend (min n greatest) c = min (10 * n + digit c) greatest := by
  rw [extend, greatest]
  omega

/-- Capping at every digit is the same as capping once at the end: a run that has reached the cap
stays there. -/
theorem foldl_extend (ds : List Char) (n : Nat) :
    ds.foldl extend (min n greatest) = min (Nat.ofDigitChars 10 ds n) greatest := by
  induction ds generalizing n with
  | nil => rfl
  | cons c ds ih =>
    rw [List.foldl_cons, extend_min, Nat.ofDigitChars_cons]
    exact ih (10 * n + digit c)

theorem amount_eq_filter (cs : List Char) :
    amount cs = min (value (cs.filter Char.isDigit)) greatest :=
  foldl_extend _ 0

/-- **An amount is the number that was written, as far as amounts go.** -/
theorem amount_eq {ds : List Char} (hds : ∀ c ∈ ds, c.isDigit = true) :
    amount ds = min (value ds) greatest := by
  rw [amount_eq_filter, List.filter_eq_self.2 hds]

/-- Characters before the digits do not count. -/
theorem amount_append {cs : List Char} (hcs : ∀ c ∈ cs, c.isDigit = false) (ds : List Char) :
    amount (cs ++ ds) = amount ds := by
  have hnone : cs.filter Char.isDigit = [] :=
    List.filter_eq_nil_iff.2 fun c hc => by rw [hcs c hc]; decide
  rw [amount, amount, List.filter_append, hnone, List.nil_append]

end Digits
end Dicebag
