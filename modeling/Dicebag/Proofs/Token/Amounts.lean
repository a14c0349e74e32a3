import Mathlib.Data.Nat.Digits.Defs
import Dicebag.Proofs.Formula.RoundTrip

/-!
# The numbers in tokens

A dice token and a keep suffix write their numbers as digit runs of any length, with any number of
zeros in front.  This file says which numbers are read from them.

* `Digits.decimal` is the number that a digit run stands for, place by place: the last digit counts
  ones, the one before it tens, and so on.  Reading from the left, ten times as much at every digit,
  comes to the same (`Digits.value_eq_decimal`).
* An amount is that number up to the cap (`Digits.amount_eq_decimal`), and a number below the cap is
  read back from its own rendering (`Digits.amount_toString`).
* `token_amounts` puts this together for the tokens, letters included, and says that every range
  check decides about the number that was written.
-/

set_option autoImplicit false

namespace Dicebag
namespace Digits

/-! ## Digit by digit and place by place -/

/-- The number that a run of digits stands for in the decimal system, the last digit counting ones
and each other digit ten times as much as the one behind it. -/
def decimal (ds : List Char) : Nat := Nat.ofDigits 10 (ds.reverse.map digit)

theorem value_eq_decimal (ds : List Char) : value ds = decimal ds := by
  rw [value, Nat.ofDigitChars, decimal, Nat.ofDigits_eq_foldr, List.foldr_map, List.foldr_reverse]
  congr 1
  funext n c
  rw [digit, Nat.cast_id, Nat.add_comm]

/-- **An amount is the decimal number, as far as amounts go.** -/
theorem amount_eq_decimal {ds : List Char} (hds : IsDigits ds) :
    amount ds = min (decimal ds) greatest := by
  rw [amount_eq hds.2, value_eq_decimal]

/-- A number that is an amount is read back from its rendering. -/
theorem amount_toString {n : Nat} (hn : n ≤ greatest) : amount (toString n).toList = n := by
  have hchars : (toString n).toList = Nat.toDigits 10 n := by simp
  rw [hchars, amount_eq (isDigits_toDigits n).2, value_toDigits, Nat.min_eq_left hn]

/-- The number `n` is what a digit run was read as: the decimal number of the run up to
`2 ^ 32 - 1`, and in each of the ranges that numbers are checked against just when the decimal
number itself is. -/
structure ReadAs (ds : List Char) (n : Nat) : Prop where
  /-- The number is the decimal number of the run, up to the largest 32-bit number. -/
  capped : n = min (decimal ds) (2 ^ 32 - 1)
  /-- It is a number of dice just when the decimal number is. -/
  count : Group.CountInRange n ↔ 1 ≤ decimal ds ∧ decimal ds ≤ 100
  /-- It is a number of sides just when the decimal number is. -/
  sides : Group.SidesInRange n ↔ 2 ≤ decimal ds ∧ decimal ds ≤ 1000
  /-- It is an amount that can be kept of the dice just when the decimal number is. -/
  keep : ∀ dice ≤ 100, (Group.KeepInRange dice n ↔ 1 ≤ decimal ds ∧ decimal ds ≤ dice)

/-- Capping moves no number into a range or out of it, since no range reaches the cap. -/
theorem readAs_min (ds : List Char) : ReadAs ds (min (decimal ds) greatest) where
  capped := rfl
  count := countInRange_min
  sides := sidesInRange_min
  keep dice hdice := by
    simp only [Group.KeepInRange, greatest]
    omega

/-- **A digit run is read as the number it stands for.** -/
theorem readAs_amount {ds : List Char} (hds : IsDigits ds) : ReadAs ds (amount ds) :=
  amount_eq_decimal hds ▸ readAs_min ds

end Digits

/-! ## The numbers of dice and keep tokens -/

/-- **The numbers of a token are the ones it writes, as far as 32 bits go.**  A dice token that
starts with its letter gives no number of dice; otherwise the digits before the letter are read as
the number of dice, the digits behind it as the sides, and the digits of a keep suffix as its
amount.  The runs may be of any length and start with any number of zeros.  Every 32-bit number is
read back from its own rendering. -/
theorem token_amounts :
    (∀ (t : Token) (count sides : List Char) (letter : Char),
      t.lexeme = count ++ letter :: sides → (∀ c ∈ count, c.isDigit = true) →
      isDieLetter letter = true → IsDigits sides →
        (count = [] → t.count? = none) ∧
        (count ≠ [] → ∃ n, t.count? = some n ∧ Digits.ReadAs count n) ∧
        Digits.ReadAs sides t.sides) ∧
    (∀ (t : Token) (mode : KeepMode) (k m : Char) (amount : List Char),
      t.lexeme = k :: m :: amount → isKeepLetter k = true → keepLetterMode? m = some mode →
      IsDigits amount → Digits.ReadAs amount t.keepAmount) ∧
    ∀ n < 2 ^ 32, Digits.amount (toString n).toList = n := by
  refine ⟨?_, ?_, fun n hn => Digits.amount_toString (Nat.le_of_lt_succ hn)⟩
  · intro t count sides letter hlexeme hcount hletter hsides
    have hcount? := Token.count?_eq hlexeme hcount hletter
    refine ⟨fun hnil => by rw [hcount?, if_pos hnil], fun hne => ⟨Digits.amount count, ?_, ?_⟩, ?_⟩
    · rw [hcount?, if_neg hne]
    · exact Digits.readAs_amount ⟨hne, hcount⟩
    · rw [Token.sides_eq hlexeme hcount hletter]
      exact Digits.readAs_amount hsides
  · intro t mode k m amount hlexeme hk hm hamount
    rw [Token.keepAmount_eq hlexeme hk hm]
    exact Digits.readAs_amount hamount

/-- Zeros in front, sides past the cap, and an amount that all capitals write. -/
theorem token_amounts_oversized :
    (⟨.dice, "007D42949672960".toList, 0⟩ : Token).count? = some 7 ∧
      (⟨.dice, "007D42949672960".toList, 0⟩ : Token).sides = 4294967295 ∧
      (⟨.dice, "d6".toList, 0⟩ : Token).count? = none ∧
      (⟨.keepLowest, "KL0100".toList, 0⟩ : Token).keepAmount = 100 ∧
      Digits.amount (toString 4294967295).toList = 4294967295 := by
  obtain ⟨hdice, hkeep, hback⟩ := token_amounts
  have hall : ∀ ds : List Char, ds.all Char.isDigit = true → ∀ c ∈ ds, c.isDigit = true :=
    fun ds => List.all_eq_true.1
  obtain ⟨-, hcount, hsides⟩ := hdice ⟨.dice, "007D42949672960".toList, 0⟩ "007".toList
    "42949672960".toList 'D' rfl (hall _ (by decide)) rfl ⟨by decide, hall _ (by decide)⟩
  obtain ⟨n, hn, hread⟩ := hcount (by decide)
  obtain ⟨hnone, -⟩ := hdice ⟨.dice, "d6".toList, 0⟩ [] ['6'] 'd' rfl (by simp) rfl
    ⟨by decide, hall _ (by decide)⟩
  have hamount := hkeep ⟨.keepLowest, "KL0100".toList, 0⟩ .lowest 'K' 'L' "0100".toList rfl rfl rfl
    ⟨by decide, hall _ (by decide)⟩
  have hseven : Digits.decimal "007".toList = 7 := by decide
  have hlarge : Digits.decimal "42949672960".toList = 42949672960 := by decide
  have hhundred : Digits.decimal "0100".toList = 100 := by decide
  refine ⟨?_, ?_, hnone rfl, ?_, hback _ (by decide)⟩
  · rw [hn, hread.capped, hseven]
    rfl
  · rw [hsides.capped, hlarge]
    rfl
  · rw [hamount.capped, hhundred]
    rfl

end Dicebag
