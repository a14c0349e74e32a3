import Dicebag.StandardDie
import Dicebag.Proofs.Formula.RoundTrip

/-!
# The formulas that can be rolled

A formula comes from a text that was read or from a tray of dice, and it can be doubled once, for
damage on a critical hit.  `Formula.Available` is made of just these three.  Doubling takes a group
beyond what a text can ask for, so an available formula need not be well formed, but each of its
groups is `Group.Playable`, which is what the rolling of dice relies on: at least one die, at most
two hundred, of no more than a thousand sides, and a keep suffix that keeps some of them.
-/

set_option autoImplicit false

namespace Dicebag

/-- A group that can be rolled: one that a text can ask for, or one with twice its dice. -/
structure Group.Playable (g : Group) : Prop where
  /-- There is at least one die, and no more than twice as many as can be written. -/
  count : Group.minCount ≤ g.count ∧ g.count ≤ 2 * Group.maxCount
  /-- The number of sides is in range. -/
  sides : Group.SidesInRange g.sides
  /-- The keep amount is at least one and at most the number of dice. -/
  keep : ∀ k, g.keep = some k → Group.KeepInRange g.count k.amount

/-- All groups of the formula can be rolled. -/
def Formula.Playable (f : Formula) : Prop := ∀ g ∈ f.groups, g.Playable

/-- A formula that play starts from. -/
inductive Formula.Given : Formula → Prop
  /-- The meaning of a text. -/
  | read {text : String} {w : Written} (h : parse text = .ok w) : Given w.toFormula
  /-- A number of dice from a tray. -/
  | tray (die : StandardDie) (count : Nat) : Given (die.formula count)

/-- A formula that can be rolled: one that play starts from, or the double of one. -/
inductive Formula.Available : Formula → Prop
  /-- A formula as it is given. -/
  | given {f : Formula} (h : f.Given) : Available f
  /-- The formula for damage on a critical hit. -/
  | doubled {f : Formula} (h : f.Given) : Available f.doubled

/-! ## Given formulas are well formed -/

theorem legalCount_inRange (count : Nat) : Group.CountInRange (StandardDie.legalCount count) := by
  rw [StandardDie.legalCount, Group.CountInRange, Group.minCount, Group.maxCount]
  omega

theorem sides_inRange (die : StandardDie) : Group.SidesInRange die.sides := by
  cases die <;> decide

theorem wellFormed_single {g : Group} (hg : g.WellFormed) : (Formula.single g).WellFormed := by
  have hleast : -Total.greatest ≤ 0 := by decide
  have hmost : 0 ≤ Total.greatest := by decide
  refine ⟨fun g' hg' => ?_, ⟨hleast, hmost⟩, fun _ => Int.le_refl 0⟩
  rw [List.mem_singleton.1 hg']
  exact hg

theorem wellFormed_tray (die : StandardDie) (count : Nat) : (die.formula count).WellFormed :=
  wellFormed_single ⟨legalCount_inRange count, sides_inRange die, fun k hk => by cases hk⟩

theorem Formula.Given.wellFormed {f : Formula} (h : f.Given) : f.WellFormed := by
  cases h with
  | read h => exact wellFormed_of_parse h
  | tray die count => exact wellFormed_tray die count

/-! ## Available formulas are playable -/

theorem Group.WellFormed.playable {g : Group} (h : g.WellFormed) : g.Playable := by
  have hcount := h.count
  rw [Group.CountInRange] at hcount
  exact ⟨⟨hcount.1, by omega⟩, h.sides, h.keep⟩

/-- Within the limits of the notation nothing stops doubling. -/
theorem double_eq {n : Nat} (h : n ≤ Group.maxCount) : Digits.double n = 2 * n := by
  rw [Group.maxCount] at h
  rw [Digits.double, Digits.greatest]
  omega

theorem Group.WellFormed.playable_doubled {g : Group} (h : g.WellFormed) : g.doubled.Playable := by
  obtain ⟨hleast, hmost⟩ := h.count
  have hcount : g.doubled.count = 2 * g.count := double_eq hmost
  refine ⟨by omega, h.sides, fun k hk => ?_⟩
  obtain ⟨k', hk', rfl⟩ := Option.map_eq_some_iff.1 hk
  obtain ⟨hone, hamount⟩ := h.keep k' hk'
  have hdouble : Digits.double k'.amount = 2 * k'.amount := double_eq (Nat.le_trans hamount hmost)
  show 1 ≤ Digits.double k'.amount ∧ Digits.double k'.amount ≤ g.doubled.count
  omega

theorem Formula.WellFormed.playable {f : Formula} (h : f.WellFormed) : f.Playable := fun g hg =>
  (h.groups g hg).playable

theorem Formula.WellFormed.playable_doubled {f : Formula} (h : f.WellFormed) :
    f.doubled.Playable := List.forall_mem_map.2 fun g hg => (h.groups g hg).playable_doubled

/-- **Every formula that can be rolled has playable groups only.** -/
theorem Formula.Available.playable {f : Formula} (h : f.Available) : f.Playable := by
  cases h with
  | given h => exact h.wellFormed.playable
  | doubled h => exact h.wellFormed.playable_doubled

/-! ## A formula with a bit of everything -/

/-- The formula `4d6kh3+1d20-2d4+5`. -/
def Formula.mixed : Formula where
  groups := [⟨.plus, 4, 6, some ⟨.highest, 3⟩⟩, ⟨.plus, 1, 20, none⟩, ⟨.minus, 2, 4, none⟩]
  constant := 5

theorem wellFormed_mixed : Formula.mixed.WellFormed := by
  refine ⟨fun g hg => ?_, by decide, by decide⟩
  simp only [Formula.mixed, List.mem_cons, List.not_mem_nil, or_false] at hg
  rcases hg with rfl | rfl | rfl
  · refine ⟨by decide, by decide, fun k hk => ?_⟩
    cases hk
    decide
  · exact ⟨by decide, by decide, fun k hk => by cases hk⟩
  · exact ⟨by decide, by decide, fun k hk => by cases hk⟩

theorem available_mixed : Formula.mixed.Available := .given (.read (parse_text wellFormed_mixed))

end Dicebag
