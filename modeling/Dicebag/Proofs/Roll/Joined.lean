import Dicebag.Proofs.Roll.Advantage
import Dicebag.Proofs.Roll.Natural

/-!
# Formulas one after the other

If the groups of a formula are those of another formula followed by those of a third, then rolling
it comes to rolling these two one after the other.  Nothing in a roll looks back, but two things
look at the row as a whole: the places of the dice, which go on where the first formula ends, and
the mode, which acts on one lone d20 only.  `Formula.restMode` is what the first formula leaves of
the mode: all of it if it has no lone d20, and the normal mode if it has one.

* `modeGroup_joined` says how the place that the mode acts on moves, and from it `throws_joined`
  that the plan of the throws is that of the first formula followed by that of the second.
* `pools_joined` and `lay_append` say the same of the pools and of where they lie.
* `roll_joins` is the statement about rolls.  The formula that is rolled as a whole need not be one
  that can be written, and neither constants nor outside modifiers matter.
-/

set_option autoImplicit false

namespace Dicebag

variable {σ : Type} [Roller σ]

/-! ## Places further on -/

/-- The stretch that lies `n` places further on. -/
def Stretch.shift (s : Stretch) (n : Nat) : Stretch := ⟨s.start + n, s.stop + n⟩

theorem lay_add (start n : Nat) (pools : List (List Die)) :
    lay (start + n) pools = (lay start pools).map fun s => s.shift n := by
  induction pools generalizing start with
  | nil => rfl
  | cons pool pools ih =>
    rw [lay, lay, List.map_cons, Nat.add_right_comm, ih]
    rfl

theorem lay_append (start : Nat) (pools pools' : List (List Die)) :
    lay start (pools ++ pools') =
      lay start pools ++ (lay start pools').map fun s => s.shift pools.flatten.length := by
  induction pools generalizing start with
  | nil =>
    show lay start pools' = (lay start pools').map fun s => s.shift 0
    exact (List.map_id _).symm
  | cons pool pools ih =>
    have hshift : (lay (start + pool.length) pools').map (fun s => s.shift pools.flatten.length) =
        (lay start pools').map fun s => s.shift (pool :: pools).flatten.length := by
      rw [← lay_add, ← lay_add, List.flatten_cons, List.length_append, Nat.add_assoc]
    rw [List.cons_append, lay, ih, hshift]
    rfl

theorem scoreSum_append {ts : List Throw} {pools : List (List Die)}
    (h : pools.length = ts.length) (us : List Throw) (pools' : List (List Die)) :
    scoreSum (ts ++ us) (pools ++ pools') = scoreSum ts pools + scoreSum us pools' := by
  rw [scoreSum, List.zipWith_append h.symm, List.sum_append]
  rfl

/-- Throws look at no faces beyond their own. -/
theorem deal_take (ts : List Throw) (faces : List Nat) :
    deal ts (faces.take (ts.flatMap Throw.sizes).length) = deal ts faces := by
  induction ts generalizing faces with
  | nil => rfl
  | cons t ts ih =>
    have hle : t.count ≤ ((t :: ts).flatMap Throw.sizes).length := by
      rw [List.flatMap_cons, List.length_append, t.length_sizes]
      exact Nat.le_add_right _ _
    have hrest : ((t :: ts).flatMap Throw.sizes).length - t.count =
        (ts.flatMap Throw.sizes).length := by
      rw [List.flatMap_cons, List.length_append, t.length_sizes, Nat.add_sub_cancel_left]
    rw [deal, deal, List.take_take, Nat.min_eq_left hle, List.drop_take, hrest, ih]

/-! ## The mode -/

/-- What is left of the mode for groups that come after those of the formula. -/
def Formula.restMode (f : Formula) (mode : Mode) : Mode :=
  if f.advantageGroup.isSome then .normal else mode

/-- A mode that acts on what comes after a formula was not used up by that formula. -/
theorem not_used_up {f g : Formula} {mode : Mode} {place : Nat}
    (h : g.modeGroup (f.restMode mode) = some place) :
    f.restMode mode = mode ∧ f.advantageGroup = none := by
  have hrest := (Formula.modeGroup_eq_some_iff.1 h).1
  rw [Formula.restMode] at hrest ⊢
  by_cases hsome : f.advantageGroup.isSome
  · exact absurd (if_pos hsome) hrest
  · exact ⟨if_neg hsome, Option.not_isSome_iff_eq_none.1 hsome⟩

section

variable {f g fg : Formula} (hgroups : fg.groups = f.groups ++ g.groups)

include hgroups

theorem advantageGroup_joined :
    fg.advantageGroup = f.advantageGroup.or (g.advantageGroup.map (· + f.groups.length)) := by
  rw [Formula.advantageGroup, hgroups, List.findIdx?_append]
  rfl

/-- **The mode acts on the first formula if it can, and else on the second**, at the same place
within it. -/
theorem modeGroup_joined (mode : Mode) :
    fg.modeGroup mode =
      (f.modeGroup mode).or ((g.modeGroup (f.restMode mode)).map (· + f.groups.length)) := by
  rw [Formula.modeGroup, Formula.modeGroup, Formula.modeGroup, advantageGroup_joined hgroups,
    Formula.restMode]
  by_cases hmode : mode = .normal
  · simp [hmode]
  · cases f.advantageGroup <;> simp [hmode]

theorem modeGroup_joined_left {place : Nat} (hplace : place < f.groups.length) (mode : Mode) :
    fg.modeGroup mode = some place ↔ f.modeGroup mode = some place := by
  rw [modeGroup_joined hgroups, Option.or_eq_some_iff, Option.map_eq_some_iff]
  refine ⟨?_, .inl⟩
  rintro (h | ⟨-, place', -, rfl⟩)
  · exact h
  · omega

theorem modeGroup_joined_right (place : Nat) (mode : Mode) :
    fg.modeGroup mode = some (f.groups.length + place) ↔
      g.modeGroup (f.restMode mode) = some place := by
  rw [modeGroup_joined hgroups, Option.or_eq_some_iff, Option.map_eq_some_iff]
  refine ⟨?_, fun h =>
    .inr ⟨modeGroup_eq_none (not_used_up h).2 mode, place, h, Nat.add_comm _ _⟩⟩
  rintro (h | ⟨-, place', h, heq⟩)
  · have hlt := advantageGroup_lt (Formula.modeGroup_eq_some_iff.1 h).2
    omega
  · obtain rfl : place' = place := by omega
    exact h

/-! ## The plan -/

/-- **The plan of the throws is that of the first formula and then that of the second.** -/
theorem throws_joined (mode : Mode) :
    fg.throws mode = f.throws mode ++ g.throws (f.restMode mode) := by
  have hleft : f.groups.zipIdx.map (fun p => fg.throwAt mode p.2 p.1) = f.throws mode := by
    refine List.map_congr_left fun p hp => ?_
    have hlt := List.snd_lt_of_mem_zipIdx hp
    simp only [Formula.throwAt, modeGroup_joined_left hgroups hlt]
  have hright : (g.groups.zipIdx f.groups.length).map (fun p => fg.throwAt mode p.2 p.1) =
      g.throws (f.restMode mode) := by
    rw [List.zipIdx_eq_map_add, List.map_map]
    refine List.map_congr_left fun p _ => ?_
    simp only [Function.comp, Formula.throwAt, modeGroup_joined_right hgroups p.2 mode]
    by_cases hplace : g.modeGroup (f.restMode mode) = some p.2
    · rw [if_pos hplace, if_pos hplace, (not_used_up hplace).1]
    · rw [if_neg hplace, if_neg hplace]
  rw [Formula.throws_eq, hgroups, List.zipIdx_append, List.map_append, Nat.zero_add]
  exact congrArg₂ (· ++ ·) hleft hright

theorem sizes_joined (mode : Mode) :
    fg.sizes mode = f.sizes mode ++ g.sizes (f.restMode mode) := by
  rw [← Formula.flatMap_sizes_throws, throws_joined hgroups, List.flatMap_append,
    Formula.flatMap_sizes_throws, Formula.flatMap_sizes_throws]

/-- **So are the pools**, each formula taking its share of the faces. -/
theorem pools_joined (mode : Mode) (faces : List Nat) :
    fg.pools mode faces =
      f.pools mode (faces.take (f.sizes mode).length) ++
        g.pools (f.restMode mode) (faces.drop (f.sizes mode).length) := by
  have hcounts : ((f.throws mode).map Throw.count).sum = (f.sizes mode).length := by
    rw [← Formula.flatMap_sizes_throws, length_flatMap_sizes]
  rw [Formula.pools, throws_joined hgroups, deal_append, hcounts, Formula.pools, Formula.pools,
    ← Formula.flatMap_sizes_throws, deal_take]

/-- **The face that criticals and fumbles are read from** is that of the first formula if it has a
lone d20, and else that of the second. -/
theorem natural?_joined (mode : Mode) (faces : List Nat) :
    fg.natural? (fg.table mode faces) =
      if f.advantageGroup.isSome then
        f.natural? (f.table mode (faces.take (f.sizes mode).length))
      else
        g.natural? (g.table (f.restMode mode) (faces.drop (f.sizes mode).length)) := by
  have hlength : (f.pools mode (faces.take (f.sizes mode).length)).length = f.groups.length := by
    rw [Formula.pools, length_deal, Formula.length_throws]
  have hadvantage := advantageGroup_joined hgroups
  cases hf : f.advantageGroup with
  | some place =>
    rw [hf, Option.some_or] at hadvantage
    have hlt := advantageGroup_lt hf
    rw [if_pos (Option.isSome_some), natural?_table hadvantage, natural?_table hf,
      pools_joined hgroups, List.getElem?_append_left (by rwa [hlength])]
  | none =>
    rw [hf, Option.none_or] at hadvantage
    rw [if_neg (by simp)]
    cases hg : g.advantageGroup with
    | some place =>
      rw [hg, Option.map_some] at hadvantage
      rw [natural?_table hadvantage, natural?_table hg, pools_joined hgroups,
        List.getElem?_append_right (by rw [hlength]; exact Nat.le_add_left _ _), hlength,
        Nat.add_sub_cancel]
    | none =>
      rw [hg, Option.map_none] at hadvantage
      rw [Formula.natural?, Formula.natural?, hadvantage, hg]
      rfl

end

/-! ## The roll -/

/-- What one roll and a second one come to that is made after it: their dice in one row, divided as
before, and their subtotals added.  The marks of the first count if its formula has a lone d20, and
else those of the second. -/
structure Roll.Joins (f : Formula) (r s t : Roll) : Prop where
  /-- The dice of the second roll lie behind those of the first. -/
  dice : t.dice = r.dice ++ s.dice
  /-- The stretches of the second go on where the first ends. -/
  stretches : t.stretches = r.stretches ++ s.stretches.map fun x => x.shift r.dice.length
  /-- Every group was rolled in the mode that it was rolled in before. -/
  groupModes : ∀ place, t.groupMode place =
    if place < f.groups.length then r.groupMode place else s.groupMode (place - f.groups.length)
  /-- The subtotals add up. -/
  subtotal : t.subtotal = r.subtotal + s.subtotal
  /-- A critical is read from the first formula that can have one. -/
  critical : t.critical = if f.advantageGroup.isSome then r.critical else s.critical
  /-- So is a fumble. -/
  fumble : t.fumble = if f.advantageGroup.isSome then r.fumble else s.fumble

theorem joins_outcome {f g fg : Formula} (hgroups : fg.groups = f.groups ++ g.groups) (mode : Mode)
    (m m' m'' : Int) (faces : List Nat) :
    Roll.Joins f (f.outcome mode m (faces.take (f.sizes mode).length))
      (g.outcome (f.restMode mode) m' (faces.drop (f.sizes mode).length))
      (fg.outcome mode m'' faces) := by
  have hpools := pools_joined hgroups mode faces
  have hnatural := natural?_joined hgroups mode faces
  refine
    { dice := ?_
      stretches := ?_
      groupModes := fun place => ?_
      subtotal := ?_
      critical := ?_
      fumble := ?_ }
  · show (fg.pools mode faces).flatten = _
    rw [hpools, List.flatten_append]
    rfl
  · show lay 0 (fg.pools mode faces) = _
    rw [hpools, lay_append]
    rfl
  · show (if fg.modeGroup mode = some place then mode else .normal) = _
    by_cases hplace : place < f.groups.length
    · simp only [if_pos hplace, modeGroup_joined_left hgroups hplace]
      rfl
    · obtain ⟨place, rfl⟩ := Nat.exists_eq_add_of_le (Nat.le_of_not_lt hplace)
      simp only [if_neg hplace, modeGroup_joined_right hgroups, Nat.add_sub_cancel_left]
      show _ = if g.modeGroup (f.restMode mode) = some place then f.restMode mode else .normal
      by_cases hrest : g.modeGroup (f.restMode mode) = some place
      · rw [if_pos hrest, if_pos hrest, (not_used_up hrest).1]
      · rw [if_neg hrest, if_neg hrest]
  · show scoreSum (fg.throws mode) (fg.pools mode faces) = _
    rw [hpools, throws_joined hgroups, scoreSum_append (by rw [Formula.pools, length_deal])]
    rfl
  · rw [critical_outcome, hnatural]
    split <;> rfl
  · rw [fumble_outcome, hnatural]
    split <;> rfl

/-- **Rolling composes over groups.**  Where the groups of a formula are those of `f` and then those
of `g`, a roll of it draws the faces of a roll of `f` and then those of a roll of `g`, which is made
with what the first has left of the roller and of the mode; and it comes to the two rolls joined. -/
theorem roll_joins {f g fg : Formula} (hf : f.Available) (hg : g.Available)
    (hgroups : fg.groups = f.groups ++ g.groups) (hlength : fg.groups.length ≤ 2 ^ 40) (mode : Mode)
    (m m' m'' : Int) {roller after : σ} {faces : List Nat}
    (h : Deals roller (fg.sizes mode) faces after) :
    ∃ mid faces₁ faces₂ r s t log₁ log₂ log, faces = faces₁ ++ faces₂ ∧
      Deals roller (f.sizes mode) faces₁ mid ∧
      Deals mid (g.sizes (f.restMode mode)) faces₂ after ∧
      (f.roll mode m).run roller = ⟨.ok r, log₁, mid⟩ ∧
      (g.roll (f.restMode mode) m').run mid = ⟨.ok s, log₂, after⟩ ∧
      (fg.roll mode m'').run roller = ⟨.ok t, log, after⟩ ∧ Roll.Joins f r s t := by
  have hplayable : fg.Playable := by
    intro x hx
    rw [hgroups] at hx
    exact (List.mem_append.1 hx).elim (hf.playable x) (hg.playable x)
  have hrun := Formula.run_roll hplayable hlength m'' h
  rw [hgroups, List.length_append] at hlength
  rw [sizes_joined hgroups, Deals.append_iff] at h
  obtain ⟨mid, hfirst, hsecond⟩ := h
  exact ⟨mid, _, _, _, _, _, _, _, _, (List.take_append_drop _ faces).symm, hfirst, hsecond,
    Formula.run_roll hf.playable (by omega) m hfirst,
    Formula.run_roll hg.playable (by omega) m' hsecond, hrun,
    joins_outcome hgroups mode m m' m'' faces⟩

/-- The formula `2d6+4d6kh3+1d20-2d4-1`. -/
def Formula.poolThenMixed : Formula where
  groups := ⟨.plus, 2, 6, none⟩ :: Formula.mixed.groups
  constant := -1

/-- Two dice of a tray and then a formula with a lone d20, which the mode is left for. -/
theorem roll_joins_mixed :
    Formula.poolThenMixed.groups = (StandardDie.d6.formula 2).groups ++ Formula.mixed.groups ∧
      Deals (⟨[6, 1, 1, 2, 3, 4, 5, 15, 1, 4, 9]⟩ : Script)
        (Formula.poolThenMixed.sizes .advantage) [6, 1, 1, 2, 3, 4, 5, 15, 1, 4] ⟨[9]⟩ ∧
      ∃ (mid : Script) (faces₁ faces₂ : List Nat) (r s t : Roll) (log₁ log₂ log : List Event),
        [6, 1, 1, 2, 3, 4, 5, 15, 1, 4] = faces₁ ++ faces₂ ∧
        Deals (⟨[6, 1, 1, 2, 3, 4, 5, 15, 1, 4, 9]⟩ : Script)
          ((StandardDie.d6.formula 2).sizes .advantage) faces₁ mid ∧
        Deals mid (Formula.mixed.sizes .advantage) faces₂ ⟨[9]⟩ ∧
        ((StandardDie.d6.formula 2).roll .advantage 0).run
          (⟨[6, 1, 1, 2, 3, 4, 5, 15, 1, 4, 9]⟩ : Script) = ⟨.ok r, log₁, mid⟩ ∧
        (Formula.mixed.roll .advantage 3).run mid = ⟨.ok s, log₂, ⟨[9]⟩⟩ ∧
        (Formula.poolThenMixed.roll .advantage 2).run
          (⟨[6, 1, 1, 2, 3, 4, 5, 15, 1, 4, 9]⟩ : Script) = ⟨.ok t, log, ⟨[9]⟩⟩ ∧
        Roll.Joins (StandardDie.d6.formula 2) r s t := by
  have hgroups : Formula.poolThenMixed.groups =
      (StandardDie.d6.formula 2).groups ++ Formula.mixed.groups := rfl
  have hfaces : List.Forall₂ (fun sides value => 1 ≤ value ∧ value ≤ sides)
      (Formula.poolThenMixed.sizes .advantage) [6, 1, 1, 2, 3, 4, 5, 15, 1, 4] := by decide
  have hdeals := Deals.script hfaces [9]
  exact ⟨hgroups, hdeals, roll_joins (.given (.tray .d6 2)) available_mixed hgroups (by decide)
    .advantage 0 3 2 hdeals⟩

end Dicebag
