import Dicebag.Proofs.Roll.Tally

/-!
# Advantage as a keep suffix

Advantage rolls the first lone d20 twice over and picks the better die, which is what `2d20kh1`
does; disadvantage is `2d20kl1` in the same way.  The two are told apart in the log only: a pick
looks at two dice, and a keep suffix ranks all of them.

`advantage_eq_keep_one` says so for the whole roll: with the group replaced by such a pool and the
mode by normal, every die on the table is the same, and so are all stretches and numbers and what is
left of the roller.  It also says what the mode does where there is no lone d20, which is nothing.

Two throws are `Throw.Alike` if nothing on the table tells them apart; throws that are alike one by
one deal the same pools (`deal_congr`) and score the same (`scoreSum_congr`).
-/

set_option autoImplicit false

namespace Dicebag

variable {σ : Type} [Roller σ]

/-! ## Throws that look the same -/

/-- Two throws that ask for the same dice and, whatever these show, leave the same dice on the
table. -/
structure Throw.Alike (t t' : Throw) : Prop where
  /-- Both are added, or both are subtracted. -/
  sign : t.sign = t'.sign
  /-- They throw the same number of dice. -/
  count : t.count = t'.count
  /-- Their dice have the same size. -/
  sides : t.sides = t'.sides
  /-- They set the same dice aside. -/
  settle : ∀ share : List Nat, share.length = t.count → t.settle share = t'.settle share

theorem Throw.Alike.refl (t : Throw) : t.Alike t := ⟨rfl, rfl, rfl, fun _ _ => rfl⟩

theorem Throw.Alike.sizes_eq {t t' : Throw} (h : t.Alike t') : t.sizes = t'.sizes := by
  rw [Throw.sizes, Throw.sizes, h.count, h.sides]

theorem flatMap_sizes_congr {ts ts' : List Throw} (h : List.Forall₂ Throw.Alike ts ts') :
    ts.flatMap Throw.sizes = ts'.flatMap Throw.sizes := by
  induction h with
  | nil => rfl
  | cons ht _ ih => rw [List.flatMap_cons, List.flatMap_cons, ht.sizes_eq, ih]

/-- Throws that look the same deal the same pools. -/
theorem deal_congr {ts ts' : List Throw} (h : List.Forall₂ Throw.Alike ts ts') {faces : List Nat}
    (hfaces : faces.length = (ts.flatMap Throw.sizes).length) :
    deal ts faces = deal ts' faces := by
  induction h generalizing faces with
  | nil => rfl
  | @cons t t' ts ts' ht _ ih =>
    obtain ⟨hshare, hrest⟩ := length_share hfaces
    rw [deal, deal, ht.settle _ hshare, ih hrest, ht.count]

/-- Throws that look the same score the same. -/
theorem scoreSum_congr {ts ts' : List Throw} (h : List.Forall₂ Throw.Alike ts ts')
    (pools : List (List Die)) : scoreSum ts pools = scoreSum ts' pools := by
  induction h generalizing pools with
  | nil => rfl
  | cons ht _ ih =>
    cases pools with
    | nil => rfl
    | cons pool pools =>
      rw [scoreSum_cons, scoreSum_cons, ih, Throw.score, Throw.score, ht.sign]

/-! ## A pool in the place of a lone d20 -/

/-- Two d20 of which one is kept. -/
def Group.keepOne (sign : Sign) (mode : KeepMode) : Group := ⟨sign, 2, Group.d20, some ⟨mode, 1⟩⟩

/-- The formula with another group at a place. -/
def Formula.withGroup (f : Formula) (place : Nat) (g : Group) : Formula :=
  ⟨f.groups.set place g, f.constant, by
    rw [ne_eq, List.set_eq_nil_iff]
    exact f.groups_ne_nil⟩

theorem playable_keepOne (sign : Sign) (mode : KeepMode) : (Group.keepOne sign mode).Playable := by
  have hcount : Group.minCount ≤ 2 ∧ 2 ≤ 2 * Group.maxCount := by decide
  have hsides : Group.SidesInRange Group.d20 := by decide
  have hkeep : Group.KeepInRange 2 1 := by decide
  refine ⟨hcount, hsides, fun k hk => ?_⟩
  cases hk
  exact hkeep

theorem playable_withGroup {f : Formula} {place : Nat} {g : Group} (hf : f.Playable)
    (hg : g.Playable) : (f.withGroup place g).Playable := by
  intro g' hg'
  rcases List.mem_or_eq_of_mem_set hg' with hmem | rfl
  · exact hf g' hmem
  · exact hg

/-- A lone d20 that is thrown twice over looks like a pool of two of which one is kept. -/
theorem alike_twinThrow {g : Group} {mode : Mode} {keepMode : KeepMode} (hg : g.isLoneD20 = true)
    (hmode : mode.keepMode? = some keepMode) :
    (g.twinThrow mode).Alike (Group.keepOne g.sign keepMode).throw := by
  obtain ⟨hsides, hone, -⟩ := isLoneD20_iff.1 hg
  have hcount : (g.twinThrow mode).count = 2 := congrArg (· + 1) hone
  have hsides : (g.twinThrow mode).sides = Group.d20 := hsides
  refine ⟨rfl, hcount, hsides, fun share hshare => ?_⟩
  obtain ⟨first, second, rfl⟩ := List.length_eq_two.1 (hshare.trans hcount)
  rw [Throw.settle, Throw.settle, hsides]
  exact pick_eq_keep_one hmode _ _

/-- **Group by group, a roll with advantage looks like one in which the first lone d20 is a pool of
two of which one is kept.** -/
theorem alike_throws {f : Formula} {mode : Mode} {keepMode : KeepMode} {place : Nat} {g : Group}
    (hplace : f.advantageGroup = some place) (hg : f.groups[place]? = some g)
    (hmode : mode.keepMode? = some keepMode) :
    List.Forall₂ Throw.Alike (f.throws mode)
      ((f.withGroup place (.keepOne g.sign keepMode)).throws .normal) := by
  have hnormal : mode ≠ .normal := by
    rintro rfl
    cases hmode
  refine List.forall₂_iff_get.2 ⟨?_, fun i hi _ => ?_⟩
  · rw [Formula.length_throws, Formula.length_throws, Formula.withGroup, List.length_set]
  · simp only [Formula.throws_eq, List.get_eq_getElem, List.getElem_map, List.getElem_zipIdx,
      Nat.zero_add, Formula.throwAt_normal, Formula.withGroup]
    -- only the entry that was replaced is thrown in another way
    by_cases heq : place = i
    · subst heq
      have hlone : g.isLoneD20 = true :=
        isLoneD20_of_advantageGroup hplace (List.mem_zipIdx_iff_getElem?.2 hg)
      have hlt : place < f.groups.length := advantageGroup_lt hplace
      have hself : f.groups[place] = g := (List.getElem_eq_iff _).2 hg
      have hmodeGroup : f.modeGroup mode = some place :=
        Formula.modeGroup_eq_some_iff.2 ⟨hnormal, hplace⟩
      rw [List.getElem_set_self, hself, Formula.throwAt, if_pos hmodeGroup]
      exact alike_twinThrow hlone hmode
    · have hother : f.modeGroup mode ≠ some i := by
        intro h
        have hplace' := (Formula.modeGroup_eq_some_iff.1 h).2
        exact heq (Option.some.inj (hplace.symm.trans hplace'))
      rw [List.getElem_set_ne heq, Formula.throwAt, if_neg hother]
      exact .refl _

/-! ## Rolls that look the same -/

/-- Two rolls with the same dice, divided in the same way, that come to the same numbers. -/
structure Roll.Agrees (r r' : Roll) : Prop where
  /-- The dice are the same, those set aside included. -/
  dice : r.dice = r'.dice
  /-- They are divided among the groups in the same way. -/
  stretches : r.stretches = r'.stretches
  /-- The dice that count come to the same. -/
  subtotal : r.subtotal = r'.subtotal
  /-- The modifiers are the same. -/
  modifier : r.modifier = r'.modifier
  /-- The totals are the same. -/
  total : r.total = r'.total

/-- What is on the table decides, with the constant, what a roll looks like. -/
theorem agrees_of_table {f f' : Formula} {mode mode' : Mode} {faces : List Nat}
    (htable : f.table mode faces = f'.table mode' faces) (hconstant : f.constant = f'.constant)
    (modifier : Int) :
    (f.outcome mode modifier faces).Agrees (f'.outcome mode' modifier faces) := by
  rw [Formula.outcome, Formula.outcome, Roll.ofTable, Roll.ofTable, htable, hconstant]
  exact ⟨rfl, rfl, rfl, rfl, rfl⟩

theorem table_congr {f f' : Formula} {mode mode' : Mode} {faces : List Nat}
    (h : List.Forall₂ Throw.Alike (f.throws mode) (f'.throws mode'))
    (hfaces : faces.length = (f.sizes mode).length) :
    f.table mode faces = f'.table mode' faces := by
  rw [← Formula.flatMap_sizes_throws] at hfaces
  have hpools : f.pools mode faces = f'.pools mode' faces := deal_congr h hfaces
  rw [Formula.table, Formula.table, hpools, scoreSum_congr h]

/-- Without a lone d20 no group is thrown twice over. -/
theorem modeGroup_eq_none {f : Formula} (h : f.advantageGroup = none) (mode : Mode) :
    f.modeGroup mode = none := by
  rw [Formula.modeGroup, h]
  exact ite_self none

theorem throws_eq_normal {f : Formula} (h : f.advantageGroup = none) (mode : Mode) :
    f.throws mode = f.throws .normal := by
  have hnone : ∀ place, f.modeGroup mode ≠ some place := by
    intro place hplace
    rw [modeGroup_eq_none h mode] at hplace
    cases hplace
  rw [Formula.throws_eq, Formula.throws_eq]
  refine List.map_congr_left fun p _ => ?_
  show f.throwAt mode p.2 p.1 = f.throwAt .normal p.2 p.1
  rw [Formula.throwAt_normal, Formula.throwAt, if_neg (hnone p.2)]

/-- **Advantage and disadvantage are a keep suffix for the first lone d20, and nothing else.**
Where there is one, the roll in the mode and the normal roll of the formula that has a pool of two
d20 in its place, of which the highest or the lowest is kept, put the same dice on the table, come
to the same numbers and leave the roller in the same state.  Where there is none, the mode makes no
difference to the roll. -/
theorem advantage_eq_keep_one {f : Formula} (hf : f.Available)
    (hlength : f.groups.length ≤ 2 ^ 40) (mode : Mode) (modifier : Int) {roller after : σ}
    {faces : List Nat} (h : Deals roller (f.sizes mode) faces after) :
    (∀ place g keepMode, f.advantageGroup = some place → f.groups[place]? = some g →
      mode.keepMode? = some keepMode →
      ∃ r r' log log', (f.roll mode modifier).run roller = ⟨.ok r, log, after⟩ ∧
        ((f.withGroup place (.keepOne g.sign keepMode)).roll .normal modifier).run roller =
          ⟨.ok r', log', after⟩ ∧ r.Agrees r') ∧
    (f.advantageGroup = none →
      ∃ r r' log log', (f.roll mode modifier).run roller = ⟨.ok r, log, after⟩ ∧
        (f.roll .normal modifier).run roller = ⟨.ok r', log', after⟩ ∧ r.Agrees r' ∧
        r.critical = r'.critical ∧ r.fumble = r'.fumble ∧
        ∀ place, r.groupMode place = r'.groupMode place) := by
  have hrun := Formula.run_roll hf.playable hlength modifier h
  refine ⟨fun place g keepMode hplace hg hmode => ?_, fun hnone => ?_⟩
  · have halike := alike_throws hplace hg hmode
    have hsizes : (f.withGroup place (.keepOne g.sign keepMode)).sizes .normal = f.sizes mode := by
      rw [← Formula.flatMap_sizes_throws, ← flatMap_sizes_congr halike,
        Formula.flatMap_sizes_throws]
    have hlength' : (f.withGroup place (.keepOne g.sign keepMode)).groups.length ≤ 2 ^ 40 := by
      rwa [Formula.withGroup, List.length_set]
    have hplayable : (f.withGroup place (.keepOne g.sign keepMode)).Playable :=
      playable_withGroup hf.playable (playable_keepOne g.sign keepMode)
    have htable := table_congr halike h.length_eq
    rw [← hsizes] at h
    exact ⟨_, _, _, _, hrun, Formula.run_roll hplayable hlength' modifier h,
      agrees_of_table htable rfl modifier⟩
  · have hthrows := throws_eq_normal hnone mode
    have hsizes : f.sizes .normal = f.sizes mode := by
      rw [← Formula.flatMap_sizes_throws, ← hthrows, Formula.flatMap_sizes_throws]
    have htable : f.table mode faces = f.table .normal faces := by
      rw [Formula.table, Formula.table, Formula.pools, Formula.pools, hthrows]
    rw [← hsizes] at h
    refine ⟨_, _, _, _, hrun, Formula.run_roll hf.playable hlength modifier h,
      agrees_of_table htable rfl modifier, ?_, ?_, fun place => ?_⟩
    · show (f.natural? _ == some Group.d20) = _
      rw [htable]
      rfl
    · show (f.natural? _ == some 1) = _
      rw [htable]
      rfl
    · have hmode : (f.outcome mode modifier faces).modeGroup = none := modeGroup_eq_none hnone mode
      have hnormal : (f.outcome .normal modifier faces).modeGroup = none :=
        modeGroup_eq_none hnone .normal
      rw [Roll.groupMode, Roll.groupMode, hmode, hnormal]
      rfl

/-- Disadvantage on the second group of a formula, with a tie, and on a formula without a d20. -/
theorem advantage_eq_keep_one_mixed :
    (∃ r r' log log', (Formula.mixed.roll .disadvantage 0).run
          (⟨[1, 2, 3, 4, 7, 7, 1, 4, 9]⟩ : Script) = ⟨.ok r, log, ⟨[9]⟩⟩ ∧
        ((Formula.mixed.withGroup 1 (.keepOne .plus .lowest)).roll .normal 0).run
          (⟨[1, 2, 3, 4, 7, 7, 1, 4, 9]⟩ : Script) = ⟨.ok r', log', ⟨[9]⟩⟩ ∧ r.Agrees r') ∧
    ∃ r r' log log', ((StandardDie.d6.formula 2).roll .disadvantage 0).run
          (⟨[6, 1]⟩ : Script) = ⟨.ok r, log, ⟨[]⟩⟩ ∧
        ((StandardDie.d6.formula 2).roll .normal 0).run (⟨[6, 1]⟩ : Script) =
          ⟨.ok r', log', ⟨[]⟩⟩ ∧ r.Agrees r' ∧
        r.critical = r'.critical ∧ r.fumble = r'.fumble ∧
        ∀ place, r.groupMode place = r'.groupMode place := by
  have hmixed : List.Forall₂ (fun sides value => 1 ≤ value ∧ value ≤ sides)
      (Formula.mixed.sizes .disadvantage) [1, 2, 3, 4, 7, 7, 1, 4] := by decide
  have htray : List.Forall₂ (fun sides value => 1 ≤ value ∧ value ≤ sides)
      ((StandardDie.d6.formula 2).sizes .disadvantage) [6, 1] := by decide
  have hpool := advantage_eq_keep_one available_mixed (by decide) .disadvantage 0
    (Deals.script hmixed [9])
  have hsame := advantage_eq_keep_one (.given (.tray .d6 2)) (by decide) .disadvantage 0
    (Deals.script htray [])
  exact ⟨hpool.1 1 ⟨.plus, 1, 20, none⟩ .lowest rfl rfl rfl, hsame.2 rfl⟩

end Dicebag
