import Dicebag.Proofs.Roll.Outcome

/-!
# The tally of a roll

A `Tally` says what has to be true of a roll of a formula that showed certain faces: how many dice
there are and what they show, how the row is divided among the groups, how many dice of each group
count, and what the numbers add up to.  It does not mention how the dice were thrown.

`roll_tallies` is the main statement: every formula that play can roll, in every mode and with every
modifier, ends in a roll that has its tally.  The tally of the dice is taken throw by throw
(`map_deal`), and the counts of all throws together come to one die more than the formula has if
there is a lone d20 to throw twice over (`length_sizes`).
-/

set_option autoImplicit false

namespace Dicebag

variable {σ : Type} [Roller σ]

/-- How many dice of a group count. -/
def Group.keptCount (g : Group) : Nat :=
  match g.keep with
  | some k => k.amount
  | none => g.count

/-- What is true of the roll of a formula in a mode, with a modifier from outside, that showed these
faces. -/
structure Tally (f : Formula) (mode : Mode) (modifier : Int) (faces : List Nat) (r : Roll) :
    Prop where
  /-- The dice of all groups are drawn, and one more if there is a lone d20 to throw twice over. -/
  drawn : faces.length = (f.groups.map Group.count).sum +
    if mode ≠ .normal ∧ f.advantageGroup.isSome then 1 else 0
  /-- The dice show the faces in the order in which they were drawn, and have the sizes of their
  groups. -/
  showing : r.dice.map Die.face = (f.sizes mode).zip faces
  /-- The stretches divide the whole row. -/
  tiles : Tiles 0 r.stretches r.dice.length
  /-- Every group has a stretch, as long as the number of dice that it throws. -/
  lengths : r.stretches.map Stretch.length =
    f.groups.zipIdx.map fun (g, i) => f.diceThrown mode i g
  /-- Of every group as many dice count as its keep suffix says, or as it has dice. -/
  kept : r.pools.map (fun pool => (pool.filter Die.kept).length) = f.groups.map Group.keptCount
  /-- The subtotal is the sum of the dice that count, with the signs of their groups. -/
  subtotal : r.subtotal = (List.zipWith (fun (g : Group) (pool : List Die) =>
    g.sign.apply (((pool.filter Die.kept).map Die.value).sum : Nat)) f.groups r.pools).sum
  /-- The modifier is the constant and the outside modifier, as far as totals go. -/
  modifier : r.modifier = Total.clamp (f.constant + modifier)
  /-- The total is the subtotal and the modifier, as far as totals go. -/
  total : r.total = Total.clamp (r.subtotal + r.modifier)
  /-- The subtotal never left its range. -/
  inRange : Total.InRange r.subtotal
  /-- The number of dice that a group throws is an amount. -/
  amounts : ∀ p ∈ f.groups.zipIdx, f.diceThrown mode p.2 p.1 ≤ Digits.greatest
  /-- The group that criticals and fumbles are read from has a stretch. -/
  designated : ∀ i, f.advantageGroup = some i → i < r.stretches.length

/-! ## Throw by throw -/

/-- What holds of the pool of each throw holds of the row of pools. -/
theorem map_deal {β : Type} {φ : List Die → β} {ψ : Throw → β} {ts : List Throw}
    {faces : List Nat} (hfaces : faces.length = (ts.flatMap Throw.sizes).length)
    (h : ∀ t ∈ ts, ∀ share : List Nat, share.length = t.count → φ (t.settle share) = ψ t) :
    (deal ts faces).map φ = ts.map ψ := by
  induction ts generalizing faces with
  | nil => rfl
  | cons t ts ih =>
    obtain ⟨hshare, hrest⟩ := length_share hfaces
    obtain ⟨ht, hts⟩ := List.forall_mem_cons.1 h
    rw [deal, List.map_cons, List.map_cons, ht _ hshare, ih hrest hts]

theorem map_length_deal {ts : List Throw} {faces : List Nat}
    (hfaces : faces.length = (ts.flatMap Throw.sizes).length) :
    (deal ts faces).map List.length = ts.map Throw.count :=
  map_deal hfaces fun t _ share hshare => (t.length_settle share).trans hshare

/-- **The row shows the faces as they were dealt**, on dice of the sizes that were asked for. -/
theorem map_face_flatten_deal {ts : List Throw} {faces : List Nat}
    (hfaces : faces.length = (ts.flatMap Throw.sizes).length) :
    (deal ts faces).flatten.map Die.face = (ts.flatMap Throw.sizes).zip faces := by
  induction ts generalizing faces with
  | nil => rfl
  | cons t ts ih =>
    obtain ⟨hshare, hrest⟩ := length_share hfaces
    have hzip : t.sizes.zip (faces.take t.count) =
        (faces.take t.count).map fun value => (t.sides, value) := by
      rw [List.map_prod_right_eq_zip, List.map_const', hshare]
      rfl
    calc (deal (t :: ts) faces).flatten.map Die.face
        = (t.settle (faces.take t.count)).map Die.face ++
            (deal ts (faces.drop t.count)).flatten.map Die.face := by
          rw [deal, List.flatten_cons, List.map_append]
      _ = t.sizes.zip (faces.take t.count) ++
            (ts.flatMap Throw.sizes).zip (faces.drop t.count) := by
          rw [t.map_face_settle, ih hrest, hzip]
      _ = ((t :: ts).flatMap Throw.sizes).zip faces := by
          rw [← List.zip_append (by rw [hshare, t.length_sizes]), List.take_append_drop,
            List.flatMap_cons]

/-! ## How many dice are drawn -/

/-- Exactly one entry of a row lies at a place inside it. -/
theorem sum_at_place {α : Type} (row : List α) (start place : Nat) :
    ((row.zipIdx start).map fun p => if some (start + place) = some p.2 then 1 else 0).sum =
      if place < row.length then 1 else 0 := by
  induction row generalizing start place with
  | nil => rfl
  | cons a row ih =>
    rw [List.zipIdx_cons, List.map_cons, List.sum_cons]
    cases place with
    | zero =>
      have hrest : ((row.zipIdx (start + 1)).map
          fun p => if some (start + 0) = some p.2 then 1 else 0).sum = 0 := by
        refine List.sum_eq_zero fun n hn => ?_
        obtain ⟨p, hp, rfl⟩ := List.mem_map.1 hn
        have hle := List.le_snd_of_mem_zipIdx hp
        rw [if_neg (by rw [Option.some.injEq]; omega)]
      rw [hrest]
      simp
    | succ place =>
      have hrest := ih (start + 1) place
      rw [Nat.add_assoc, Nat.add_comm 1 place] at hrest
      rw [hrest]
      simp

theorem advantageGroup_lt {f : Formula} {place : Nat} (h : f.advantageGroup = some place) :
    place < f.groups.length := by
  obtain ⟨hlt, -⟩ := List.findIdx?_eq_some_iff_getElem.1 h
  exact hlt

/-- The groups throw one die between them beyond their own, if there is a lone d20 and the mode is
not normal. -/
theorem sum_extra (f : Formula) (mode : Mode) :
    (f.groups.zipIdx.map fun p =>
        if mode ≠ .normal ∧ f.advantageGroup = some p.2 then 1 else 0).sum =
      if mode ≠ .normal ∧ f.advantageGroup.isSome then 1 else 0 := by
  by_cases hmode : mode = .normal
  · simp [hmode]
  · cases hplace : f.advantageGroup with
    | none => simp
    | some place =>
      have hsum := sum_at_place f.groups 0 place
      rw [Nat.zero_add, if_pos (advantageGroup_lt hplace)] at hsum
      simpa [hmode] using hsum

/-- **A roll draws the dice of all groups, and one more for the first lone d20** in any mode but
normal. -/
theorem length_sizes (f : Formula) (mode : Mode) :
    (f.sizes mode).length = (f.groups.map Group.count).sum +
      if mode ≠ .normal ∧ f.advantageGroup.isSome then 1 else 0 := by
  have hlength : (f.sizes mode).length =
      (f.groups.zipIdx.map fun p => f.diceThrown mode p.2 p.1).sum := by
    rw [Formula.sizes, List.length_flatMap]
    simp only [List.length_replicate]
  rw [hlength, ← sum_extra, ← map_fst_zipIdx Group.count, ← List.sum_map_add]
  rfl

/-! ## How many dice count -/

/-- Where a mode picks one of the dice of the throw, it is not normal and there are two of them. -/
def Throw.Sound (t : Throw) : Prop := ∀ mode, t.rule = .pick mode → mode ≠ .normal ∧ t.count = 2

/-- How many dice of a throw count. -/
def Throw.keptCount (t : Throw) : Nat :=
  match t.rule with
  | .all => t.count
  | .keep k => min k.amount t.count
  | .pick _ => 1

theorem count_kept_settle {t : Throw} (ht : t.Sound) {share : List Nat}
    (hshare : share.length = t.count) :
    ((t.settle share).filter Die.kept).length = t.keptCount := by
  have hlength : (share.map (Die.fresh t.sides)).length = t.count := by
    rw [List.length_map, hshare]
  have hfresh : ∀ d ∈ share.map (Die.fresh t.sides), d.kept = true :=
    kept_of_mem_fresh t.sides share
  rw [Throw.settle, Throw.keptCount]
  cases hrule : t.rule with
  | all =>
    show ((share.map (Die.fresh t.sides)).filter Die.kept).length = t.count
    rw [List.filter_eq_self.2 hfresh, hlength]
  | keep k => rw [count_kept_keep k hfresh, hlength]
  | pick mode =>
    obtain ⟨hmode, hcount⟩ := ht mode hrule
    obtain ⟨first, second, hpair⟩ := List.length_eq_two.1 (hlength.trans hcount)
    rw [hpair] at hfresh ⊢
    exact count_kept_pick hmode (hfresh first (by simp)) (hfresh second (by simp))

/-- The group that is thrown twice over is a lone d20. -/
theorem isLoneD20_of_advantageGroup {f : Formula} {place : Nat} {g : Group}
    (h : f.advantageGroup = some place) (hg : (g, place) ∈ f.groups.zipIdx) :
    g.isLoneD20 = true := by
  obtain ⟨hlt, hlone, -⟩ := List.findIdx?_eq_some_iff_getElem.1 h
  have hget := List.mem_zipIdx_iff_getElem?.1 hg
  rw [List.getElem?_eq_getElem hlt, Option.some.injEq] at hget
  rwa [hget] at hlone

theorem isLoneD20_iff {g : Group} :
    g.isLoneD20 = true ↔ g.sides = Group.d20 ∧ g.count = 1 ∧ g.keep = none := by
  rw [Group.isLoneD20, Bool.and_eq_true, Bool.and_eq_true, beq_iff_eq, beq_iff_eq,
    Option.isNone_iff_eq_none, and_assoc]

theorem sound_throwAt {f : Formula} {mode : Mode} {place : Nat} {g : Group}
    (hg : (g, place) ∈ f.groups.zipIdx) : (f.throwAt mode place g).Sound := by
  intro mode' hrule
  rw [Formula.throwAt] at hrule ⊢
  by_cases hplace : f.modeGroup mode = some place
  · obtain ⟨hmode, hadvantage⟩ := Formula.modeGroup_eq_some_iff.1 hplace
    rw [if_pos hplace] at hrule ⊢
    obtain rfl : mode = mode' := Rule.pick.inj hrule
    obtain ⟨-, hcount, -⟩ := isLoneD20_iff.1 (isLoneD20_of_advantageGroup hadvantage hg)
    exact ⟨hmode, congrArg (· + 1) hcount⟩
  · rw [if_neg hplace, Group.throw] at hrule
    cases hkeep : g.keep <;> rw [hkeep] at hrule <;> cases hrule

theorem sound_throws (f : Formula) (mode : Mode) : ∀ t ∈ f.throws mode, t.Sound := by
  intro t ht
  obtain ⟨p, hp, rfl⟩ := List.mem_map.1 ht
  exact sound_throwAt hp

theorem keptCount_throwAt {f : Formula} {mode : Mode} {place : Nat} {g : Group}
    (hplayable : g.Playable) (hg : (g, place) ∈ f.groups.zipIdx) :
    (f.throwAt mode place g).keptCount = g.keptCount := by
  rw [Formula.throwAt]
  by_cases hplace : f.modeGroup mode = some place
  · have hadvantage := (Formula.modeGroup_eq_some_iff.1 hplace).2
    obtain ⟨-, hcount, hkeep⟩ := isLoneD20_iff.1 (isLoneD20_of_advantageGroup hadvantage hg)
    rw [if_pos hplace, Group.keptCount, hkeep, hcount]
    rfl
  · rw [if_neg hplace, Throw.keptCount, Group.throw, Group.keptCount]
    cases hkeep : g.keep with
    | none => rfl
    | some k => exact Nat.min_eq_left (hplayable.keep k hkeep).2

/-! ## The whole roll -/

/-- The scores of the throws are those of the groups. -/
theorem zipWith_score_throws (f : Formula) (mode : Mode) (pools : List (List Die)) :
    List.zipWith Throw.score (f.throws mode) pools =
      List.zipWith (fun (g : Group) (pool : List Die) => g.sign.apply (keptSum pool)) f.groups
        pools := by
  have hgroups : f.groups = f.groups.zipIdx.map Prod.fst := (List.zipIdx_map_fst 0 _).symm
  rw [Formula.throws_eq, List.zipWith_map_left, hgroups, List.zipWith_map_left, ← hgroups]
  simp only [Throw.score, Formula.sign_throwAt]

/-- What the throws score is what the groups score. -/
theorem scoreSum_throws (f : Formula) (mode : Mode) (pools : List (List Die)) :
    scoreSum (f.throws mode) pools = (List.zipWith (fun (g : Group) (pool : List Die) =>
      g.sign.apply (((pool.filter Die.kept).map Die.value).sum : Nat)) f.groups pools).sum := by
  rw [scoreSum, zipWith_score_throws]
  simp only [keptSum_eq]

/-- What throws come to together that depends on their signs, their sizes and the number of their
dice that count, the groups come to as well. -/
theorem sum_map_throws {f : Formula} (hf : f.Playable) (mode : Mode) (φ : Sign → Nat → Nat → Int) :
    ((f.throws mode).map fun t => φ t.sign t.keptCount t.sides).sum =
      (f.groups.map fun g => φ g.sign g.keptCount g.sides).sum := by
  rw [Formula.throws_eq, List.map_map,
    ← map_fst_zipIdx fun g : Group => φ g.sign g.keptCount g.sides]
  refine congrArg List.sum (List.map_congr_left fun p hp => ?_)
  have hplayable : p.1.Playable := hf p.1 (List.fst_mem_of_mem_zipIdx hp)
  simp only [Function.comp, f.sign_throwAt, f.sides_throwAt, keptCount_throwAt hplayable hp]

theorem map_face_pools {f : Formula} {mode : Mode} {faces : List Nat}
    (hfaces : faces.length = (f.sizes mode).length) :
    (f.pools mode faces).flatten.map Die.face = (f.sizes mode).zip faces := by
  rw [← Formula.flatMap_sizes_throws] at hfaces ⊢
  exact map_face_flatten_deal hfaces

theorem map_length_pools {f : Formula} {mode : Mode} {faces : List Nat}
    (hfaces : faces.length = (f.sizes mode).length) :
    (f.pools mode faces).map List.length =
      f.groups.zipIdx.map fun (g, i) => f.diceThrown mode i g := by
  rw [← Formula.flatMap_sizes_throws] at hfaces
  rw [Formula.pools, map_length_deal hfaces, Formula.throws_eq, List.map_map]
  exact List.map_congr_left fun p _ => f.count_throwAt mode p.2 p.1

theorem map_kept_pools {f : Formula} (hf : f.Playable) {mode : Mode} {faces : List Nat}
    (hfaces : faces.length = (f.sizes mode).length) :
    (f.pools mode faces).map (fun pool => (pool.filter Die.kept).length) =
      f.groups.map Group.keptCount := by
  rw [← Formula.flatMap_sizes_throws] at hfaces
  have hthrows : (f.pools mode faces).map (fun pool => (pool.filter Die.kept).length) =
      (f.throws mode).map Throw.keptCount :=
    map_deal hfaces fun t ht _ hshare => count_kept_settle (sound_throws f mode t ht) hshare
  rw [hthrows, Formula.throws_eq, List.map_map, ← map_fst_zipIdx Group.keptCount]
  refine List.map_congr_left fun p hp => ?_
  exact keptCount_throwAt (hf p.1 (List.fst_mem_of_mem_zipIdx hp)) hp

theorem diceThrown_le_greatest {f : Formula} (hf : f.Playable) (mode : Mode) :
    ∀ p ∈ f.groups.zipIdx, f.diceThrown mode p.2 p.1 ≤ Digits.greatest := by
  intro p hp
  have hplayable : p.1.Playable := hf p.1 (List.fst_mem_of_mem_zipIdx hp)
  have hle : f.diceThrown mode p.2 p.1 ≤ 2 * Group.maxCount + 1 :=
    Formula.diceThrown_le hplayable
  exact Nat.le_trans hle (by decide)

/-- **A roll has its tally.**  Whatever formula is rolled of those that play can make, in whatever
mode and with whatever modifier, a roller that deals a face for every die is asked for just these
dice, the roll comes to an end, and what it ends with is as the tally says. -/
theorem roll_tallies {f : Formula} (hf : f.Available) (hlength : f.groups.length ≤ 2 ^ 40)
    {mode : Mode} (modifier : Int) {roller after : σ} {faces : List Nat}
    (h : Deals roller (f.sizes mode) faces after) :
    ∃ r log, (f.roll mode modifier).run roller = ⟨.ok r, log, after⟩ ∧
      Tally f mode modifier faces r := by
  refine ⟨_, _, Formula.run_roll hf.playable hlength modifier h, ?_⟩
  refine
    { drawn := ?_
      showing := map_face_pools h.length_eq
      tiles := ?_
      lengths := ?_
      kept := ?_
      subtotal := ?_
      modifier := rfl
      total := rfl
      inRange := Formula.subtotal_inRange hf.playable hlength modifier h
      amounts := diceThrown_le_greatest hf.playable mode
      designated := ?_ }
  · rw [h.length_eq, length_sizes]
  · have htiles := tiles_lay 0 (f.pools mode faces)
    rwa [Nat.zero_add] at htiles
  · show (lay 0 (f.pools mode faces)).map Stretch.length = _
    rw [map_length_lay, map_length_pools h.length_eq]
  · rw [Formula.pools_outcome, map_kept_pools hf.playable h.length_eq]
  · rw [Formula.pools_outcome, ← scoreSum_throws]
    rfl
  · intro place hplace
    show place < (lay 0 (f.pools mode faces)).length
    rw [length_lay, Formula.pools, length_deal, Formula.length_throws]
    exact advantageGroup_lt hplace

/-- Eight dice of a formula with a lone d20, with advantage, from a script with a face to spare. -/
theorem roll_tallies_mixed :
    Formula.mixed.Available ∧ Formula.mixed.groups.length ≤ 2 ^ 40 ∧
      Deals (⟨[1, 2, 3, 4, 5, 15, 1, 4, 9]⟩ : Script) (Formula.mixed.sizes .advantage)
        [1, 2, 3, 4, 5, 15, 1, 4] ⟨[9]⟩ ∧
      ∃ r log, (Formula.mixed.roll .advantage 2).run (⟨[1, 2, 3, 4, 5, 15, 1, 4, 9]⟩ : Script) =
          ⟨.ok r, log, ⟨[9]⟩⟩ ∧
        Tally Formula.mixed .advantage 2 [1, 2, 3, 4, 5, 15, 1, 4] r := by
  have hlength : Formula.mixed.groups.length ≤ 2 ^ 40 := by decide
  have hfaces : List.Forall₂ (fun sides value => 1 ≤ value ∧ value ≤ sides)
      (Formula.mixed.sizes .advantage) [1, 2, 3, 4, 5, 15, 1, 4] := by decide
  have hdeals := Deals.script hfaces [9]
  exact ⟨available_mixed, hlength, hdeals, roll_tallies available_mixed hlength 2 hdeals⟩

end Dicebag
