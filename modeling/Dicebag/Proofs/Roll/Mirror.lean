import Dicebag.Proofs.Roll.Natural
import Dicebag.Proofs.Rule.Mirror

/-!
# The mirror image of a roll

A formula in the mirror keeps the lowest dice where it kept the highest, and the other way round; a
mode in the mirror exchanges advantage and disadvantage.  If all dice show their faces in the
mirror, then the roll of the image is the image of the roll: the same dice are set aside, ties
included, and a critical is a fumble.

* `throws_mirrored` says that the plan of the throws is mirrored throw by throw; the sizes of the
  dice stay what they are (`sizes_mirrored`), so the two rolls draw the same dice.
* `deal_mirrored` says the same of the pools, and `scoreSum_mirrored` what the two subtotals come to
  together.
* `natural?_mirrored` follows the face that criticals and fumbles are read from.
* `roll_mirrored` puts them together in `Roll.Mirrors`.
-/

set_option autoImplicit false

namespace Dicebag

variable {σ τ : Type} [Roller σ] [Roller τ]

/-! ## Images -/

/-- The faces that dice of the given sizes show in the mirror. -/
def mirroredFaces (sizes faces : List Nat) : List Nat := List.zipWith mirroredFace sizes faces

/-- The group with the other end of the ranking kept, if it keeps one. -/
def Group.mirrored (g : Group) : Group := { g with keep := g.keep.map Keep.mirrored }

/-- The formula with highest and lowest exchanged in all groups. -/
def Formula.mirrored (f : Formula) : Formula :=
  ⟨f.groups.map Group.mirrored, f.constant, by simpa using f.groups_ne_nil⟩

/-- The throw with the image of its rule. -/
def Throw.mirrored (t : Throw) : Throw := { t with rule := t.rule.mirrored }

theorem playable_mirrored {f : Formula} (hf : f.Playable) : f.mirrored.Playable := by
  intro g' hg'
  obtain ⟨g, hg, rfl⟩ := List.mem_map.1 hg'
  have hplayable : g.Playable := hf g hg
  refine ⟨hplayable.count, hplayable.sides, fun k' hk' => ?_⟩
  obtain ⟨k, hk, rfl⟩ := Option.map_eq_some_iff.1 hk'
  exact hplayable.keep k hk

/-! ## The plan -/

theorem isLoneD20_mirrored (g : Group) : g.mirrored.isLoneD20 = g.isLoneD20 := by
  rw [Group.isLoneD20, Group.isLoneD20, Group.mirrored, Option.isNone_map]

theorem advantageGroup_mirrored (f : Formula) : f.mirrored.advantageGroup = f.advantageGroup := by
  have hlone : Group.isLoneD20 ∘ Group.mirrored = Group.isLoneD20 := funext isLoneD20_mirrored
  rw [Formula.advantageGroup, Formula.mirrored, List.findIdx?_map, hlone]
  rfl

theorem modeGroup_mirrored (f : Formula) (mode : Mode) :
    f.mirrored.modeGroup mode.mirrored = f.modeGroup mode := by
  simp only [Formula.modeGroup, advantageGroup_mirrored, mirrored_eq_normal_iff]

theorem throw_mirrored (g : Group) : g.mirrored.throw = g.throw.mirrored := by
  rw [Group.throw, Group.throw, Group.mirrored, Throw.mirrored]
  cases g.keep <;> rfl

theorem throwAt_mirrored (f : Formula) (mode : Mode) (place : Nat) (g : Group) :
    f.mirrored.throwAt mode.mirrored place g.mirrored = (f.throwAt mode place g).mirrored := by
  rw [Formula.throwAt, Formula.throwAt, modeGroup_mirrored]
  split
  · rfl
  · exact throw_mirrored g

/-- **The plan of the throws is mirrored throw by throw.** -/
theorem throws_mirrored (f : Formula) (mode : Mode) :
    f.mirrored.throws mode.mirrored = (f.throws mode).map Throw.mirrored := by
  rw [Formula.throws_eq, Formula.throws_eq, Formula.mirrored, List.zipIdx_map, List.map_map,
    List.map_map]
  exact List.map_congr_left fun p _ => throwAt_mirrored f mode p.2 p.1

/-- The same dice are drawn. -/
theorem sizes_mirrored (f : Formula) (mode : Mode) :
    f.mirrored.sizes mode.mirrored = f.sizes mode := by
  rw [← Formula.flatMap_sizes_throws, throws_mirrored, List.flatMap_map,
    ← Formula.flatMap_sizes_throws]
  rfl

/-! ## The pools -/

/-- The image of a throw leaves the images of its dice on the table. -/
theorem settle_mirrored {t : Throw} {share : List Nat} (h : ∀ value ∈ share, value ≤ t.sides) :
    t.mirrored.settle (share.map (mirroredFace t.sides)) =
      (t.settle share).map Die.mirrored := by
  have hfresh : ∀ d ∈ share.map (Die.fresh t.sides), d.Within t.sides := by
    intro d hd
    obtain ⟨value, hvalue, rfl⟩ := List.mem_map.1 hd
    exact ⟨rfl, h value hvalue⟩
  have himage : (share.map (mirroredFace t.sides)).map (Die.fresh t.sides) =
      (share.map (Die.fresh t.sides)).map Die.mirrored := by
    rw [List.map_map, List.map_map]
    rfl
  rw [Throw.settle, Throw.settle, ← t.rule.apply_mirrored hfresh, ← himage]
  rfl

theorem mirroredFaces_replicate {n sides : Nat} {share : List Nat} (h : share.length = n) :
    mirroredFaces (List.replicate n sides) share = share.map (mirroredFace sides) := by
  rw [mirroredFaces, ← h, ← List.map_const', List.zipWith_map_left, List.zipWith_self]

/-- What throws are dealt in the mirror: each its share, with the faces of the mirror. -/
theorem share_mirrored {t : Throw} {ts : List Throw} {faces : List Nat}
    (h : faces.length = ((t :: ts).flatMap Throw.sizes).length) :
    (mirroredFaces ((t :: ts).flatMap Throw.sizes) faces).take t.count =
        (faces.take t.count).map (mirroredFace t.sides) ∧
      (mirroredFaces ((t :: ts).flatMap Throw.sizes) faces).drop t.count =
        mirroredFaces (ts.flatMap Throw.sizes) (faces.drop t.count) := by
  rw [mirroredFaces, List.flatMap_cons, List.take_zipWith, List.drop_zipWith,
    List.take_left' t.length_sizes, List.drop_left' t.length_sizes]
  exact ⟨mirroredFaces_replicate (length_share h).1, rfl⟩

/-- **The pools of the throws in the mirror are the images of their pools.** -/
theorem deal_mirrored {ts : List Throw} {roller after : σ} {faces : List Nat}
    (h : Deals roller (ts.flatMap Throw.sizes) faces after) :
    deal (ts.map Throw.mirrored) (mirroredFaces (ts.flatMap Throw.sizes) faces) =
      (deal ts faces).map (List.map Die.mirrored) := by
  induction ts generalizing roller faces with
  | nil => rfl
  | cons t ts ih =>
    obtain ⟨htake, hdrop⟩ := share_mirrored h.length_eq
    obtain ⟨mid, hfirst, hrest⟩ := deals_cons_iff.1 h
    have hcount : t.mirrored.count = t.count := rfl
    have hmost : ∀ value ∈ faces.take t.count, value ≤ t.sides := fun value hvalue =>
      (t.face_mem hfirst value hvalue).2
    rw [List.map_cons, deal, hcount, htake, hdrop, settle_mirrored hmost, ih hrest]
    rfl

/-- Pools in the mirror lie where they lay. -/
theorem lay_map_map (start : Nat) (pools : List (List Die)) (φ : Die → Die) :
    lay start (pools.map (List.map φ)) = lay start pools := by
  induction pools generalizing start with
  | nil => rfl
  | cons pool pools ih => rw [List.map_cons, lay, lay, List.length_map, ih]

/-! ## The subtotal -/

/-- A pool and its image score together what the dice that count come to if each shows one more than
its sides. -/
theorem score_mirrored (t : Throw) {pool : List Die} (h : ∀ d ∈ pool, d.Within t.sides) :
    t.mirrored.score (pool.map Die.mirrored) =
      t.sign.apply ((pool.filter Die.kept).length * (t.sides + 1) : Nat) - t.score pool := by
  have hsum := keptSum_mirrored h
  have hsign : t.mirrored.sign = t.sign := rfl
  rw [Throw.score, Throw.score, hsign, ← hsum]
  cases t.sign <;> simp only [Sign.apply] <;> omega

/-- **The scores of throws and of their images**, added up over all throws. -/
theorem scoreSum_mirrored {ts : List Throw} (hts : ∀ t ∈ ts, t.Sound) {roller after : σ}
    {faces : List Nat} (h : Deals roller (ts.flatMap Throw.sizes) faces after) :
    scoreSum (ts.map Throw.mirrored) ((deal ts faces).map (List.map Die.mirrored)) =
      (ts.map fun t => t.sign.apply (t.keptCount * (t.sides + 1) : Nat)).sum -
        scoreSum ts (deal ts faces) := by
  induction ts generalizing roller faces with
  | nil => rfl
  | cons t ts ih =>
    obtain ⟨ht, hts⟩ := List.forall_mem_cons.1 hts
    have hcount := (length_share h.length_eq).1
    obtain ⟨mid, hfirst, hrest⟩ := deals_cons_iff.1 h
    have hpool : ∀ d ∈ t.settle (faces.take t.count), d.Within t.sides := fun d hd =>
      ⟨(face_of_mem_settle hd).1, (t.face_mem hfirst d.value (face_of_mem_settle hd).2).2⟩
    rw [deal, List.map_cons, List.map_cons, scoreSum_cons, scoreSum_cons, List.map_cons,
      List.sum_cons, ih hts hrest, score_mirrored t hpool, count_kept_settle ht hcount]
    omega

/-! ## Criticals and fumbles -/

section

variable {f : Formula} {mode : Mode} {roller after : σ} {faces : List Nat}
  (h : Deals roller (f.sizes mode) faces after)

include h

/-- The pools of the image of a formula are the images of its pools. -/
theorem pools_mirrored :
    f.mirrored.pools mode.mirrored (mirroredFaces (f.sizes mode) faces) =
      (f.pools mode faces).map (List.map Die.mirrored) := by
  rw [← Formula.flatMap_sizes_throws] at h ⊢
  rw [Formula.pools, throws_mirrored, deal_mirrored h]
  rfl

/-- **The face that criticals and fumbles are read from is mirrored.** -/
theorem natural?_mirrored {p : Nat} (hp : f.NaturalAt p) :
    ∃ value, OnD20 value ∧ f.natural? (f.table mode faces) = some value ∧
      f.mirrored.natural? (f.mirrored.table mode.mirrored (mirroredFaces (f.sizes mode) faces)) =
        some (mirroredFace Group.d20 value) := by
  obtain ⟨first, second, hfirst, hsecond, -, -, hnatural⟩ := exists_natural h hp
  obtain ⟨before, g, later, hgroups, hbefore, hg, -⟩ := hp
  have hplace := advantageGroup_of_split hgroups hbefore hg
  have hplace' := (advantageGroup_mirrored f).trans hplace
  have hpool := getElem?_pools_of_split hgroups hplace mode faces
  refine ⟨_, onD20_countingFace hfirst hsecond, hnatural, ?_⟩
  rw [natural?_table hplace, hpool, Option.bind_some, Option.map_eq_some_iff] at hnatural
  obtain ⟨d, hfind, hvalue⟩ := hnatural
  have hsides : d.sides = Group.d20 :=
    (face_of_mem_settle (List.mem_of_find?_eq_some hfind)).1.trans (sides_naturalThrow hg mode)
  have hkept : Die.kept ∘ Die.mirrored = Die.kept := rfl
  rw [natural?_table hplace', pools_mirrored h, List.getElem?_map, hpool, Option.map_some,
    Option.bind_some, List.find?_map, hkept, hfind, Option.map_some, Option.map_some, Die.mirrored,
    hsides, hvalue]

/-- **In the mirror a critical is a fumble, and a fumble a critical.** -/
theorem flags_mirrored (m m' : Int) :
    (f.mirrored.outcome mode.mirrored m' (mirroredFaces (f.sizes mode) faces)).critical =
        (f.outcome mode m faces).fumble ∧
      (f.mirrored.outcome mode.mirrored m' (mirroredFaces (f.sizes mode) faces)).fumble =
        (f.outcome mode m faces).critical := by
  rcases forall_or_naturalAt f with hnone | ⟨p, hp⟩
  · have hnone' : ∀ g ∈ f.mirrored.groups, g.isLoneD20 = false := by
      intro g' hg'
      obtain ⟨g, hg, rfl⟩ := List.mem_map.1 hg'
      exact (isLoneD20_mirrored g).trans (hnone g hg)
    obtain ⟨hcritical, hfumble⟩ := flags_eq_false hnone mode m faces
    obtain ⟨hcritical', hfumble'⟩ :=
      flags_eq_false hnone' mode.mirrored m' (mirroredFaces (f.sizes mode) faces)
    exact ⟨hcritical'.trans hfumble.symm, hfumble'.trans hcritical.symm⟩
  · obtain ⟨value, ⟨hleast, hmost⟩, hnatural, hnatural'⟩ := natural?_mirrored h hp
    have hd20 : Group.d20 = 20 := rfl
    rw [hd20] at hmost
    rw [critical_outcome, fumble_outcome, critical_outcome, fumble_outcome, hnatural, hnatural',
      mirroredFace, hd20]
    constructor <;>
      rw [Bool.eq_iff_iff, beq_iff_eq, beq_iff_eq, Option.some_inj, Option.some_inj] <;> omega

end

/-! ## The roll -/

/-- A roll of a formula, and the roll that it is in the mirror. -/
structure Roll.Mirrors (f : Formula) (r r' : Roll) : Prop where
  /-- There are as many dice, the same of them are set aside, and each shows its face in the
  mirror. -/
  dice : r'.dice = r.dice.map Die.mirrored
  /-- They are divided among the groups in the same way. -/
  stretches : r'.stretches = r.stretches
  /-- Each die that counts shows with its image one more than it has sides. -/
  subtotal : r'.subtotal =
    (f.groups.map fun g => g.sign.apply (g.keptCount * (g.sides + 1) : Nat)).sum - r.subtotal
  /-- A critical is a fumble in the mirror. -/
  critical : r'.critical = r.fumble
  /-- A fumble is a critical in the mirror. -/
  fumble : r'.fumble = r.critical

theorem mirrors_outcome {f : Formula} (hf : f.Playable) {mode : Mode} {roller after : σ}
    {faces : List Nat} (h : Deals roller (f.sizes mode) faces after) (m m' : Int) :
    Roll.Mirrors f (f.outcome mode m faces)
      (f.mirrored.outcome mode.mirrored m' (mirroredFaces (f.sizes mode) faces)) := by
  have hpools := pools_mirrored h
  obtain ⟨hcritical, hfumble⟩ := flags_mirrored h m m'
  refine
    { dice := ?_
      stretches := ?_
      subtotal := ?_
      critical := hcritical
      fumble := hfumble }
  · show (f.mirrored.pools mode.mirrored _).flatten = (f.pools mode faces).flatten.map _
    rw [hpools, List.map_flatten]
  · show lay 0 (f.mirrored.pools mode.mirrored _) = lay 0 (f.pools mode faces)
    rw [hpools, lay_map_map]
  · rw [← Formula.flatMap_sizes_throws] at h
    show scoreSum (f.mirrored.throws mode.mirrored) (f.mirrored.pools mode.mirrored _) = _
    rw [hpools, throws_mirrored,
      ← sum_map_throws hf mode fun sign kept sides => sign.apply (kept * (sides + 1) : Nat)]
    exact scoreSum_mirrored (sound_throws f mode) h

/-- **Highest and lowest are mirror images.**  If one roller deals the dice of a roll and another
deals the same dice with the faces of the mirror, then the formula in the mirror, rolled in the mode
in the mirror, draws just these dice and comes to the image of the roll. -/
theorem roll_mirrored {f : Formula} (hf : f.Available) (hlength : f.groups.length ≤ 2 ^ 40)
    (mode : Mode) (m m' : Int) {roller after : σ} {roller' after' : τ} {faces : List Nat}
    (h : Deals roller (f.sizes mode) faces after)
    (h' : Deals roller' (f.sizes mode) (mirroredFaces (f.sizes mode) faces) after') :
    ∃ r r' log log', (f.roll mode m).run roller = ⟨.ok r, log, after⟩ ∧
      (f.mirrored.roll mode.mirrored m').run roller' = ⟨.ok r', log', after'⟩ ∧
      Roll.Mirrors f r r' := by
  have hlength' : f.mirrored.groups.length ≤ 2 ^ 40 := by rwa [Formula.mirrored, List.length_map]
  rw [← sizes_mirrored] at h'
  have hrun' := Formula.run_roll (playable_mirrored hf.playable) hlength' m' h'
  rw [sizes_mirrored] at hrun'
  exact ⟨_, _, _, _, Formula.run_roll hf.playable hlength m h, hrun',
    mirrors_outcome hf.playable h m m'⟩

/-- With ties in the pool and on the d20: `4d6kh3+1d20-2d4+5` with advantage, and in the mirror
`4d6kl3+1d20-2d4+5` with disadvantage. -/
theorem roll_mirrored_mixed :
    Deals (⟨[2, 5, 2, 2, 20, 20, 3, 4]⟩ : Script) (Formula.mixed.sizes .advantage)
        [2, 5, 2, 2, 20, 20, 3, 4] ⟨[]⟩ ∧
      Deals (⟨[5, 2, 5, 5, 1, 1, 2, 1, 9]⟩ : Script) (Formula.mixed.sizes .advantage)
        (mirroredFaces (Formula.mixed.sizes .advantage) [2, 5, 2, 2, 20, 20, 3, 4]) ⟨[9]⟩ ∧
      ∃ r r' log log', (Formula.mixed.roll .advantage 0).run
          (⟨[2, 5, 2, 2, 20, 20, 3, 4]⟩ : Script) = ⟨.ok r, log, ⟨[]⟩⟩ ∧
        (Formula.mixed.mirrored.roll .disadvantage 1).run (⟨[5, 2, 5, 5, 1, 1, 2, 1, 9]⟩ : Script) =
          ⟨.ok r', log', ⟨[9]⟩⟩ ∧
        Roll.Mirrors Formula.mixed r r' := by
  have hfaces : List.Forall₂ (fun sides value => 1 ≤ value ∧ value ≤ sides)
      (Formula.mixed.sizes .advantage) [2, 5, 2, 2, 20, 20, 3, 4] := by decide
  have hfaces' : List.Forall₂ (fun sides value => 1 ≤ value ∧ value ≤ sides)
      (Formula.mixed.sizes .advantage) [5, 2, 5, 5, 1, 1, 2, 1] := by decide
  have himage : mirroredFaces (Formula.mixed.sizes .advantage) [2, 5, 2, 2, 20, 20, 3, 4] =
      [5, 2, 5, 5, 1, 1, 2, 1] := by decide
  have hdeals := Deals.script hfaces []
  have hdeals' := Deals.script hfaces' [9]
  rw [← himage] at hdeals'
  exact ⟨hdeals, hdeals', roll_mirrored available_mixed (by decide) .advantage 0 1 hdeals hdeals'⟩

end Dicebag
