import Dicebag.Play
import Dicebag.Proofs.Roll.Natural

/-!
# Attacks

An attack rolls a d20 and then its damage, from the same roller.  What is rolled for damage depends
on the d20: on a critical hit it is the damage formula with twice its dice, and else the formula as
it is.  Either way the mode of the attack has no part in it, even if the damage has a lone d20 of
its own.

* A doubled formula is beyond what a text can ask for, so all that is known of formulas that were
  read has to be found again for it: its numbers stop at no cap (`doubled_eq`), its keep suffixes
  keep some of the dice, and it has no lone d20 (`not_isLoneD20_doubled`), so that its roll is never
  a critical itself.  `DoubledDamage` is what comes of it, in terms of the formula that was doubled.
* `ToHit` is what is true of the d20, of which one die counts in every mode (`exists_kept_d20`).
* `attack_doubles_damage` is the whole attack.
-/

set_option autoImplicit false

namespace Dicebag

variable {σ : Type} [Roller σ]

/-! ## Rolls in the normal mode -/

namespace Formula

theorem diceThrown_normal (f : Formula) (place : Nat) (g : Group) :
    f.diceThrown .normal place g = g.count := by
  rw [diceThrown, if_neg fun h => h.1 rfl, Nat.add_zero]

/-- In the normal mode the groups throw their own dice, lone d20 or not. -/
theorem sizes_normal (f : Formula) :
    f.sizes .normal = f.groups.flatMap fun g => List.replicate g.count g.sides := by
  have hgroups : f.groups = f.groups.zipIdx.map Prod.fst := (List.zipIdx_map_fst 0 _).symm
  rw [hgroups, List.flatMap_map, sizes]
  simp only [diceThrown_normal]

theorem map_length_pools_normal {f : Formula} {faces : List Nat}
    (hfaces : faces.length = (f.sizes .normal).length) :
    (f.pools .normal faces).map List.length = f.groups.map Group.count := by
  rw [map_length_pools hfaces, ← map_fst_zipIdx Group.count]
  simp only [diceThrown_normal]

end Formula

/-! ## Doubled formulas -/

/-- Within the limits of the notation a group is doubled without stopping at a cap. -/
theorem Group.WellFormed.doubled_eq {g : Group} (h : g.WellFormed) :
    g.doubled = ⟨g.sign, 2 * g.count, g.sides, g.keep.map fun k => ⟨k.mode, 2 * k.amount⟩⟩ := by
  rw [Group.doubled, double_eq h.count.2]
  congr 1
  refine Option.map_congr fun k hk => ?_
  rw [double_eq ((h.keep k hk).2.trans h.count.2)]

/-- Two dice are no lone die. -/
theorem Group.WellFormed.not_isLoneD20_doubled {g : Group} (h : g.WellFormed) :
    g.doubled.isLoneD20 = false := by
  have hcount : g.doubled.count = 2 * g.count := congrArg Group.count h.doubled_eq
  refine Bool.eq_false_iff.2 fun hlone => ?_
  have hone := (isLoneD20_iff.1 hlone).2.1
  omega

namespace Formula.WellFormed

variable {f : Formula} (h : f.WellFormed)

include h

theorem groups_doubled :
    f.doubled.groups = f.groups.map fun g =>
      ⟨g.sign, 2 * g.count, g.sides, g.keep.map fun k => ⟨k.mode, 2 * k.amount⟩⟩ :=
  List.map_congr_left fun g hg => (h.groups g hg).doubled_eq

theorem not_isLoneD20_doubled : ∀ g ∈ f.doubled.groups, g.isLoneD20 = false :=
  List.forall_mem_map.2 fun g hg => (h.groups g hg).not_isLoneD20_doubled

end Formula.WellFormed

/-- What is true of a roll for the damage of a critical hit, where the formula asks for the damage
of any hit and the dice show these faces. -/
structure DoubledDamage (f : Formula) (modifier : Int) (faces : List Nat) (r : Roll) : Prop where
  /-- The groups that are rolled are those of the formula with their signs and sides, and no number
  of theirs has stopped at a cap. -/
  groups : f.doubled.groups = f.groups.map fun g =>
    ⟨g.sign, 2 * g.count, g.sides, g.keep.map fun k => ⟨k.mode, 2 * k.amount⟩⟩
  /-- The dice show the faces in order: twice as many of each group, with the sides that it has. -/
  showing : r.dice.map Die.face =
    (f.groups.flatMap fun g => List.replicate (2 * g.count) g.sides).zip faces
  /-- Every group has twice its dice. -/
  lengths : r.pools.map List.length = f.groups.map fun g => 2 * g.count
  /-- Of every group twice as many dice count. -/
  kept : r.pools.map (fun pool => (pool.filter Die.kept).length) =
    f.groups.map fun g => 2 * g.keptCount
  /-- That is one at least, and no more than there are. -/
  amounts : ∀ g ∈ f.groups, 1 ≤ 2 * g.keptCount ∧ 2 * g.keptCount ≤ 2 * g.count
  /-- The subtotal is the sum of the dice that count, with the signs of the groups. -/
  subtotal : r.subtotal = (List.zipWith (fun (g : Group) (pool : List Die) =>
    g.sign.apply (((pool.filter Die.kept).map Die.value).sum : Nat)) f.groups r.pools).sum
  /-- The constant and the modifier are added once. -/
  modifier : r.modifier = Total.clamp (f.constant + modifier)
  /-- The total is the subtotal and the modifier, as far as totals go. -/
  total : r.total = Total.clamp (r.subtotal + r.modifier)
  /-- No group is rolled with advantage or disadvantage. -/
  groupMode : ∀ place, r.groupMode place = .normal
  /-- The roll is no critical of its own. -/
  critical : r.critical = false
  /-- Nor is it a fumble. -/
  fumble : r.fumble = false

theorem keptCount_doubled {g : Group} (h : g.WellFormed) :
    g.doubled.keptCount = 2 * g.keptCount := by
  rw [h.doubled_eq, Group.keptCount, Group.keptCount]
  cases g.keep <;> rfl

theorem keptCount_mem {g : Group} (h : g.WellFormed) : 1 ≤ g.keptCount ∧ g.keptCount ≤ g.count := by
  rw [Group.keptCount]
  cases hkeep : g.keep with
  | none => exact ⟨h.count.1, Nat.le_refl _⟩
  | some k => exact h.keep k hkeep

/-- **A doubled formula is rolled for twice the dice and once the constant.** -/
theorem doubledDamage_outcome {f : Formula} (hf : f.WellFormed) (modifier : Int) {faces : List Nat}
    (hfaces : faces.length = (f.doubled.sizes .normal).length) :
    DoubledDamage f modifier faces (f.doubled.outcome .normal modifier faces) := by
  have hflags := flags_eq_false hf.not_isLoneD20_doubled .normal modifier faces
  refine
    { groups := hf.groups_doubled
      showing := ?_
      lengths := ?_
      kept := ?_
      amounts := fun g hg => ?_
      subtotal := ?_
      modifier := rfl
      total := rfl
      groupMode := fun place => ?_
      critical := hflags.1
      fumble := hflags.2 }
  · have hshowing := map_face_pools hfaces
    rw [Formula.sizes_normal, hf.groups_doubled, List.flatMap_map] at hshowing
    exact hshowing
  · rw [Formula.pools_outcome, Formula.map_length_pools_normal hfaces, hf.groups_doubled,
      List.map_map]
    rfl
  · rw [Formula.pools_outcome, map_kept_pools hf.playable_doubled hfaces, Formula.doubled,
      List.map_map]
    exact List.map_congr_left fun g hg => keptCount_doubled (hf.groups g hg)
  · obtain ⟨hleast, hmost⟩ := keptCount_mem (hf.groups g hg)
    omega
  · have hsum := scoreSum_throws f.doubled .normal (f.doubled.pools .normal faces)
    rw [Formula.doubled, List.zipWith_map_left] at hsum
    rw [Formula.pools_outcome]
    exact hsum
  · exact ite_self _

/-! ## The d20 -/

/-- The sizes of the dice that are rolled to hit: one d20, and two in any mode but normal. -/
def Mode.toHitSizes (mode : Mode) : List Nat := List.replicate (if mode = .normal then 1 else 2) 20

theorem sizes_d20Formula (mode : Mode) : d20Formula.sizes mode = mode.toHitSizes := by
  cases mode <;> rfl

theorem playable_d20Formula : d20Formula.Playable := (wellFormed_tray .d20 1).playable

theorem naturalAt_d20Formula : d20Formula.NaturalAt 0 :=
  ⟨[], ⟨.plus, 1, 20, none⟩, [], rfl, List.forall_mem_nil _, rfl, rfl⟩

/-- **In every mode one die counts of those rolled to hit**, and criticals are read from it. -/
theorem exists_kept_d20 {mode : Mode} {faces : List Nat}
    (hfaces : faces.length = (d20Formula.sizes mode).length) (modifier : Int) :
    ∃ d, (d20Formula.outcome mode modifier faces).kept = [d] ∧
      (d20Formula.outcome mode modifier faces).critical = (d.value == 20) := by
  have hkept :
      (d20Formula.pools mode faces).map (fun pool => (pool.filter Die.kept).length) = [1] :=
    map_kept_pools playable_d20Formula hfaces
  obtain ⟨pool, hpools, hone⟩ := List.map_eq_singleton_iff.1 hkept
  obtain ⟨d, hd⟩ := List.length_eq_one_iff.1 hone
  refine ⟨d, ?_, ?_⟩
  · show (d20Formula.pools mode faces).flatten.filter Die.kept = [d]
    rw [hpools, List.flatten_singleton, hd]
  · have hplace : d20Formula.advantageGroup = some 0 := rfl
    have hfind : pool.find? Die.kept = some d := by
      rw [← List.head?_filter, hd]
      rfl
    rw [critical_outcome, natural?_table hplace, hpools]
    show ((pool.find? Die.kept).map Die.value == some 20) = _
    rw [hfind]
    rfl

/-- What is true of an attack whose dice to hit showed these faces, where `critical` says whether it
is a critical hit. -/
structure ToHit (mode : Mode) (hit : List Nat) (critical : Bool) (a : Attack) : Prop where
  /-- The dice are d20 and show these faces. -/
  showing : a.toHit.dice.map Die.face = hit.map fun value => (20, value)
  /-- One of them counts, and the hit is critical just when it shows a 20. -/
  natural : ∃ d, a.toHit.kept = [d] ∧ (critical = true ↔ d.value = 20)
  /-- The attack says whether it is a critical hit. -/
  critical : a.critical = critical
  /-- It says whether it is a fumble, and takes that from the same faces. -/
  fumble : a.fumble = true ↔ mode.Fumble hit[0]? hit[1]?

theorem toHit_outcome {mode : Mode} {roller mid : σ} {hit : List Nat} {critical : Bool}
    (hhit : Deals roller mode.toHitSizes hit mid)
    (hcritical : critical = true ↔ mode.Critical hit[0]? hit[1]?) (modifier : Int)
    (dealt : Option Roll) :
    ToHit mode hit critical ⟨d20Formula.outcome mode modifier hit, dealt⟩ := by
  rw [← sizes_d20Formula] at hhit
  obtain ⟨hflag, hfumble⟩ := flags_iff hhit naturalAt_d20Formula modifier
  have hflag : (d20Formula.outcome mode modifier hit).critical = critical :=
    Bool.eq_iff_iff.2 (hflag.trans hcritical.symm)
  obtain ⟨d, hd, hvalue⟩ := exists_kept_d20 hhit.length_eq modifier
  refine
    { showing := ?_
      natural := ⟨d, hd, ?_⟩
      critical := hflag
      fumble := hfumble }
  · have hshowing := map_face_pools hhit.length_eq
    have hlength := hhit.length_eq
    rw [sizes_d20Formula, Mode.toHitSizes] at hshowing hlength
    rw [List.length_replicate] at hlength
    rw [← hlength, ← List.map_const', ← List.map_prod_right_eq_zip] at hshowing
    exact hshowing
  · rw [← hflag, hvalue, beq_iff_eq]

/-! ## The attack -/

/-- The sizes of the dice that are rolled for damage, if any: those of the formula, and twice as
many on a critical hit. -/
def damageSizes (damage : Option Formula) (critical : Bool) : List Nat :=
  match damage with
  | none => []
  | some f =>
    f.groups.flatMap fun g => List.replicate (if critical then 2 * g.count else g.count) g.sides

theorem sizes_rollDamage {f : Formula} (hf : f.WellFormed) (critical : Bool) :
    damageSizes (some f) critical =
      (if critical then f.doubled else f).sizes .normal := by
  cases critical with
  | false => exact f.sizes_normal.symm
  | true =>
    show (f.groups.flatMap fun g => List.replicate (2 * g.count) g.sides) = f.doubled.sizes .normal
    rw [Formula.sizes_normal, hf.groups_doubled, List.flatMap_map]

/-- **The dice for damage are rolled in the normal mode, and twice over on a critical hit only.** -/
theorem run_rollDamage {f : Formula} (hf : f.WellFormed) (hlength : f.groups.length ≤ 2 ^ 40)
    (modifier : Int) {critical : Bool} {roller after : σ} {faces : List Nat}
    (h : Deals roller (damageSizes (some f) critical) faces after) :
    ∃ r log, (rollDamage f modifier critical).run roller = ⟨.ok r, log, after⟩ ∧
      (critical = false → ∃ log, (f.roll .normal modifier).run roller = ⟨.ok r, log, after⟩) ∧
      (critical = true →
        (∃ log, (f.doubled.roll .normal modifier).run roller = ⟨.ok r, log, after⟩) ∧
          DoubledDamage f modifier faces r) := by
  rw [sizes_rollDamage hf] at h
  cases critical with
  | false =>
    have hrun := Formula.run_roll hf.playable hlength modifier h
    exact ⟨_, _, hrun, fun _ => ⟨_, hrun⟩, fun h => by cases h⟩
  | true =>
    have hlength : f.doubled.groups.length ≤ 2 ^ 40 := by rwa [Formula.doubled, List.length_map]
    have hrun := Formula.run_roll hf.playable_doubled hlength modifier h
    have hdouble : (rollDamage f modifier true).run roller =
        ⟨.ok (f.doubled.outcome .normal modifier faces),
          [.doubledDamage f.doubled f] ++ f.doubled.rollEvents .normal modifier faces, after⟩ := by
      show (Rolling.record [.doubledDamage f.doubled f] >>= fun _ =>
        f.doubled.roll .normal modifier).run roller = _
      rw [Rolling.run_bind_of_run (Rolling.run_record _ roller), hrun]
    exact ⟨_, _, hdouble, fun h => (by cases h),
      fun _ => ⟨⟨_, hrun⟩, doubledDamage_outcome hf modifier h.length_eq⟩⟩

/-- **An attack doubles the dice for damage on a critical hit, and only then.**  It draws a d20
first, and a second in any mode but normal, and then the dice for damage, if any was asked for, from
what is left.  Where the d20 that counts shows no 20 the damage is the roll of the formula as it is
given, and where it does, of the formula with twice its dice, in the normal mode both times.
Whether the attack is a critical or a fumble depends on the d20 alone, and the damage that is dealt
is never less than nothing. -/
theorem attack_doubles_damage {damage : Option Formula}
    (hdamage : ∀ f, damage = some f → f.Given ∧ f.groups.length ≤ 2 ^ 40)
    (modifier damageModifier : Int) {mode : Mode} {roller mid after : σ} {hit dealt : List Nat}
    {critical : Bool} (hhit : Deals roller mode.toHitSizes hit mid)
    (hcritical : critical = true ↔ mode.Critical hit[0]? hit[1]?)
    (hdealt : Deals mid (damageSizes damage critical) dealt after) :
    ∃ a log, (attack modifier damage damageModifier mode).run roller = ⟨.ok a, log, after⟩ ∧
      ToHit mode hit critical a ∧
      (damage = none → a.damage = none ∧ a.damageTotal = none) ∧
      ∀ f, damage = some f → ∃ r, a.damage = some r ∧ a.damageTotal = some (max 0 r.total) ∧
        (critical = false →
          ∃ log, (f.roll .normal damageModifier).run mid = ⟨.ok r, log, after⟩) ∧
        (critical = true →
          (∃ log, (f.doubled.roll .normal damageModifier).run mid = ⟨.ok r, log, after⟩) ∧
            DoubledDamage f damageModifier dealt r) := by
  have hsizes : Deals roller (d20Formula.sizes mode) hit mid := by rwa [sizes_d20Formula]
  have hrun := Formula.run_roll playable_d20Formula Nat.one_le_two_pow modifier hsizes
  have htoHit := toHit_outcome hhit hcritical modifier
  rw [attack, Rolling.run_bind_of_run hrun]
  cases damage with
  | none =>
    cases hdealt
    exact ⟨_, _, rfl, htoHit none, fun _ => ⟨rfl, rfl⟩, fun f hf => by cases hf⟩
  | some f =>
    obtain ⟨hgiven, hlength⟩ := hdamage f rfl
    obtain ⟨r, log, hdamageRun, hplain, hdoubled⟩ :=
      run_rollDamage hgiven.wellFormed hlength damageModifier hdealt
    have hflag : (d20Formula.outcome mode modifier hit).critical = critical :=
      (htoHit none).critical
    simp only [hflag, Rolling.run_map, hdamageRun]
    refine ⟨_, _, rfl, htoHit (some r), fun h => (by cases h), fun f' hf' => ?_⟩
    cases hf'
    refine ⟨r, rfl, ?_, hplain, hdoubled⟩
    rw [Attack.damageTotal, Option.map_some, Int.max_comm]

/-- With advantage, a 20 on the second d20 doubles the fourteen dice of a formula that has a d20 of
its own, which comes up 20 as well. -/
theorem attack_doubles_damage_mixed :
    (Formula.mixed.Given ∧ Formula.mixed.groups.length ≤ 2 ^ 40) ∧
      Mode.advantage.Critical (some 3) (some 20) ∧
      ∃ a r log, (attack 5 (some Formula.mixed) 2 .advantage).run
          (⟨[3, 20, 1, 2, 3, 4, 5, 6, 1, 2, 20, 20, 1, 2, 3, 4, 9]⟩ : Script) =
            ⟨.ok a, log, ⟨[9]⟩⟩ ∧
        a.critical = true ∧ a.damage = some r ∧
        DoubledDamage Formula.mixed 2 [1, 2, 3, 4, 5, 6, 1, 2, 20, 20, 1, 2, 3, 4] r := by
  have hgiven : Formula.mixed.Given := .read (parse_text wellFormed_mixed)
  have hlength : Formula.mixed.groups.length ≤ 2 ^ 40 := by decide
  have hcritical : Mode.advantage.Critical (some 3) (some 20) := .inr rfl
  have hhit : List.Forall₂ (fun sides value => 1 ≤ value ∧ value ≤ sides)
      Mode.advantage.toHitSizes [3, 20] := by decide
  have hfaces : List.Forall₂ (fun sides value => 1 ≤ value ∧ value ≤ sides)
      (damageSizes (some Formula.mixed) true) [1, 2, 3, 4, 5, 6, 1, 2, 20, 20, 1, 2, 3, 4] := by
    decide
  obtain ⟨a, log, hrun, hattack, -, hdamage⟩ := attack_doubles_damage
    (fun f hf => Option.some.inj hf ▸ ⟨hgiven, hlength⟩) 5 2 (Deals.script hhit _)
    (iff_of_true rfl hcritical) (Deals.script hfaces [9])
  obtain ⟨r, hr, -, -, hdoubled⟩ := hdamage Formula.mixed rfl
  exact ⟨⟨hgiven, hlength⟩, hcritical, a, r, log, hrun, hattack.critical, hr, (hdoubled rfl).2⟩

end Dicebag
