import Dicebag.Proofs.Rule.Kept

/-!
# The mirror image of a rule

Seen in a mirror, the highest face of a die is its lowest: a die that shows `v` of `s` sides shows
`s + 1 - v`.  The rules have mirror images too, in which highest and lowest change places, and
advantage and disadvantage.

`Rule.apply_mirrored` says that the image of a rule sets aside the images of the dice that the rule
sets aside.  The order of the dice is not mirrored, and need not be: dice that show the same face do
so in the mirror as well, and the earlier of them comes first in both rankings.
-/

set_option autoImplicit false

namespace Dicebag

/-! ## Images -/

/-- The face that a die shows in the mirror. -/
def mirroredFace (sides value : Nat) : Nat := sides + 1 - value

/-- The die with the face that it shows in the mirror, set aside if it was. -/
def Die.mirrored (d : Die) : Die := { d with value := mirroredFace d.sides d.value }

/-- The other end of the ranking. -/
def KeepMode.mirrored : KeepMode → KeepMode
  | highest => lowest
  | lowest => highest

/-- As many dice from the other end of the ranking. -/
def Keep.mirrored (k : Keep) : Keep := { k with mode := k.mode.mirrored }

/-- Disadvantage for advantage, and the other way round. -/
def Mode.mirrored : Mode → Mode
  | normal => normal
  | advantage => disadvantage
  | disadvantage => advantage

theorem mirrored_eq_normal_iff {mode : Mode} : mode.mirrored = .normal ↔ mode = .normal := by
  cases mode <;> simp [Mode.mirrored]

/-- The rule with highest and lowest exchanged, and advantage and disadvantage. -/
def Rule.mirrored : Rule → Rule
  | all => all
  | keep k => keep k.mirrored
  | pick mode => pick mode.mirrored

/-- The die has so many sides and shows no more than they allow. -/
def Die.Within (sides : Nat) (d : Die) : Prop := d.sides = sides ∧ d.value ≤ sides

/-! ## Comparing faces -/

theorem mirroredFace_lt {sides a b : Nat} (ha : a ≤ sides) (hb : b ≤ sides) :
    mirroredFace sides a < mirroredFace sides b ↔ b < a := by
  rw [mirroredFace, mirroredFace]
  omega

theorem mirroredFace_inj {sides a b : Nat} (ha : a ≤ sides) (hb : b ≤ sides) :
    mirroredFace sides a = mirroredFace sides b ↔ a = b := by
  rw [mirroredFace, mirroredFace]
  omega

theorem prefers_mirrored (mode : KeepMode) {sides a b : Nat} (ha : a ≤ sides) (hb : b ≤ sides) :
    mode.mirrored.prefers (mirroredFace sides a) (mirroredFace sides b) = mode.prefers a b := by
  cases mode with
  | highest => exact decide_eq_decide.2 (mirroredFace_lt ha hb)
  | lowest => exact decide_eq_decide.2 (mirroredFace_lt hb ha)

theorem secondWins_mirrored (mode : Mode) {sides first second : Nat} (hfirst : first ≤ sides)
    (hsecond : second ≤ sides) :
    mode.mirrored.secondWins (mirroredFace sides first) (mirroredFace sides second) =
      mode.secondWins first second := by
  cases mode with
  | normal => rfl
  | advantage => exact decide_eq_decide.2 (mirroredFace_lt hsecond hfirst)
  | disadvantage => exact decide_eq_decide.2 (mirroredFace_lt hfirst hsecond)

/-- **Of dice of one size, one ranks before another if its image does.** -/
theorem ranksBefore_mirrored (mode : KeepMode) {sides : Nat} {a b : Die × Nat}
    (ha : a.1.Within sides) (hb : b.1.Within sides) :
    mode.mirrored.ranksBefore (Prod.map Die.mirrored id a) (Prod.map Die.mirrored id b) =
      mode.ranksBefore a b := by
  obtain ⟨hsides, ha⟩ := ha
  obtain ⟨hsides', hb⟩ := hb
  have heq : (mirroredFace sides a.1.value == mirroredFace sides b.1.value) =
      (a.1.value == b.1.value) := by
    rw [Bool.eq_iff_iff, beq_iff_eq, beq_iff_eq]
    exact mirroredFace_inj ha hb
  simp only [KeepMode.ranksBefore, Prod.map_fst, Prod.map_snd, Die.mirrored, hsides, hsides',
    prefers_mirrored mode ha hb, heq, id]

/-! ## Setting dice aside -/

theorem setAside_map_mirrored (places : List Nat) (dice : List Die) :
    setAside places (dice.map Die.mirrored) = (setAside places dice).map Die.mirrored := by
  rw [setAside, setAside, List.zipIdx_map, List.map_map, List.map_map]
  refine List.map_congr_left fun p _ => ?_
  simp only [Function.comp, Prod.map_fst, Prod.map_snd, id]
  split <;> rfl

theorem ranking_mirrored (k : Keep) {sides : Nat} {dice : List Die}
    (h : ∀ d ∈ dice, d.Within sides) :
    k.mirrored.ranking (dice.map Die.mirrored) =
      (k.ranking dice).map (Prod.map Die.mirrored id) := by
  rw [Keep.ranking, Keep.ranking, List.zipIdx_map]
  refine (List.map_mergeSort fun a ha b hb => ?_).symm
  exact (ranksBefore_mirrored k.mode (h a.1 (List.fst_mem_of_mem_zipIdx ha))
    (h b.1 (List.fst_mem_of_mem_zipIdx hb))).symm

theorem map_snd_dropped_mirrored (k : Keep) {sides : Nat} {dice : List Die}
    (h : ∀ d ∈ dice, d.Within sides) :
    (k.mirrored.dropped (dice.map Die.mirrored)).map Prod.snd =
      (k.dropped dice).map Prod.snd := by
  rw [Keep.dropped, Keep.dropped, ranking_mirrored k h, ← List.map_drop, List.map_map]
  rfl

/-- **The image of a rule sets aside the images of the dice that the rule sets aside.** -/
theorem Rule.apply_mirrored (rule : Rule) {sides : Nat} {dice : List Die}
    (h : ∀ d ∈ dice, d.Within sides) :
    (rule.mirrored.apply (dice.map Die.mirrored)).1 = (rule.apply dice).1.map Die.mirrored := by
  cases rule with
  | all => rfl
  | keep k =>
    show setAside ((k.mirrored.dropped (dice.map Die.mirrored)).map Prod.snd) _ =
      (setAside ((k.dropped dice).map Prod.snd) dice).map _
    rw [map_snd_dropped_mirrored k h, setAside_map_mirrored]
  | pick mode =>
    match dice with
    | [] => rfl
    | [_] => rfl
    | _ :: _ :: _ :: _ => rfl
    | [first, second] =>
      obtain ⟨⟨hsides, hfirst⟩, ⟨hsides', hsecond⟩, -⟩ := by
        simpa only [List.forall_mem_cons] using h
      have hwins : mode.mirrored.secondWins first.mirrored.value second.mirrored.value =
          mode.secondWins first.value second.value := by
        rw [Die.mirrored, Die.mirrored, hsides, hsides']
        exact secondWins_mirrored mode hfirst hsecond
      by_cases hmode : mode = .normal
      · rw [hmode]
        rfl
      · have hmirrored : mode.mirrored ≠ .normal := mt mirrored_eq_normal_iff.1 hmode
        show ((Rule.pick mode.mirrored).apply [first.mirrored, second.mirrored]).1 = _
        rw [apply_pick_pair hmirrored, apply_pick_pair hmode, hwins]
        split <;> rfl

/-! ## What counts -/

/-- A die and its image show `sides + 1` together. -/
theorem keptSum_mirrored {sides : Nat} {dice : List Die} (h : ∀ d ∈ dice, d.Within sides) :
    keptSum (dice.map Die.mirrored) + keptSum dice =
      (dice.filter Die.kept).length * (sides + 1) := by
  induction dice with
  | nil => simp [keptSum]
  | cons d dice ih =>
    obtain ⟨⟨hsides, hvalue⟩, hrest⟩ := List.forall_mem_cons.1 h
    have hsum := ih hrest
    have hkept : d.mirrored.kept = d.kept := rfl
    have hshown : d.mirrored.value = sides + 1 - d.value := by
      rw [Die.mirrored, hsides, mirroredFace]
    rw [List.map_cons, keptSum, keptSum, hkept, hshown]
    by_cases hd : d.kept = true
    · rw [if_pos hd, if_pos hd, List.filter_cons_of_pos hd, List.length_cons, Nat.add_mul,
        Nat.one_mul]
      omega
    · rw [if_neg hd, if_neg hd, List.filter_cons_of_neg hd]
      omega

end Dicebag
