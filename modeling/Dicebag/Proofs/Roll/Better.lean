import Mathlib.Algebra.Order.Group.Nat
import Dicebag.Proofs.Roll.Tally
import Dicebag.Proofs.Rule.Best

/-!
# Better faces

Higher faces on dice that are added and lower faces on dice that are subtracted never make a roll
worse.  This is not quite plain, since other dice may be kept than before: it rests on keep suffixes
and modes choosing as well as can be chosen (`keptSum_keep_mono`).

* `NoWorse` compares the faces of two rolls die by die, each die by the sign of its group, and
  `Formula.signs` lists these signs in the order in which the dice are drawn.
* `keptSum_settle_mono` compares what counts of a throw, `Throw.score_mono` what it scores, and
  `scoreSum_mono` what all throws score; each throw takes its share of the comparison as it takes
  its share of the faces (`NoWorse.share`).
* `roll_mono` is the statement about rolls.  Constants and outside modifiers only move the totals,
  and stopping at the ends of the range keeps them in order (`Total.add_mono`).
-/

set_option autoImplicit false

namespace Dicebag

/-! ## Faces that are no worse -/

/-- The faces of the second list are no worse than those of the first, for dice that count with
these signs: none is lower on a die that is added, and none is higher on one that is subtracted. -/
inductive NoWorse : List Sign → List Nat → List Nat → Prop
  /-- There are no dice. -/
  | nil : NoWorse [] [] []
  /-- One die is no worse, and then the others. -/
  | cons {sign : Sign} {signs : List Sign} {value value' : Nat} {faces faces' : List Nat}
      (face : sign.apply value ≤ sign.apply value') (rest : NoWorse signs faces faces') :
      NoWorse (sign :: signs) (value :: faces) (value' :: faces')

instance decidableNoWorse : (signs : List Sign) → (faces faces' : List Nat) →
    Decidable (NoWorse signs faces faces')
  | [], [], [] => .isTrue .nil
  | sign :: signs, value :: faces, value' :: faces' =>
    match decidableNoWorse signs faces faces' with
    | .isTrue rest =>
      if face : sign.apply value ≤ sign.apply value' then .isTrue (.cons face rest)
      else .isFalse fun | .cons h _ => face h
    | .isFalse rest => .isFalse fun | .cons _ h => rest h
  | [], _ :: _, _ => .isFalse nofun
  | [], [], _ :: _ => .isFalse nofun
  | _ :: _, [], _ => .isFalse nofun
  | _ :: _, _ :: _, [] => .isFalse nofun

/-- Dice of one sign take their share of the comparison. -/
theorem NoWorse.share {n : Nat} {sign : Sign} {signs : List Sign} {faces faces' : List Nat}
    (h : NoWorse (List.replicate n sign ++ signs) faces faces') :
    List.Forall₂ (fun value value' : Nat => sign.apply value ≤ sign.apply value') (faces.take n)
        (faces'.take n) ∧
      NoWorse signs (faces.drop n) (faces'.drop n) := by
  induction n generalizing faces faces' with
  | zero => exact ⟨.nil, h⟩
  | succ n ih =>
    obtain _ | ⟨face, rest⟩ := h
    obtain ⟨hshare, hrest⟩ := ih rest
    exact ⟨.cons face hshare, hrest⟩

/-! ## Throw by throw -/

/-- **If no face is lower, the dice of a throw that count sum to no less**, whichever they are. -/
theorem keptSum_settle_mono {t : Throw} (ht : t.Sound) {share share' : List Nat}
    (hshare : share.length = t.count) (h : List.Forall₂ (· ≤ ·) share share') :
    keptSum (t.settle share) ≤ keptSum (t.settle share') := by
  have hfresh := kept_of_mem_fresh t.sides
  have hkeep := fun k : Keep => keptSum_keep_mono k (hfresh share) (hfresh share')
    (by rwa [map_value_fresh, map_value_fresh])
  rw [Throw.settle, Throw.settle]
  cases hrule : t.rule with
  | all =>
    show keptSum (share.map _) ≤ keptSum (share'.map _)
    rw [keptSum_eq, keptSum_eq, List.filter_eq_self.2 (hfresh share),
      List.filter_eq_self.2 (hfresh share'), map_value_fresh, map_value_fresh]
    exact h.sum_le_sum
  | keep k => exact hkeep k
  | pick mode =>
    -- two dice, of which the mode picks the one that a keep suffix would keep
    obtain ⟨hmode, hcount⟩ := ht mode hrule
    obtain ⟨keepMode, hkeepMode⟩ := exists_keepMode hmode
    obtain ⟨first, second, rfl⟩ := List.length_eq_two.1 (hshare.trans hcount)
    obtain ⟨first', second', rfl⟩ := List.length_eq_two.1
      (h.length_eq.symm.trans (hshare.trans hcount))
    have hpick := hkeep ⟨keepMode, 1⟩
    simp only [List.map_cons, List.map_nil] at hpick ⊢
    rwa [pick_eq_keep_one hkeepMode, pick_eq_keep_one hkeepMode]

/-- **If no face is worse, a throw scores no less.** -/
theorem Throw.score_mono {t : Throw} (ht : t.Sound) {share share' : List Nat}
    (hshare : share.length = t.count)
    (h : List.Forall₂ (fun value value' : Nat => t.sign.apply value ≤ t.sign.apply value') share
      share') :
    t.score (t.settle share) ≤ t.score (t.settle share') := by
  rw [Throw.score, Throw.score]
  cases hsign : t.sign with
  | plus =>
    rw [hsign] at h
    exact Int.ofNat_le.2 (keptSum_settle_mono ht hshare (h.imp fun _ _ hle => Int.ofNat_le.1 hle))
  | minus =>
    rw [hsign] at h
    have hle : List.Forall₂ (· ≤ ·) share' share :=
      .flip (h.imp fun _ _ hle => Int.ofNat_le.1 (Int.neg_le_neg_iff.1 hle))
    exact Int.neg_le_neg (Int.ofNat_le.2
      (keptSum_settle_mono ht (h.length_eq.symm.trans hshare) hle))

/-- The signs of the dice of a throw. -/
def Throw.signs (t : Throw) : List Sign := List.replicate t.count t.sign

/-- **If no face is worse, throws score no less together.** -/
theorem scoreSum_mono {ts : List Throw} (hts : ∀ t ∈ ts, t.Sound) {faces faces' : List Nat}
    (hfaces : faces.length = (ts.flatMap Throw.sizes).length)
    (h : NoWorse (ts.flatMap Throw.signs) faces faces') :
    scoreSum ts (deal ts faces) ≤ scoreSum ts (deal ts faces') := by
  induction ts generalizing faces faces' with
  | nil => exact Int.le_refl _
  | cons t ts ih =>
    obtain ⟨ht, hts⟩ := List.forall_mem_cons.1 hts
    obtain ⟨hcount, hlength⟩ := length_share hfaces
    obtain ⟨hshare, hrest⟩ := h.share
    rw [deal, deal, scoreSum_cons, scoreSum_cons]
    exact Int.add_le_add (t.score_mono ht hcount hshare) (ih hts hlength hrest)

/-! ## The roll -/

theorem Total.add_mono {x x' y y' : Int} (hx : x ≤ x') (hy : y ≤ y') :
    Total.add x y ≤ Total.add x' y' := by
  unfold Total.add Total.clamp Total.least Total.greatest
  omega

/-- The signs of the dice that a roll asks for, in order. -/
def Formula.signs (f : Formula) (mode : Mode) : List Sign :=
  f.groups.zipIdx.flatMap fun (g, i) => List.replicate (f.diceThrown mode i g) g.sign

theorem Formula.flatMap_signs_throws (f : Formula) (mode : Mode) :
    (f.throws mode).flatMap Throw.signs = f.signs mode := by
  rw [throws_eq, List.flatMap_map, signs]
  refine List.flatMap_congr fun p _ => ?_
  rw [Throw.signs, count_throwAt, sign_throwAt]

theorem subtotal_mono {f : Formula} {mode : Mode} {faces faces' : List Nat}
    (hfaces : faces.length = (f.sizes mode).length) (h : NoWorse (f.signs mode) faces faces')
    (m m' : Int) :
    (f.outcome mode m faces).subtotal ≤ (f.outcome mode m' faces').subtotal := by
  rw [← Formula.flatMap_sizes_throws] at hfaces
  rw [← Formula.flatMap_signs_throws] at h
  exact scoreSum_mono (sound_throws f mode) hfaces h

/-- **Better faces never hurt.**  Of two rolls of a formula in one mode, of which the second shows
on every die that is added no lower and on every die that is subtracted no higher a face than the
first, the second has no lower a subtotal; and if its outside modifier is no lower either, then
neither are the modifier that it applies and its total.  The rolls may come from different
rollers. -/
theorem roll_mono {σ τ : Type} [Roller σ] [Roller τ] {f : Formula} (hf : f.Available)
    (hlength : f.groups.length ≤ 2 ^ 40) (mode : Mode) (m m' : Int) {roller after : σ}
    {roller' after' : τ} {faces faces' : List Nat} (h : Deals roller (f.sizes mode) faces after)
    (h' : Deals roller' (f.sizes mode) faces' after')
    (hbetter : NoWorse (f.signs mode) faces faces') :
    ∃ r r' log log', (f.roll mode m).run roller = ⟨.ok r, log, after⟩ ∧
      (f.roll mode m').run roller' = ⟨.ok r', log', after'⟩ ∧ r.subtotal ≤ r'.subtotal ∧
      (m ≤ m' → r.modifier ≤ r'.modifier ∧ r.total ≤ r'.total) := by
  have hsubtotal := subtotal_mono h.length_eq hbetter m m'
  refine ⟨_, _, _, _, Formula.run_roll hf.playable hlength m h,
    Formula.run_roll hf.playable hlength m' h', hsubtotal, fun hm => ?_⟩
  have hmodifier := Total.add_mono (Int.le_refl f.constant) hm
  exact ⟨hmodifier, Total.add_mono hsubtotal hmodifier⟩

/-- With advantage, and other dice kept: the second roll keeps the first die of the pool, which the
first roll set aside, and the second draw of the d20 in the place of the first. -/
theorem roll_mono_mixed :
    Deals (⟨[1, 2, 3, 4, 15, 5, 3, 4]⟩ : Script) (Formula.mixed.sizes .advantage)
        [1, 2, 3, 4, 15, 5, 3, 4] ⟨[]⟩ ∧
      Deals (⟨[6, 2, 3, 4, 15, 16, 3, 1, 9]⟩ : Script) (Formula.mixed.sizes .advantage)
        [6, 2, 3, 4, 15, 16, 3, 1] ⟨[9]⟩ ∧
      NoWorse (Formula.mixed.signs .advantage) [1, 2, 3, 4, 15, 5, 3, 4]
        [6, 2, 3, 4, 15, 16, 3, 1] ∧
      ∃ r r' log log', (Formula.mixed.roll .advantage (-1)).run
          (⟨[1, 2, 3, 4, 15, 5, 3, 4]⟩ : Script) = ⟨.ok r, log, ⟨[]⟩⟩ ∧
        (Formula.mixed.roll .advantage 2).run (⟨[6, 2, 3, 4, 15, 16, 3, 1, 9]⟩ : Script) =
          ⟨.ok r', log', ⟨[9]⟩⟩ ∧
        r.subtotal ≤ r'.subtotal ∧ r.modifier ≤ r'.modifier ∧ r.total ≤ r'.total := by
  have hfaces : List.Forall₂ (fun sides value => 1 ≤ value ∧ value ≤ sides)
      (Formula.mixed.sizes .advantage) [1, 2, 3, 4, 15, 5, 3, 4] := by decide
  have hfaces' : List.Forall₂ (fun sides value => 1 ≤ value ∧ value ≤ sides)
      (Formula.mixed.sizes .advantage) [6, 2, 3, 4, 15, 16, 3, 1] := by decide
  have hbetter : NoWorse (Formula.mixed.signs .advantage) [1, 2, 3, 4, 15, 5, 3, 4]
      [6, 2, 3, 4, 15, 16, 3, 1] := by decide
  have hdeals := Deals.script hfaces []
  have hdeals' := Deals.script hfaces' [9]
  obtain ⟨r, r', log, log', hrun, hrun', hsubtotal, hrest⟩ :=
    roll_mono available_mixed (by decide) .advantage (-1) 2 hdeals hdeals' hbetter
  exact ⟨hdeals, hdeals', hbetter, r, r', log, log', hrun, hrun', hsubtotal, hrest (by decide)⟩

end Dicebag
