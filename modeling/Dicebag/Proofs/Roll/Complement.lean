import Dicebag.Proofs.Roll.Tally
import Dicebag.Proofs.Rule.Best
import Dicebag.Proofs.Rule.Mirror

/-!
# The two halves of a pool

The highest few of a pool and the lowest of the others make up the whole pool, or so it seems.  Die
by die this fails: of dice that show the same face both suffixes keep the earlier, so that `kh1` and
`kl1` keep the same one of two equal dice.  It holds of the sums, because a sum can be told from the
faces alone, and the faces ranked from the one end are those ranked from the other end, read
backwards.

* `keptSum_keep_add_rest` says this of a pool on the table and `keptSum_settle_perm` that the order
  of the faces does not matter, both from `keptSum_keep_of_ranked`.
* `Group.ComesTo` is about a group that is rolled alone.  `keep_splits_pool` is stated with it, for
  every number of dice and of sides that can be written and all faces that they can show.
-/

set_option autoImplicit false

namespace Dicebag

/-! ## Sums of faces -/

theorem weigh_mirrored (mode : KeepMode) (x : Int) : mode.mirrored.weigh x = -mode.weigh x := by
  cases mode with
  | highest => rfl
  | lowest => exact (Int.neg_neg x).symm

/-- Faces that are ranked from one end are ranked from the other when they are read backwards. -/
theorem KeepMode.Ranked.reverse {mode : KeepMode} {faces : List Nat} (h : mode.Ranked faces) :
    mode.mirrored.Ranked faces.reverse := by
  refine List.pairwise_reverse.2 (h.imp fun {v w} hle => ?_)
  rw [weigh_mirrored, weigh_mirrored]
  omega

/-- **What a keep suffix keeps of a pool and what the opposite suffix keeps for the rest of it sum
to the whole pool**, whichever dice that are. -/
theorem keptSum_keep_add_rest (k : Keep) {dice : List Die} (hdice : ∀ d ∈ dice, d.kept = true)
    (hle : k.amount ≤ dice.length) :
    keptSum ((Rule.keep k).apply dice).1 +
        keptSum ((Rule.keep ⟨k.mode.mirrored, dice.length - k.amount⟩).apply dice).1 =
      (dice.map Die.value).sum := by
  have hranked := ranked_map_ranking k dice
  have hperm := map_ranking_perm k dice Die.value
  generalize ((k.ranking dice).map fun p => p.1.value) = faces at hranked hperm
  have hlength : faces.length = dice.length := by rw [hperm.length_eq, List.length_map]
  have hkept := keptSum_keep_of_ranked k hdice hranked hperm
  have hrest := keptSum_keep_of_ranked ⟨k.mode.mirrored, dice.length - k.amount⟩ hdice
    hranked.reverse ((List.reverse_perm faces).trans hperm)
  rw [List.take_reverse, hlength, Nat.sub_sub_self hle, List.sum_reverse] at hrest
  rw [hkept, hrest, List.sum_take_add_sum_drop, hperm.sum_eq]

/-- **What counts of a group comes to the same in whatever order its dice show the faces.** -/
theorem keptSum_settle_perm (g : Group) {faces faces' : List Nat} (h : faces'.Perm faces) :
    keptSum (g.throw.settle faces') = keptSum (g.throw.settle faces) := by
  rw [Throw.settle, Throw.settle, Group.throw]
  cases g.keep with
  | none =>
    show keptSum (faces'.map (Die.fresh g.sides)) = keptSum (faces.map (Die.fresh g.sides))
    rw [keptSum_fresh, keptSum_fresh, h.sum_eq]
  | some k =>
    have hperm := map_ranking_perm k (faces.map (Die.fresh g.sides)) Die.value
    have hperm' := hperm
    rw [map_value_fresh] at hperm'
    rw [← map_value_fresh g.sides faces'] at h
    exact (keptSum_keep_of_ranked k (kept_of_mem_fresh g.sides faces') (ranked_map_ranking k _)
      (hperm'.trans h.symm)).trans (keptSum_keep_of_ranked k (kept_of_mem_fresh g.sides faces)
        (ranked_map_ranking k _) hperm).symm

/-! ## A group rolled alone -/

/-- The formula of a single group with a constant. -/
def Group.alone (g : Group) (constant : Int) : Formula := ⟨[g], constant, List.cons_ne_nil _ _⟩

/-- If the group is rolled alone, in the normal mode and with whatever constant and modifier, and
its dice show these faces, then the roll ends with this subtotal. -/
def Group.ComesTo (g : Group) (faces : List Nat) (subtotal : Int) : Prop :=
  ∀ {σ : Type} [Roller σ] {roller after : σ} (constant modifier : Int),
    Deals roller (List.replicate g.count g.sides) faces after →
      ∃ r log, ((g.alone constant).roll .normal modifier).run roller = ⟨.ok r, log, after⟩ ∧
        r.subtotal = subtotal

theorem throws_alone (g : Group) (constant : Int) :
    (g.alone constant).throws .normal = [g.throw] :=
  congrArg (· :: []) (Formula.throwAt_normal (g.alone constant) 0 g)

/-- **A group that is rolled alone comes to what counts of its dice**, with its sign. -/
theorem comesTo_of_playable {g : Group} (hg : g.Playable) {faces : List Nat}
    (hlength : faces.length = g.count) :
    g.ComesTo faces (g.sign.apply (keptSum (g.throw.settle faces))) := by
  intro σ _ roller after constant modifier h
  have hplayable : (g.alone constant).Playable := List.forall_mem_singleton.2 hg
  have hone : (g.alone constant).groups.length ≤ 2 ^ 40 := Nat.one_le_two_pow
  have hsizes : (g.alone constant).sizes .normal = List.replicate g.count g.sides := by
    rw [← Formula.flatMap_sizes_throws, throws_alone, List.flatMap_singleton]
    rfl
  rw [← hsizes] at h
  refine ⟨_, _, Formula.run_roll hplayable hone modifier h, ?_⟩
  show scoreSum ((g.alone constant).throws .normal)
    (deal ((g.alone constant).throws .normal) faces) = _
  have htake : faces.take g.throw.count = faces := List.take_of_length_le hlength.le
  rw [throws_alone, deal, htake, deal, scoreSum_cons]
  exact Int.add_zero _

/-- The highest `amount` of a group, the lowest of as many dice as are left, and all of them. -/
theorem keptSum_settle_add_rest (sign : Sign) {count amount : Nat} (sides : Nat) {faces : List Nat}
    (hlength : faces.length = count) (hle : amount ≤ count) :
    keptSum ((⟨sign, count, sides, some ⟨.highest, amount⟩⟩ : Group).throw.settle faces) +
        keptSum ((⟨sign, count, sides, some ⟨.lowest, count - amount⟩⟩ : Group).throw.settle faces) =
      keptSum ((⟨sign, count, sides, none⟩ : Group).throw.settle faces) := by
  have hcount : (faces.map (Die.fresh sides)).length = count := by rw [List.length_map, hlength]
  have hrest := keptSum_keep_add_rest ⟨.highest, amount⟩ (kept_of_mem_fresh sides faces)
    (hle.trans_eq hcount.symm)
  rw [hcount, map_value_fresh, ← keptSum_fresh sides faces] at hrest
  exact hrest

/-- **The highest few of a pool and the lowest of the rest make up the pool, and the order of the
dice does not matter.**  So many dice are rolled alone and show the same faces three times: with a
suffix that keeps the highest `amount`, with one that keeps the lowest of as many dice as are left,
and without a suffix.  All three rolls come to an end, and the first two subtotals sum to the third.
With any suffix or none, the same faces in another order come to the same subtotal. -/
theorem keep_splits_pool (sign : Sign) {count sides : Nat} (hcount : Group.CountInRange count)
    (hsides : Group.SidesInRange sides) {faces : List Nat} (hlength : faces.length = count)
    (hfaces : ∀ value ∈ faces, 1 ≤ value ∧ value ≤ sides) :
    (∀ rest : List Nat,
      Deals (⟨faces ++ rest⟩ : Script) (List.replicate count sides) faces ⟨rest⟩) ∧
    (∀ amount, 1 ≤ amount → amount < count → ∃ highest lowest all : Int,
      (⟨sign, count, sides, some ⟨.highest, amount⟩⟩ : Group).ComesTo faces highest ∧
      (⟨sign, count, sides, some ⟨.lowest, count - amount⟩⟩ : Group).ComesTo faces lowest ∧
      (⟨sign, count, sides, none⟩ : Group).ComesTo faces all ∧ highest + lowest = all) ∧
    ∀ keep : Option Keep, (∀ k, keep = some k → Group.KeepInRange count k.amount) →
      ∃ subtotal, ∀ faces' : List Nat, faces'.Perm faces →
        (⟨sign, count, sides, keep⟩ : Group).ComesTo faces' subtotal := by
  have hplayable : ∀ keep : Option Keep,
      (∀ k, keep = some k → Group.KeepInRange count k.amount) →
      (⟨sign, count, sides, keep⟩ : Group).Playable := fun keep hkeep =>
    Group.WellFormed.playable ⟨hcount, hsides, hkeep⟩
  refine ⟨fun rest => Deals.script ?_ rest, fun amount hone hlt => ?_, fun keep hkeep => ?_⟩
  · rw [← hlength, ← List.map_const', List.forall₂_map_left_iff, List.forall₂_same]
    exact hfaces
  · have hkeep : ∀ mode n, 1 ≤ n → n ≤ count → ∀ k, some (⟨mode, n⟩ : Keep) = some k →
        Group.KeepInRange count k.amount := by
      rintro mode n hn hn' k ⟨⟩
      exact ⟨hn, hn'⟩
    refine ⟨_, _, _, comesTo_of_playable (hplayable _ (hkeep _ _ hone hlt.le)) hlength,
      comesTo_of_playable (hplayable _ (hkeep _ _ (by omega) (by omega))) hlength,
      comesTo_of_playable (hplayable none fun k hk => by cases hk) hlength, ?_⟩
    rw [← keptSum_settle_add_rest sign sides hlength hlt.le]
    cases sign <;> simp only [Sign.apply] <;> omega
  · refine ⟨sign.apply (keptSum ((⟨sign, count, sides, keep⟩ : Group).throw.settle faces)),
      fun faces' hperm => ?_⟩
    rw [← keptSum_settle_perm _ hperm]
    exact comesTo_of_playable (hplayable keep hkeep) (hperm.length_eq.trans hlength)

/-- Four d6, two of which show a six: the highest and the lowest three, and the same dice in another
order. -/
theorem keep_splits_pool_pairs :
    (Group.CountInRange 4 ∧ Group.SidesInRange 6 ∧ ∀ value ∈ [6, 1, 6, 2], 1 ≤ value ∧ value ≤ 6) ∧
      Deals (⟨[6, 1, 6, 2, 9]⟩ : Script) [6, 6, 6, 6] [6, 1, 6, 2] ⟨[9]⟩ ∧
      (∃ highest lowest all : Int,
        (⟨.minus, 4, 6, some ⟨.highest, 1⟩⟩ : Group).ComesTo [6, 1, 6, 2] highest ∧
        (⟨.minus, 4, 6, some ⟨.lowest, 3⟩⟩ : Group).ComesTo [6, 1, 6, 2] lowest ∧
        (⟨.minus, 4, 6, none⟩ : Group).ComesTo [6, 1, 6, 2] all ∧ highest + lowest = all) ∧
      ∃ subtotal, (⟨.minus, 4, 6, some ⟨.lowest, 3⟩⟩ : Group).ComesTo [6, 1, 6, 2] subtotal ∧
        (⟨.minus, 4, 6, some ⟨.lowest, 3⟩⟩ : Group).ComesTo [2, 6, 6, 1] subtotal := by
  have hcount : Group.CountInRange 4 := by decide
  have hsides : Group.SidesInRange 6 := by decide
  have hfaces : ∀ value ∈ [6, 1, 6, 2], 1 ≤ value ∧ value ≤ 6 := by decide
  have hkeep : ∀ k, some (⟨.lowest, 3⟩ : Keep) = some k → Group.KeepInRange 4 k.amount := by
    rintro k ⟨⟩
    decide
  obtain ⟨hdeals, hsplit, horder⟩ := keep_splits_pool .minus hcount hsides rfl hfaces
  obtain ⟨subtotal, hsubtotal⟩ := horder (some ⟨.lowest, 3⟩) hkeep
  exact ⟨⟨hcount, hsides, hfaces⟩, hdeals [9], hsplit 1 (by decide) (by decide), subtotal,
    hsubtotal _ (.refl _), hsubtotal _ (by decide)⟩

end Dicebag
