import Mathlib.Algebra.Order.BigOperators.Group.List
import Mathlib.Algebra.Ring.Int.Defs
import Mathlib.Data.List.Perm.Subperm
import Dicebag.Proofs.Rule.Kept

/-!
# The best dice

A keep suffix is greedy: it ranks the dice and keeps the first few.  This module says that no other
choice of as many dice does better, and draws from it that better dice never keep a worse sum, even
though other dice may be kept.

* `KeepMode.worth` is what a die is worth to a mode.  It counts the faces up for the highest dice
  and down for the lowest, so that both modes keep the dice that are worth most, and every statement
  is made once.
* `sum_le_sum_take` is the greedy argument: of a list in descending order, no sublist sums to more
  than the entries at its front.
* `sum_worth_le_kept` is the same for dice, which the ranking puts in that order, and
  `sum_worth_kept_mono` compares two pools die by die: what the first keeps is a choice that the
  second could have made.  `keptSum_keep_mono` says it of faces.
* What is kept can be told from the faces alone: it is the sum of the first few of them in the order
  in which the mode ranks them (`keptSum_keep_of_ranked`).
-/

set_option autoImplicit false

namespace Dicebag

/-! ## The worth of a die -/

/-- A number as the mode counts it: up for the highest dice, and down for the lowest. -/
def KeepMode.weigh : KeepMode → Int → Int
  | highest, x => x
  | lowest, x => -x

/-- What a die is worth to the mode. -/
def KeepMode.worth (mode : KeepMode) (d : Die) : Int := mode.weigh d.value

theorem sum_worth (mode : KeepMode) (dice : List Die) :
    (dice.map mode.worth).sum = mode.weigh (dice.map Die.value).sum := by
  induction dice with
  | nil => cases mode <;> rfl
  | cons d dice ih =>
    rw [List.map_cons, List.sum_cons, ih, List.map_cons, List.sum_cons]
    cases mode <;> simp only [KeepMode.worth, KeepMode.weigh] <;> omega

theorem sum_worth_kept (mode : KeepMode) (dice : List Die) :
    ((dice.filter Die.kept).map mode.worth).sum = mode.weigh (keptSum dice) := by
  rw [sum_worth, keptSum_eq]

theorem ranksBefore_iff {mode : KeepMode} {a b : Die × Nat} :
    mode.ranksBefore a b = true ↔
      mode.worth b.1 < mode.worth a.1 ∨ mode.worth a.1 = mode.worth b.1 ∧ a.2 ≤ b.2 := by
  rw [KeepMode.ranksBefore, Bool.or_eq_true, Bool.and_eq_true, beq_iff_eq, decide_eq_true_eq]
  cases mode <;> simp only [KeepMode.prefers, decide_eq_true_eq, KeepMode.worth, KeepMode.weigh] <;>
    omega

theorem pairwise_ranksBefore_ranking (k : Keep) (dice : List Die) :
    (k.ranking dice).Pairwise fun a b => k.mode.ranksBefore a b = true := by
  refine List.pairwise_mergeSort (fun a b c hab hbc => ?_) (fun a b => ?_) _
  · rw [ranksBefore_iff] at hab hbc ⊢
    omega
  · rw [Bool.or_eq_true, ranksBefore_iff, ranksBefore_iff]
    omega

/-- **The ranking goes from the dice that are worth most to those that are worth least.** -/
theorem pairwise_worth_ranking (k : Keep) (dice : List Die) :
    ((k.ranking dice).map fun p => k.mode.worth p.1).Pairwise (fun x y => y ≤ x) := by
  refine List.pairwise_map.2 ((pairwise_ranksBefore_ranking k dice).imp fun {a b} hab => ?_)
  rw [ranksBefore_iff] at hab
  omega

/-- The ranking has every die of the pool once. -/
theorem map_ranking_perm {β : Type} (k : Keep) (dice : List Die) (φ : Die → β) :
    ((k.ranking dice).map fun p => φ p.1).Perm (dice.map φ) := by
  have hperm := (List.mergeSort_perm dice.zipIdx k.mode.ranksBefore).map fun p => φ p.1
  rwa [map_fst_zipIdx] at hperm

/-! ## Greedy choices -/

/-- An entry that no other exceeds is worth taking. -/
theorem sum_take_le_sum_take_cons {s : List Int} {a : Int} (ha : ∀ b ∈ s, b ≤ a) {n : Nat}
    (hn : n ≤ s.length) : (s.take n).sum ≤ ((a :: s).take n).sum := by
  cases n with
  | zero => exact Int.le_refl _
  | succ n =>
    have hlast := ha s[n] (List.getElem_mem hn)
    rw [List.take_succ_cons, List.sum_cons, List.take_add_one, List.getElem?_eq_getElem hn,
      List.sum_append, Option.toList_some, List.sum_singleton]
    omega

/-- **Of a list in descending order, no sublist sums to more than the entries at its front.** -/
theorem sum_le_sum_take {l s : List Int} (h : l.Sublist s) (hs : s.Pairwise (fun x y => y ≤ x)) :
    l.sum ≤ (s.take l.length).sum := by
  induction h with
  | slnil => exact Int.le_refl _
  | @cons l s a hsub ih =>
    obtain ⟨ha, hs⟩ := List.pairwise_cons.1 hs
    exact (ih hs).trans (sum_take_le_sum_take_cons ha hsub.length_le)
  | @cons_cons l s a hsub ih =>
    have hrest := ih (List.pairwise_cons.1 hs).2
    rw [List.sum_cons, List.length_cons, List.take_succ_cons, List.sum_cons]
    omega

/-- **No choice of as many dice is worth more than the dice that are kept.** -/
theorem sum_worth_le_kept (k : Keep) {dice : List Die} (hdice : ∀ d ∈ dice, d.kept = true)
    {choice : List Int} (hchoice : choice.Subperm (dice.map k.mode.worth))
    (hlength : choice.length = min k.amount dice.length) :
    choice.sum ≤ ((((Rule.keep k).apply dice).1.filter Die.kept).map k.mode.worth).sum := by
  have hranking := map_ranking_perm k dice k.mode.worth
  have hcount : (k.ranking dice).length = dice.length := by
    rw [Keep.ranking, List.length_mergeSort, List.length_zipIdx]
  have hkept := ((filter_kept_keep_perm k hdice).map k.mode.worth).sum_eq
  obtain ⟨choice', hperm, hsub⟩ := hchoice.trans hranking.symm.subperm
  have hfront := sum_le_sum_take hsub (pairwise_worth_ranking k dice)
  rw [hperm.sum_eq, hperm.length_eq, hlength, ← hcount, ← List.map_take,
    ← List.take_eq_take_min] at hfront
  rwa [hkept, List.map_map]

/-! ## Better dice -/

/-- What is chosen from one row can be chosen, at the same places, from another. -/
theorem exists_sublist_of_forall₂ {α β : Type} {R : α → β → Prop} {l s : List α} {s' : List β}
    (hl : l.Sublist s) (h : List.Forall₂ R s s') :
    ∃ l', l'.Sublist s' ∧ List.Forall₂ R l l' := by
  induction hl generalizing s' with
  | slnil => exact ⟨[], List.nil_sublist _, .nil⟩
  | cons a _ ih =>
    obtain _ | ⟨-, hrest⟩ := h
    obtain ⟨l', hsub, hl'⟩ := ih hrest
    exact ⟨l', .cons _ hsub, hl'⟩
  | cons_cons a _ ih =>
    obtain _ | ⟨hab, hrest⟩ := h
    obtain ⟨l', hsub, hl'⟩ := ih hrest
    exact ⟨_ :: l', .cons_cons _ hsub, .cons hab hl'⟩

/-- **If no die is worth less, the dice that are kept are worth no less**, whichever they are. -/
theorem sum_worth_kept_mono (k : Keep) {dice dice' : List Die} (hdice : ∀ d ∈ dice, d.kept = true)
    (hdice' : ∀ d ∈ dice', d.kept = true)
    (h : List.Forall₂ (· ≤ ·) (dice.map k.mode.worth) (dice'.map k.mode.worth)) :
    ((((Rule.keep k).apply dice).1.filter Die.kept).map k.mode.worth).sum ≤
      ((((Rule.keep k).apply dice').1.filter Die.kept).map k.mode.worth).sum := by
  have hworth : ((Rule.keep k).apply dice).1.map k.mode.worth = dice.map k.mode.worth := by
    have hvalues := congrArg (List.map fun v : Nat => k.mode.weigh v)
      ((Rule.keep k).map_value_apply dice)
    rwa [List.map_map, List.map_map] at hvalues
  have hsub : ((((Rule.keep k).apply dice).1.filter Die.kept).map k.mode.worth).Sublist
      (dice.map k.mode.worth) := by
    rw [← hworth]
    exact List.filter_sublist.map _
  -- the dice at the same places of the second pool are a choice that it could have made
  obtain ⟨choice, hchoice, hle⟩ := exists_sublist_of_forall₂ hsub h
  have hlength := h.length_eq
  rw [List.length_map, List.length_map] at hlength
  refine hle.sum_le_sum.trans (sum_worth_le_kept k hdice' hchoice.subperm ?_)
  rw [← hle.length_eq, List.length_map, count_kept_keep k hdice, hlength]

/-- **A keep suffix keeps no smaller a sum of dice none of which shows less.**  Dice that show more
are worth less to the mode that keeps the lowest, and then it is the other pool that chooses. -/
theorem keptSum_keep_mono (k : Keep) {dice dice' : List Die} (hdice : ∀ d ∈ dice, d.kept = true)
    (hdice' : ∀ d ∈ dice', d.kept = true)
    (h : List.Forall₂ (· ≤ ·) (dice.map Die.value) (dice'.map Die.value)) :
    keptSum ((Rule.keep k).apply dice).1 ≤ keptSum ((Rule.keep k).apply dice').1 := by
  rw [List.forall₂_map_left_iff, List.forall₂_map_right_iff] at h
  obtain ⟨mode, amount⟩ := k
  cases mode with
  | highest =>
    have hworth : List.Forall₂ (· ≤ ·) (dice.map KeepMode.highest.worth)
        (dice'.map KeepMode.highest.worth) := by
      rw [List.forall₂_map_left_iff, List.forall₂_map_right_iff]
      exact h.imp fun _ _ hle => Int.ofNat_le.2 hle
    have hsum := sum_worth_kept_mono ⟨.highest, amount⟩ hdice hdice' hworth
    rw [sum_worth_kept, sum_worth_kept] at hsum
    exact Int.ofNat_le.1 hsum
  | lowest =>
    have hworth : List.Forall₂ (· ≤ ·) (dice'.map KeepMode.lowest.worth)
        (dice.map KeepMode.lowest.worth) := by
      rw [List.forall₂_map_left_iff, List.forall₂_map_right_iff]
      exact .flip (h.imp fun _ _ hle => Int.neg_le_neg (Int.ofNat_le.2 hle))
    have hsum := sum_worth_kept_mono ⟨.lowest, amount⟩ hdice' hdice hworth
    rw [sum_worth_kept, sum_worth_kept] at hsum
    exact Int.ofNat_le.1 (Int.neg_le_neg_iff.1 hsum)

/-! ## Faces in the order of the ranking -/

/-- The faces come in the order in which the mode ranks them. -/
def KeepMode.Ranked (mode : KeepMode) (faces : List Nat) : Prop :=
  faces.Pairwise fun v w : Nat => mode.weigh w ≤ mode.weigh v

/-- There is one way to rank faces. -/
theorem KeepMode.Ranked.eq_of_perm {mode : KeepMode} {faces faces' : List Nat}
    (h : mode.Ranked faces) (h' : mode.Ranked faces') (hperm : faces.Perm faces') :
    faces = faces' := by
  refine hperm.eq_of_pairwise (fun v w _ _ hle hge => ?_) h h'
  cases mode <;> simp only [KeepMode.weigh] at hle hge <;> omega

theorem ranked_map_ranking (k : Keep) (dice : List Die) :
    k.mode.Ranked ((k.ranking dice).map fun p => p.1.value) :=
  List.pairwise_map.2 (List.pairwise_map.1 (pairwise_worth_ranking k dice))

/-- **A keep suffix keeps the sum of the first few faces**, in the order in which it ranks them and
whatever the order of the dice. -/
theorem keptSum_keep_of_ranked (k : Keep) {dice : List Die} (hdice : ∀ d ∈ dice, d.kept = true)
    {faces : List Nat} (hranked : k.mode.Ranked faces) (hfaces : faces.Perm (dice.map Die.value)) :
    keptSum ((Rule.keep k).apply dice).1 = (faces.take k.amount).sum := by
  obtain rfl : faces = (k.ranking dice).map fun p => p.1.value :=
    hranked.eq_of_perm (ranked_map_ranking k dice)
      (hfaces.trans (map_ranking_perm k dice Die.value).symm)
  rw [keptSum_eq, ((filter_kept_keep_perm k hdice).map Die.value).sum_eq, List.map_map,
    ← List.map_take]
  rfl

end Dicebag
