import Mathlib.Algebra.GroupWithZero.Nat
import Mathlib.Data.List.Nodup
import Dicebag.Rule

/-!
# How many dice count

A rule never changes the number of dice, nor what they show, so all that is left to say is which of
them count.  This module says how many do, and what they can add up to at most.

* A keep suffix keeps the dice that rank first (`filter_kept_keep_perm`), because its ranking has
  every place once; of `n` dice these are `min amount n` (`count_kept_keep`).
* Of two dice the pick of a mode keeps one, and it is the one that a keep suffix for a single die
  would keep, equal faces included (`pick_eq_keep_one`).
* The dice that count sum to no more than the number of all dice times the highest face
  (`keptSum_le`).
-/

set_option autoImplicit false

namespace Dicebag

/-! ## The sum of the dice that count -/

theorem keptSum_eq (dice : List Die) :
    keptSum dice = ((dice.filter Die.kept).map Die.value).sum := by
  induction dice with
  | nil => rfl
  | cons d dice ih =>
    rw [keptSum, ih]
    by_cases hd : d.kept = true
    · rw [if_pos hd, List.filter_cons_of_pos hd, List.map_cons, List.sum_cons]
    · rw [if_neg hd, List.filter_cons_of_neg hd, Nat.zero_add]

theorem keptSum_append (dice dice' : List Die) :
    keptSum (dice ++ dice') = keptSum dice + keptSum dice' := by
  rw [keptSum_eq, keptSum_eq, keptSum_eq, List.filter_append, List.map_append, List.sum_append]

/-- The first few dice come to no more than all of them. -/
theorem keptSum_take_le (dice : List Die) (n : Nat) : keptSum (dice.take n) ≤ keptSum dice := by
  have h := keptSum_append (dice.take n) (dice.drop n)
  rw [List.take_append_drop] at h
  omega

theorem keptSum_le {dice : List Die} {m : Nat} (h : ∀ d ∈ dice, d.value ≤ m) :
    keptSum dice ≤ dice.length * m := by
  induction dice with
  | nil => simp [keptSum]
  | cons d dice ih =>
    have hd := h d List.mem_cons_self
    have hrest := ih fun e he => h e (List.mem_cons_of_mem d he)
    rw [keptSum, List.length_cons, Nat.add_mul, Nat.one_mul]
    split <;> omega

/-! ## Rules and the dice -/

theorem Rule.length_apply (rule : Rule) (dice : List Die) :
    (rule.apply dice).1.length = dice.length := by
  have h := congrArg List.length (rule.map_face_apply dice)
  rwa [List.length_map, List.length_map] at h

/-- The values of dice are left as they are by a rule. -/
theorem Rule.map_value_apply (rule : Rule) (dice : List Die) :
    (rule.apply dice).1.map Die.value = dice.map Die.value := by
  have h := congrArg (List.map Prod.snd) (rule.map_face_apply dice)
  rwa [List.map_map, List.map_map] at h

theorem Rule.value_le_of_mem_apply {rule : Rule} {dice : List Die} {m : Nat}
    (h : ∀ d ∈ dice, d.value ≤ m) : ∀ d ∈ (rule.apply dice).1, d.value ≤ m := by
  intro d hd
  have hface : d.face ∈ dice.map Die.face := by
    rw [← rule.map_face_apply dice]
    exact List.mem_map_of_mem hd
  obtain ⟨e, he, heq⟩ := List.mem_map.1 hface
  have hvalue : e.value = d.value := congrArg Prod.snd heq
  rw [← hvalue]
  exact h e he

/-! ## The places that a keep suffix sets aside -/

theorem map_fst_zipIdx {α β : Type} (φ : α → β) (row : List α) :
    (row.zipIdx.map fun p => φ p.1) = row.map φ := by
  have h := congrArg (List.map φ) (List.zipIdx_map_fst 0 row)
  rwa [List.map_map] at h

theorem map_snd_ranking_perm (k : Keep) (dice : List Die) :
    ((k.ranking dice).map Prod.snd).Perm (List.range dice.length) := by
  have h := (List.mergeSort_perm dice.zipIdx k.mode.ranksBefore).map Prod.snd
  rwa [List.zipIdx_map_snd, ← List.range_eq_range'] at h

/-- In a list without repetition the first `n` entries do not come again behind them. -/
theorem contains_map_drop_of_mem_take {α : Type} {φ : α → Nat} {l : List α}
    (hl : (l.map φ).Nodup) {n : Nat} {a : α} (ha : a ∈ l.take n) :
    ((l.drop n).map φ).contains (φ a) = false := by
  have hmem : φ a ∈ (l.map φ).take n := by
    rw [← List.map_take]
    exact List.mem_map_of_mem ha
  have hnot := fun h => List.disjoint_take_drop hl (Nat.le_refl n) hmem h
  rw [← List.map_drop] at hnot
  simpa using hnot

theorem contains_map_of_mem {α : Type} {φ : α → Nat} {l : List α} {a : α} (ha : a ∈ l) :
    (l.map φ).contains (φ a) = true := List.contains_iff_mem.2 (List.mem_map_of_mem ha)

/-- What does not come behind the first `n` entries of a list without repetition is among these. -/
theorem filter_not_mem_drop {α : Type} {φ : α → Nat} {l : List α} (hl : (l.map φ).Nodup) (n : Nat) :
    l.filter (fun a => !((l.drop n).map φ).contains (φ a)) = l.take n := by
  have htake : (l.take n).filter (fun a => !((l.drop n).map φ).contains (φ a)) = l.take n :=
    List.filter_eq_self.2 fun a ha => by rw [contains_map_drop_of_mem_take hl ha]; rfl
  have hdrop : (l.drop n).filter (fun a => !((l.drop n).map φ).contains (φ a)) = [] :=
    List.filter_eq_nil_iff.2 fun a ha => by rw [contains_map_of_mem ha]; exact Bool.false_ne_true
  calc l.filter (fun a => !((l.drop n).map φ).contains (φ a))
      = (l.take n ++ l.drop n).filter (fun a => !((l.drop n).map φ).contains (φ a)) := by
        rw [List.take_append_drop]
    _ = l.take n := by rw [List.filter_append, htake, hdrop, List.append_nil]

/-- What comes behind the first `n` entries of a list without repetition is not among these. -/
theorem filter_mem_drop {α : Type} {φ : α → Nat} {l : List α} (hl : (l.map φ).Nodup) (n : Nat) :
    l.filter (fun a => ((l.drop n).map φ).contains (φ a)) = l.drop n := by
  have htake : (l.take n).filter (fun a => ((l.drop n).map φ).contains (φ a)) = [] :=
    List.filter_eq_nil_iff.2 fun a ha => by
      rw [contains_map_drop_of_mem_take hl ha]
      exact Bool.false_ne_true
  have hdrop : (l.drop n).filter (fun a => ((l.drop n).map φ).contains (φ a)) = l.drop n :=
    List.filter_eq_self.2 fun a ha => contains_map_of_mem ha
  calc l.filter (fun a => ((l.drop n).map φ).contains (φ a))
      = (l.take n ++ l.drop n).filter (fun a => ((l.drop n).map φ).contains (φ a)) := by
        rw [List.take_append_drop]
    _ = l.drop n := by rw [List.filter_append, htake, hdrop, List.nil_append]

/-- Among dice that all count, setting some places aside leaves the dice at the others. -/
theorem filter_kept_setAside (places : List Nat) {dice : List Die}
    (hdice : ∀ d ∈ dice, d.kept = true) :
    (setAside places dice).filter Die.kept =
      (dice.zipIdx.filter fun p => !places.contains p.2).map Prod.fst := by
  have hkept : ∀ p ∈ dice.zipIdx,
      (if places.contains p.2 then { p.1 with discarded := true } else p.1 : Die).kept =
        !places.contains p.2 := by
    intro p hp
    have hfresh : p.1.kept = true := hdice p.1 (List.fst_mem_of_mem_zipIdx hp)
    by_cases hin : places.contains p.2 = true
    · rw [if_pos hin, hin]
      rfl
    · rw [if_neg hin, hfresh, Bool.eq_false_iff.2 hin]
      rfl
  rw [setAside, List.filter_map]
  refine (congrArg _ (List.filter_congr hkept)).trans (List.map_congr_left fun p hp => ?_)
  have hout : places.contains p.2 = false := by simpa using (List.mem_filter.1 hp).2
  exact if_neg (Bool.eq_false_iff.1 hout)

/-- **A keep suffix keeps the dice that rank first.** -/
theorem filter_kept_keep_perm (k : Keep) {dice : List Die} (hdice : ∀ d ∈ dice, d.kept = true) :
    (((Rule.keep k).apply dice).1.filter Die.kept).Perm
      (((k.ranking dice).take k.amount).map Prod.fst) := by
  have hnodup : ((k.ranking dice).map Prod.snd).Nodup :=
    (map_snd_ranking_perm k dice).nodup_iff.2 List.nodup_range
  have hranking : (k.ranking dice).Perm dice.zipIdx := List.mergeSort_perm _ _
  show ((setAside ((k.dropped dice).map Prod.snd) dice).filter Die.kept).Perm _
  rw [filter_kept_setAside _ hdice, ← filter_not_mem_drop hnodup k.amount, Keep.dropped]
  exact (hranking.symm.filter _).map _

/-- **A keep suffix keeps as many dice as it says**, or all of them if there are fewer. -/
theorem count_kept_keep (k : Keep) {dice : List Die} (hdice : ∀ d ∈ dice, d.kept = true) :
    (((Rule.keep k).apply dice).1.filter Die.kept).length = min k.amount dice.length := by
  have hlength : (k.ranking dice).length = dice.length := by
    rw [Keep.ranking, List.length_mergeSort, List.length_zipIdx]
  rw [(filter_kept_keep_perm k hdice).length_eq, List.length_map, List.length_take, hlength]

/-! ## The pick of a mode -/

/-- Of two dice, a mode sets the first aside if the second wins, and else the second. -/
theorem apply_pick_pair {mode : Mode} (hmode : mode ≠ .normal) (first second : Die) :
    ((Rule.pick mode).apply [first, second]).1 =
      if mode.secondWins first.value second.value then
        [{ first with discarded := true }, second]
      else [first, { second with discarded := true }] := by
  cases mode with
  | normal => exact absurd rfl hmode
  | advantage => simp only [Rule.apply]; split <;> rfl
  | disadvantage => simp only [Rule.apply]; split <;> rfl

/-- **Advantage and disadvantage keep one of two dice.** -/
theorem count_kept_pick {mode : Mode} (hmode : mode ≠ .normal) {first second : Die}
    (hfirst : first.kept = true) (hsecond : second.kept = true) :
    (((Rule.pick mode).apply [first, second]).1.filter Die.kept).length = 1 := by
  have hset : ∀ d : Die, Die.kept { d with discarded := true } = false := fun _ => rfl
  rw [apply_pick_pair hmode]
  split
  · rw [List.filter_cons_of_neg (by simp [hset]), List.filter_cons_of_pos hsecond]
    rfl
  · rw [List.filter_cons_of_pos hfirst, List.filter_cons_of_neg (by simp [hset])]
    rfl

/-- The end of the ranking that a mode keeps. -/
def Mode.keepMode? : Mode → Option KeepMode
  | normal => none
  | advantage => some .highest
  | disadvantage => some .lowest

theorem exists_keepMode {mode : Mode} (h : mode ≠ .normal) :
    ∃ keepMode, mode.keepMode? = some keepMode := by
  cases mode with
  | normal => exact absurd rfl h
  | advantage => exact ⟨.highest, rfl⟩
  | disadvantage => exact ⟨.lowest, rfl⟩

theorem ranking_pair (k : Keep) (first second : Die) :
    k.ranking [first, second] =
      if k.mode.ranksBefore (first, 0) (second, 1) then [(first, 0), (second, 1)]
      else [(second, 1), (first, 0)] := by
  show [(first, 0), (second, 1)].mergeSort k.mode.ranksBefore = _
  simp [List.mergeSort, List.merge]

/-- The first of two dice ranks first unless the second wins. -/
theorem ranksBefore_iff_not_secondWins {mode : Mode} {keepMode : KeepMode}
    (h : mode.keepMode? = some keepMode) (first second : Die) :
    keepMode.ranksBefore (first, 0) (second, 1) = !mode.secondWins first.value second.value := by
  cases mode with
  | normal => cases h
  | advantage =>
    cases h
    rw [Bool.eq_iff_iff]
    simp [KeepMode.ranksBefore, KeepMode.prefers, Mode.secondWins]
    omega
  | disadvantage =>
    cases h
    rw [Bool.eq_iff_iff]
    simp [KeepMode.ranksBefore, KeepMode.prefers, Mode.secondWins]
    omega

/-- **Of two dice, a mode picks the one that a keep suffix for one die keeps.** -/
theorem pick_eq_keep_one {mode : Mode} {keepMode : KeepMode} (h : mode.keepMode? = some keepMode)
    (first second : Die) :
    ((Rule.pick mode).apply [first, second]).1 =
      ((Rule.keep ⟨keepMode, 1⟩).apply [first, second]).1 := by
  have hbefore := ranksBefore_iff_not_secondWins h first second
  have hmode : mode ≠ .normal := by
    rintro rfl
    cases h
  have hkeep : ((Rule.keep ⟨keepMode, 1⟩).apply [first, second]).1 =
      setAside (((Keep.ranking ⟨keepMode, 1⟩ [first, second]).drop 1).map Prod.snd)
        [first, second] := rfl
  rw [apply_pick_pair hmode, hkeep, ranking_pair, hbefore]
  by_cases hwins : mode.secondWins first.value second.value = true
  · simp [hwins, setAside]
  · simp [hwins, setAside]

end Dicebag
