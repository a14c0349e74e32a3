import Dicebag.Proofs.Rule.Best

/-!
# Which dice a keep suffix sets aside

A keep suffix sorts its dice and sets aside all but the first few.  Seen from a single die no
sorting is needed: the die is set aside if enough other dice come before it, where a die comes
before another if it shows a better face, or the same face and was rolled earlier
(`KeepMode.ComesBefore`).  How many do is `KeepMode.ahead`, which counts them in the pool as it lies
on the table.

* `mem_drop_iff_le_countP` is the reason: in a list that a strict order sorts, the entries before an
  entry are those that are smaller, so dropping the first `n` leaves an entry just when `n` others
  are smaller.
* `getElem?_apply_keep` reads the mark of every die off the number of dice ahead of it.
* `keep_keeps_best` puts this together with how many dice are kept and with what they come to:
  `BestKept` is all that can be said of the outcome, for every pool and every amount.
-/

set_option autoImplicit false

namespace Dicebag

/-! ## Dice that come before others -/

/-- A die at its place comes before another at its own: it shows a better face, or the same face and
was rolled earlier. -/
def KeepMode.ComesBefore (mode : KeepMode) (a b : Die × Nat) : Prop :=
  match mode with
  | highest => b.1.value < a.1.value ∨ a.1.value = b.1.value ∧ a.2 < b.2
  | lowest => a.1.value < b.1.value ∨ a.1.value = b.1.value ∧ a.2 < b.2

instance (mode : KeepMode) (a b : Die × Nat) : Decidable (mode.ComesBefore a b) :=
  match mode with
  | .highest => inferInstanceAs (Decidable (_ ∨ _))
  | .lowest => inferInstanceAs (Decidable (_ ∨ _))

/-- How many dice of the pool come before a die at its place. -/
def KeepMode.ahead (mode : KeepMode) (dice : List Die) (a : Die × Nat) : Nat :=
  dice.zipIdx.countP fun b => mode.ComesBefore b a

theorem KeepMode.ComesBefore.asymm {mode : KeepMode} {a b : Die × Nat}
    (h : mode.ComesBefore a b) : ¬mode.ComesBefore b a := by
  cases mode <;> simp only [KeepMode.ComesBefore] at h ⊢ <;> omega

/-- Of two dice at different places, the one that ranks no later comes before the other. -/
theorem comesBefore_of_ranksBefore {mode : KeepMode} {a b : Die × Nat}
    (h : mode.ranksBefore a b = true) (hne : a.2 ≠ b.2) : mode.ComesBefore a b := by
  rw [ranksBefore_iff] at h
  cases mode <;> simp only [KeepMode.ComesBefore, KeepMode.worth, KeepMode.weigh] at h ⊢ <;> omega

/-- Of dice that show the same face, an earlier one has no more ahead of it than a later one. -/
theorem ahead_le_ahead {mode : KeepMode} (dice : List Die) {a b : Die × Nat}
    (hvalue : a.1.value = b.1.value) (hle : a.2 ≤ b.2) :
    mode.ahead dice a ≤ mode.ahead dice b := by
  refine List.countP_mono_left fun c _ hc => ?_
  rw [decide_eq_true_eq] at hc ⊢
  cases mode <;> simp only [KeepMode.ComesBefore] at hc ⊢ <;> omega

/-! ## The ranking seen from one die -/

theorem pairwise_comesBefore_ranking (k : Keep) (dice : List Die) :
    (k.ranking dice).Pairwise k.mode.ComesBefore := by
  have hplaces : ((k.ranking dice).map Prod.snd).Nodup :=
    (map_snd_ranking_perm k dice).nodup_iff.2 List.nodup_range
  exact ((pairwise_ranksBefore_ranking k dice).and (List.pairwise_map.1 hplaces)).imp
    fun hab => comesBefore_of_ranksBefore hab.1 hab.2

/-- **In a list that a strict order sorts, an entry is left when the first `n` are dropped just when
`n` entries are smaller.** -/
theorem mem_drop_iff_le_countP {α : Type} {lt : α → α → Prop} [∀ a b, Decidable (lt a b)]
    (hasymm : ∀ {a b}, lt a b → ¬lt b a) {l : List α} (hl : l.Pairwise lt) {x : α} (hx : x ∈ l)
    (n : Nat) : x ∈ l.drop n ↔ n ≤ l.countP fun a => lt a x := by
  induction l generalizing n with
  | nil => cases hx
  | cons a l ih =>
    obtain ⟨ha, hl⟩ := List.pairwise_cons.1 hl
    cases n with
    | zero => simp [hx]
    | succ n =>
      rw [List.drop_succ_cons]
      rcases List.mem_cons.1 hx with rfl | hx
      · -- nothing is smaller than the first entry, and it does not occur a second time
        have hnone : (x :: l).countP (fun b => lt b x) = 0 := by
          refine List.countP_eq_zero.2 fun b hb => ?_
          rw [decide_eq_true_eq]
          rcases List.mem_cons.1 hb with rfl | hb
          · exact fun h => hasymm h h
          · exact hasymm (ha b hb)
        rw [hnone]
        exact ⟨fun h => absurd (ha x (List.mem_of_mem_drop h)) fun h => hasymm h h,
          fun h => absurd h (Nat.not_succ_le_zero n)⟩
      · have hcount : (a :: l).countP (fun b => lt b x) = l.countP (fun b => lt b x) + 1 :=
          List.countP_cons_of_pos (decide_eq_true (ha x hx))
        rw [ih hl hx, hcount, Nat.succ_le_succ_iff]

/-- **A place is among those set aside just when as many dice as are kept come before it.** -/
theorem mem_dropped_iff (k : Keep) {dice : List Die} {i : Nat} {d : Die} (hd : dice[i]? = some d) :
    i ∈ (k.dropped dice).map Prod.snd ↔ k.amount ≤ k.mode.ahead dice (d, i) := by
  have hperm : (k.ranking dice).Perm dice.zipIdx := List.mergeSort_perm _ _
  have hmem : (d, i) ∈ k.ranking dice :=
    hperm.mem_iff.2 (List.mk_mem_zipIdx_iff_getElem?.2 hd)
  rw [KeepMode.ahead, ← hperm.countP_eq,
    ← mem_drop_iff_le_countP KeepMode.ComesBefore.asymm (pairwise_comesBefore_ranking k dice) hmem]
  refine ⟨fun h => ?_, fun h => List.mem_map.2 ⟨_, h, rfl⟩⟩
  obtain ⟨⟨e, j⟩, he, rfl⟩ := List.mem_map.1 h
  have hget := List.mk_mem_zipIdx_iff_getElem?.1 (hperm.mem_iff.1 (List.mem_of_mem_drop he))
  obtain rfl : d = e := Option.some.inj (hd.symm.trans hget)
  exact he

theorem getElem?_setAside (places : List Nat) (dice : List Die) (i : Nat) :
    (setAside places dice)[i]? =
      dice[i]?.map fun d => if places.contains i then { d with discarded := true } else d := by
  rw [setAside, List.getElem?_map, List.getElem?_zipIdx, Option.map_map, Nat.zero_add]
  rfl

/-- **A die that counted is set aside just when as many dice as are kept come before it**, and is
otherwise as it was. -/
theorem getElem?_apply_keep (k : Keep) {dice : List Die} (hdice : ∀ d ∈ dice, d.kept = true)
    {i : Nat} {d : Die} (hd : dice[i]? = some d) :
    ((Rule.keep k).apply dice).1[i]? =
      some { d with discarded := k.amount ≤ k.mode.ahead dice (d, i) } := by
  have hfresh : d.discarded = false := by simpa [Die.kept] using hdice d (List.mem_of_getElem? hd)
  show (setAside ((k.dropped dice).map Prod.snd) dice)[i]? = _
  rw [getElem?_setAside, hd, Option.map_some]
  by_cases hahead : k.amount ≤ k.mode.ahead dice (d, i)
  · rw [if_pos (List.contains_iff_mem.2 ((mem_dropped_iff k hd).2 hahead)), decide_eq_true hahead]
  · rw [if_neg (fun h => hahead ((mem_dropped_iff k hd).1 (List.contains_iff_mem.1 h))),
      decide_eq_false hahead, ← hfresh]

/-! ## What is kept -/

theorem filter_kept_keep_sublist (k : Keep) {dice : List Die} (hdice : ∀ d ∈ dice, d.kept = true) :
    (((Rule.keep k).apply dice).1.filter Die.kept).Sublist dice := by
  show ((setAside ((k.dropped dice).map Prod.snd) dice).filter Die.kept).Sublist dice
  have hsub := (List.filter_sublist (l := dice.zipIdx)
    (p := fun p => !((k.dropped dice).map Prod.snd).contains p.2)).map Prod.fst
  rwa [← filter_kept_setAside _ hdice, List.zipIdx_map_fst] at hsub

/-- The first sum is as good as the second for a mode: no smaller where the highest dice are kept,
and no larger where the lowest are. -/
def KeepMode.AsGoodAs (mode : KeepMode) (x y : Nat) : Prop :=
  match mode with
  | highest => y ≤ x
  | lowest => x ≤ y

theorem asGoodAs_of_weigh_le {mode : KeepMode} {x y : Nat} (h : mode.weigh y ≤ mode.weigh x) :
    mode.AsGoodAs x y := by
  cases mode <;> simp only [KeepMode.AsGoodAs, KeepMode.weigh] at h ⊢ <;> omega

/-- What is true of the dice of a pool after a keep suffix has set some of them aside. -/
structure BestKept (k : Keep) (dice marked : List Die) : Prop where
  /-- No die moves, and none shows another face or has other sides. -/
  faces : marked.map Die.face = dice.map Die.face
  /-- A die is set aside just when as many dice as are kept come before it. -/
  discarded : ∀ (i : Nat) (d e : Die), dice[i]? = some d → marked[i]? = some e →
    (e.discarded = true ↔ k.amount ≤ k.mode.ahead dice (d, i))
  /-- As many dice are kept as the suffix says, or all of them if there are fewer. -/
  count : (marked.filter Die.kept).length = min k.amount dice.length
  /-- The dice that are kept are some of those that were rolled. -/
  chosen : (marked.filter Die.kept).Sublist dice
  /-- No choice of as many dice comes to a better sum. -/
  best : ∀ choice : List Die, choice.Sublist dice → choice.length = min k.amount dice.length →
    k.mode.AsGoodAs ((marked.filter Die.kept).map Die.value).sum (choice.map Die.value).sum
  /-- Of dice that show the same face, none is kept that was rolled after one that is set aside. -/
  ties : ∀ (i j : Nat) (d e : Die), i < j → marked[i]? = some d → marked[j]? = some e →
    d.value = e.value → d.discarded = true → e.discarded = true

/-- **A keep suffix keeps the best dice of a pool, and of equal dice the earlier.**  For every pool
of which no die has been set aside and every amount, a die is set aside just when as many dice as
are kept come before it; so the dice that are kept are as many as the suffix says or all there are,
no choice of as many comes to a better sum, and of equal faces the earlier are kept. -/
theorem keep_keeps_best (k : Keep) {dice : List Die} (hdice : ∀ d ∈ dice, d.kept = true) :
    BestKept k dice ((Rule.keep k).apply dice).1 := by
  have hdiscarded : ∀ (i : Nat) (d e : Die), dice[i]? = some d →
      ((Rule.keep k).apply dice).1[i]? = some e →
      (e.discarded = true ↔ k.amount ≤ k.mode.ahead dice (d, i)) := by
    intro i d e hd he
    rw [getElem?_apply_keep k hdice hd, Option.some.injEq] at he
    rw [← he, decide_eq_true_eq]
  have hvalues := (Rule.keep k).map_value_apply dice
  refine
    { faces := (Rule.keep k).map_face_apply dice
      discarded := hdiscarded
      count := count_kept_keep k hdice
      chosen := filter_kept_keep_sublist k hdice
      best := fun choice hchoice hlength => ?_
      ties := fun i j d e hlt hd he hvalue hset => ?_ }
  · have hle := sum_worth_le_kept k hdice (hchoice.map k.mode.worth).subperm
      (by rw [List.length_map, hlength])
    rw [sum_worth, sum_worth] at hle
    exact asGoodAs_of_weigh_le hle
  · -- a die and its image show the same face
    have horigin : ∀ {i : Nat} {d : Die}, ((Rule.keep k).apply dice).1[i]? = some d →
        ∃ d', dice[i]? = some d' ∧ d'.value = d.value := by
      intro i d hd
      have hget := congrArg (fun row => row[i]?) hvalues
      simp only [List.getElem?_map, hd, Option.map_some] at hget
      exact Option.map_eq_some_iff.1 hget.symm
    obtain ⟨d', hd', hdvalue⟩ := horigin hd
    obtain ⟨e', he', hevalue⟩ := horigin he
    have hahead : k.mode.ahead dice (d', i) ≤ k.mode.ahead dice (e', j) :=
      ahead_le_ahead dice (hdvalue.trans (hvalue.trans hevalue.symm)) hlt.le
    exact (hdiscarded j e' e he' he).2 (((hdiscarded i d' d hd' hd).1 hset).trans hahead)

/-- A pool with two sixes, two fives, and a one between them. -/
def pairedPool : List Die :=
  [⟨6, 6, false⟩, ⟨6, 5, false⟩, ⟨6, 1, false⟩, ⟨6, 6, false⟩, ⟨6, 5, false⟩]

/-- Of two sixes and two fives the highest three are kept: both sixes, and the earlier five. -/
theorem keep_keeps_best_pairs :
    (∀ d ∈ pairedPool, d.kept = true) ∧
      BestKept ⟨.highest, 3⟩ pairedPool ((Rule.keep ⟨.highest, 3⟩).apply pairedPool).1 ∧
      (∀ d, ((Rule.keep ⟨.highest, 3⟩).apply pairedPool).1[1]? = some d → ¬d.discarded = true) ∧
      ∀ d, ((Rule.keep ⟨.highest, 3⟩).apply pairedPool).1[4]? = some d → d.discarded = true := by
  have hfresh : ∀ d ∈ pairedPool, d.kept = true := by decide
  have hbest := keep_keeps_best ⟨.highest, 3⟩ hfresh
  refine ⟨hfresh, hbest, fun d hd => ?_, fun d hd => ?_⟩
  · rw [hbest.discarded 1 _ d rfl hd]
    decide
  · rw [hbest.discarded 4 _ d rfl hd]
    decide

end Dicebag
