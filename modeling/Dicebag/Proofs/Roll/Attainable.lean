import Mathlib.Tactic.Ring
import Dicebag.Proofs.Roll.Tally
import Dicebag.Proofs.Rule.Best

/-!
# The subtotals that can be reached

What a roll can come to lies between two ends: all dice that count show their lowest face where they
are added and their highest where they are subtracted, or the other way round.  This module says
that the subtotals of a formula are exactly the numbers between these ends, and that no sum on the
way to them leaves the range of totals.

* The ends are `Formula.leastSubtotal` and `Formula.greatestSubtotal`, read off the groups.
* That nothing lies outside is a matter of counting: so many dice of a throw count, and each shows
  between one and its sides (`Throw.score_mem`, `scoreSum_mem`).
* That nothing inside is missing is a construction.  The dice that are to count share a sum as
  evenly as they can, and come first and in the order of the ranking, so that the rule has no choice
  but to keep them (`rankedFaces`, `Throw.exists_share`).  The throws then divide a subtotal among
  them, the first taking as much as it can (`exists_faces_scoreSum`).
* The sums on the way are of the dice of one group, and of the groups one after another; none of
  them outgrows the room that the throws leave each other (`sumsInRange_outcome`).
-/

set_option autoImplicit false

namespace Dicebag

/-! ## The ends -/

/-- What the groups with a sign come to if of each as many dice as count contribute `φ` together. -/
def Formula.sumOver (f : Formula) (sign : Sign) (φ : Group → Nat) : Nat :=
  ((f.groups.filter fun g => g.sign = sign).map φ).sum

/-- The subtotal of a roll in which all dice that count show a one where they are added, and their
highest face where they are subtracted. -/
def Formula.leastSubtotal (f : Formula) : Int :=
  f.sumOver .plus Group.keptCount - f.sumOver .minus fun g => g.keptCount * g.sides

/-- The subtotal of a roll in which all dice that count show their highest face where they are
added, and a one where they are subtracted. -/
def Formula.greatestSubtotal (f : Formula) : Int :=
  (f.sumOver .plus fun g => g.keptCount * g.sides) - f.sumOver .minus Group.keptCount

/-- The least that so many dice can score. -/
def Sign.leastScore (sign : Sign) (kept sides : Nat) : Int :=
  match sign with
  | plus => kept
  | minus => -(kept * sides : Nat)

/-- The most that so many dice can score. -/
def Sign.greatestScore (sign : Sign) (kept sides : Nat) : Int :=
  match sign with
  | plus => (kept * sides : Nat)
  | minus => -kept

theorem sumOver_sub (f : Formula) (φ ψ : Group → Nat) :
    (f.sumOver .plus φ : Int) - f.sumOver .minus ψ =
      (f.groups.map fun g => match g.sign with
        | .plus => (φ g : Int)
        | .minus => -(ψ g : Int)).sum := by
  rw [Formula.sumOver, Formula.sumOver]
  induction f.groups with
  | nil => rfl
  | cons g gs ih =>
    rw [List.map_cons, List.sum_cons, ← ih]
    cases hsign : g.sign <;> simp [hsign] <;> omega

theorem leastSubtotal_eq (f : Formula) :
    f.leastSubtotal = (f.groups.map fun g => g.sign.leastScore g.keptCount g.sides).sum :=
  sumOver_sub f Group.keptCount fun g => g.keptCount * g.sides

theorem greatestSubtotal_eq (f : Formula) :
    f.greatestSubtotal = (f.groups.map fun g => g.sign.greatestScore g.keptCount g.sides).sum :=
  sumOver_sub f (fun g => g.keptCount * g.sides) Group.keptCount

/-! ## Nothing outside -/

section

variable {σ : Type} [Roller σ]

/-- Dice that count sum to their number at least, and to their number times their sides at most. -/
theorem keptSum_mem {dice : List Die} {sides : Nat}
    (h : ∀ d ∈ dice, 1 ≤ d.value ∧ d.value ≤ sides) :
    (dice.filter Die.kept).length ≤ keptSum dice ∧
      keptSum dice ≤ (dice.filter Die.kept).length * sides := by
  induction dice with
  | nil => exact ⟨Nat.le_refl 0, Nat.zero_le _⟩
  | cons d dice ih =>
    obtain ⟨hd, hrest⟩ := List.forall_mem_cons.1 h
    obtain ⟨hleast, hmost⟩ := ih hrest
    rw [keptSum]
    by_cases hkept : d.kept = true
    · rw [List.filter_cons_of_pos hkept, if_pos hkept, List.length_cons, Nat.add_mul, Nat.one_mul]
      omega
    · rw [List.filter_cons_of_neg hkept, if_neg hkept, Nat.zero_add]
      exact ⟨hleast, hmost⟩

/-- **A throw scores no less than the least and no more than the most of its dice that count.** -/
theorem Throw.score_mem {t : Throw} (ht : t.Sound) {roller after : σ} {share : List Nat}
    (h : Deals roller t.sizes share after) :
    t.sign.leastScore t.keptCount t.sides ≤ t.score (t.settle share) ∧
      t.score (t.settle share) ≤ t.sign.greatestScore t.keptCount t.sides := by
  have hcount := count_kept_settle ht (h.length_eq.trans t.length_sizes)
  obtain ⟨hleast, hmost⟩ := keptSum_mem fun d hd =>
    t.face_mem h d.value (face_of_mem_settle hd).2
  rw [hcount] at hleast hmost
  rw [Throw.score]
  cases t.sign <;> simp only [Sign.leastScore, Sign.greatestScore, Sign.apply] <;> omega

theorem scoreSum_mem {ts : List Throw} (hts : ∀ t ∈ ts, t.Sound) {roller after : σ}
    {faces : List Nat} (h : Deals roller (ts.flatMap Throw.sizes) faces after) :
    (ts.map fun t => t.sign.leastScore t.keptCount t.sides).sum ≤ scoreSum ts (deal ts faces) ∧
      scoreSum ts (deal ts faces) ≤
        (ts.map fun t => t.sign.greatestScore t.keptCount t.sides).sum := by
  induction ts generalizing roller faces with
  | nil => exact ⟨Int.le_refl _, Int.le_refl _⟩
  | cons t ts ih =>
    obtain ⟨ht, hts⟩ := List.forall_mem_cons.1 hts
    obtain ⟨mid, hfirst, hrest⟩ := deals_cons_iff.1 h
    have hscore := t.score_mem ht hfirst
    have hscores := ih hts hrest
    rw [deal, scoreSum_cons, List.map_cons, List.map_cons, List.sum_cons, List.sum_cons]
    omega

end

/-! ## Nothing inside is missing -/

/-- So many faces that sum to `x` and are as even as they can be, from high to low. -/
def evenFaces (k x : Nat) : List Nat :=
  List.replicate (x % k) (x / k + 1) ++ List.replicate (k - x % k) (x / k)

theorem length_evenFaces {k : Nat} (hk : 1 ≤ k) (x : Nat) : (evenFaces k x).length = k := by
  have hlt := Nat.mod_lt x hk
  rw [evenFaces, List.length_append, List.length_replicate, List.length_replicate]
  omega

theorem sum_evenFaces {k : Nat} (hk : 1 ≤ k) (x : Nat) : (evenFaces k x).sum = x := by
  obtain ⟨rest, hrest⟩ := Nat.exists_eq_add_of_le (Nat.mod_lt x hk).le
  have hdiv := Nat.div_add_mod x k
  rw [evenFaces, List.sum_append, List.sum_replicate_nat, List.sum_replicate_nat]
  calc x % k * (x / k + 1) + (k - x % k) * (x / k)
      = x % k * (x / k + 1) + rest * (x / k) := by rw [Nat.sub_eq_of_eq_add' hrest]
    _ = (x % k + rest) * (x / k) + x % k := by ring
    _ = x := by rw [← hrest, hdiv]

theorem mem_evenFaces {k sides x : Nat} (hk : 1 ≤ k) (hle : k ≤ x) (hge : x ≤ k * sides) :
    ∀ v ∈ evenFaces k x, 1 ≤ v ∧ v ≤ sides := by
  have hdiv := Nat.div_add_mod x k
  have hone : 1 ≤ x / k := Nat.div_pos hle hk
  have hmost : x / k ≤ sides := Nat.div_le_of_le_mul hge
  intro v hv
  rcases List.mem_append.1 hv with hv | hv
  · obtain ⟨hmod, rfl⟩ := List.mem_replicate.1 hv
    have hlt : x / k < sides := Nat.lt_of_mul_lt_mul_left (a := k) (by omega)
    omega
  · rw [List.eq_of_mem_replicate hv]
    exact ⟨hone, hmost⟩

theorem pairwise_evenFaces (k x : Nat) : (evenFaces k x).Pairwise fun v w => w ≤ v := by
  rw [evenFaces, List.pairwise_append]
  refine ⟨?_, ?_, fun v hv w hw => ?_⟩
  · exact List.pairwise_replicate.2 (.inr (Nat.le_refl _))
  · exact List.pairwise_replicate.2 (.inr (Nat.le_refl _))
  · rw [List.eq_of_mem_replicate hv, List.eq_of_mem_replicate hw]
    exact Nat.le_succ _

/-- The same faces in the order in which the mode ranks them. -/
def KeepMode.evenFaces (mode : KeepMode) (k x : Nat) : List Nat :=
  match mode with
  | highest => Dicebag.evenFaces k x
  | lowest => (Dicebag.evenFaces k x).reverse

/-- The face that the mode ranks last. -/
def KeepMode.worstFace (mode : KeepMode) (sides : Nat) : Nat :=
  match mode with
  | highest => 1
  | lowest => sides

/-- `n` faces in the order in which the mode ranks them, of which the first `k` sum to `x`. -/
def KeepMode.rankedFaces (mode : KeepMode) (n sides k x : Nat) : List Nat :=
  mode.evenFaces k x ++ List.replicate (n - k) (mode.worstFace sides)

theorem KeepMode.evenFaces_perm (mode : KeepMode) (k x : Nat) :
    (mode.evenFaces k x).Perm (Dicebag.evenFaces k x) := by
  cases mode with
  | highest => exact .refl _
  | lowest => exact List.reverse_perm _

theorem KeepMode.ranked_evenFaces (mode : KeepMode) (k x : Nat) :
    mode.Ranked (mode.evenFaces k x) := by
  cases mode with
  | highest => exact (pairwise_evenFaces k x).imp fun hle => Int.ofNat_le.2 hle
  | lowest =>
    refine List.pairwise_reverse.2 ((pairwise_evenFaces k x).imp fun hle => ?_)
    exact Int.neg_le_neg (Int.ofNat_le.2 hle)

theorem KeepMode.weigh_worstFace_le (mode : KeepMode) {sides v : Nat} (h : 1 ≤ v ∧ v ≤ sides) :
    mode.weigh (mode.worstFace sides) ≤ mode.weigh v := by
  cases mode <;> simp only [KeepMode.weigh, KeepMode.worstFace] <;> omega

section

variable (mode : KeepMode) {n sides k x : Nat} (hk : 1 ≤ k)

include hk

theorem KeepMode.length_evenFaces : (mode.evenFaces k x).length = k := by
  rw [(mode.evenFaces_perm k x).length_eq, Dicebag.length_evenFaces hk]

theorem length_rankedFaces (hn : k ≤ n) : (mode.rankedFaces n sides k x).length = n := by
  rw [KeepMode.rankedFaces, List.length_append, mode.length_evenFaces hk, List.length_replicate,
    Nat.add_sub_cancel' hn]

theorem sum_take_rankedFaces : ((mode.rankedFaces n sides k x).take k).sum = x := by
  rw [KeepMode.rankedFaces, List.take_left' (mode.length_evenFaces hk),
    (mode.evenFaces_perm k x).sum_eq, sum_evenFaces hk]

variable (hle : k ≤ x) (hge : x ≤ k * sides)

include hle hge

theorem KeepMode.mem_evenFaces : ∀ v ∈ mode.evenFaces k x, 1 ≤ v ∧ v ≤ sides := fun v hv =>
  Dicebag.mem_evenFaces hk hle hge v ((mode.evenFaces_perm k x).mem_iff.1 hv)

theorem mem_rankedFaces : ∀ v ∈ mode.rankedFaces n sides k x, 1 ≤ v ∧ v ≤ sides := by
  have hsides : 1 ≤ sides := by
    refine Nat.pos_of_ne_zero ?_
    rintro rfl
    omega
  intro v hv
  rcases List.mem_append.1 hv with hv | hv
  · exact mode.mem_evenFaces hk hle hge v hv
  · rw [List.eq_of_mem_replicate hv]
    cases mode <;> simp only [KeepMode.worstFace] <;> omega

theorem ranked_rankedFaces : mode.Ranked (mode.rankedFaces n sides k x) := by
  refine List.pairwise_append.2 ⟨mode.ranked_evenFaces k x, ?_, fun v hv w hw => ?_⟩
  · exact List.pairwise_replicate.2 (.inr (Int.le_refl _))
  · rw [List.eq_of_mem_replicate hw]
    exact mode.weigh_worstFace_le (mode.mem_evenFaces hk hle hge v hv)

end

/-- Of faces that come in the order of the ranking, a keep suffix keeps the first few. -/
theorem keptSum_keep_fresh {keep : Keep} {faces : List Nat} (h : keep.mode.Ranked faces)
    (sides : Nat) :
    keptSum ((Rule.keep keep).apply (faces.map (Die.fresh sides))).1 =
      (faces.take keep.amount).sum := by
  refine keptSum_keep_of_ranked keep (kept_of_mem_fresh sides faces) h ?_
  rw [map_value_fresh]

/-- **A throw can show each sum that its dice that count can have.** -/
theorem Throw.exists_share {t : Throw} (ht : t.Sound) (hkept : 1 ≤ t.keptCount) {x : Nat}
    (hle : t.keptCount ≤ x) (hge : x ≤ t.keptCount * t.sides) :
    ∃ share, share.length = t.count ∧ (∀ v ∈ share, 1 ≤ v ∧ v ≤ t.sides) ∧
      keptSum (t.settle share) = x := by
  simp only [Throw.settle]
  cases hrule : t.rule with
  | all =>
    have hcount : t.keptCount = t.count := by rw [Throw.keptCount, hrule]
    rw [hcount] at hkept hle hge
    refine ⟨evenFaces t.count x, length_evenFaces hkept x, mem_evenFaces hkept hle hge, ?_⟩
    show keptSum ((evenFaces t.count x).map _) = x
    rw [keptSum_fresh, sum_evenFaces hkept]
  | keep k =>
    have hcount : t.keptCount = min k.amount t.count := by rw [Throw.keptCount, hrule]
    rw [hcount] at hkept hle hge
    have hlength : (k.mode.rankedFaces t.count t.sides (min k.amount t.count) x).length =
        t.count := length_rankedFaces k.mode hkept (Nat.min_le_right _ _)
    refine ⟨_, hlength, mem_rankedFaces k.mode hkept hle hge, ?_⟩
    rw [keptSum_keep_fresh (ranked_rankedFaces k.mode hkept hle hge), List.take_eq_take_min,
      hlength, sum_take_rankedFaces k.mode hkept]
  | pick mode =>
    have hone : t.keptCount = 1 := by rw [Throw.keptCount, hrule]
    rw [hone, Nat.one_mul] at hge
    rw [hone] at hle
    obtain ⟨hmode, hcount⟩ := ht mode hrule
    obtain ⟨keepMode, hkeepMode⟩ := exists_keepMode hmode
    -- both dice show the same face, so it does not matter which of them is picked
    have hranked : (⟨keepMode, 1⟩ : Keep).mode.Ranked [x, x] :=
      List.pairwise_pair.2 (Int.le_refl _)
    refine ⟨[x, x], hcount.symm, by simp [hle, hge], ?_⟩
    rw [List.map_cons, List.map_cons, List.map_nil, pick_eq_keep_one hkeepMode]
    exact keptSum_keep_fresh hranked t.sides

/-- A throw can have each score between its least and its most. -/
theorem Throw.exists_share_of_score {t : Throw} (ht : t.Sound) (hkept : 1 ≤ t.keptCount) {x : Int}
    (hle : t.sign.leastScore t.keptCount t.sides ≤ x)
    (hge : x ≤ t.sign.greatestScore t.keptCount t.sides) :
    ∃ share, share.length = t.count ∧ (∀ v ∈ share, 1 ≤ v ∧ v ≤ t.sides) ∧
      t.score (t.settle share) = x := by
  -- without its sign, the score is the sum of the dice that count
  have hmem : t.keptCount ≤ x.natAbs ∧ x.natAbs ≤ t.keptCount * t.sides ∧
      t.sign.apply x.natAbs = x := by
    cases hsign : t.sign <;> rw [hsign] at hle hge <;>
      simp only [Sign.leastScore, Sign.greatestScore, Sign.apply] at hle hge ⊢ <;> omega
  obtain ⟨share, hlength, hfaces, hsum⟩ := Throw.exists_share ht hkept hmem.1 hmem.2.1
  exact ⟨share, hlength, hfaces, by rw [Throw.score, hsum, hmem.2.2]⟩

/-- What two parts can come to together is divided between them, the first taking as much of it as
it can. -/
theorem exists_divided {least most least' most' x : Int} (h : least ≤ most) (h' : least' ≤ most')
    (hle : least + least' ≤ x) (hge : x ≤ most + most') :
    ∃ y, (least ≤ y ∧ y ≤ most) ∧ least' ≤ x - y ∧ x - y ≤ most' :=
  ⟨min most (x - least'), by omega, by omega⟩

theorem leastScore_le_greatestScore (sign : Sign) {kept sides : Nat} (hsides : 1 ≤ sides) :
    sign.leastScore kept sides ≤ sign.greatestScore kept sides := by
  have hle : kept ≤ kept * sides := Nat.le_mul_of_pos_right kept hsides
  cases sign <;> simp only [Sign.leastScore, Sign.greatestScore] <;> omega

theorem sum_leastScore_le {ts : List Throw} (hts : ∀ t ∈ ts, 1 ≤ t.sides) :
    (ts.map fun t => t.sign.leastScore t.keptCount t.sides).sum ≤
      (ts.map fun t => t.sign.greatestScore t.keptCount t.sides).sum := by
  refine List.sum_le_sum fun t ht => ?_
  exact leastScore_le_greatestScore t.sign (hts t ht)

/-- **Throws can have each score together that lies between their least and their most.** -/
theorem exists_faces_scoreSum {ts : List Throw} (hsound : ∀ t ∈ ts, t.Sound)
    (hkept : ∀ t ∈ ts, 1 ≤ t.keptCount) (hsides : ∀ t ∈ ts, 1 ≤ t.sides) {x : Int}
    (hle : (ts.map fun t => t.sign.leastScore t.keptCount t.sides).sum ≤ x)
    (hge : x ≤ (ts.map fun t => t.sign.greatestScore t.keptCount t.sides).sum) :
    ∃ faces, List.Forall₂ (fun sides value => 1 ≤ value ∧ value ≤ sides)
        (ts.flatMap Throw.sizes) faces ∧ scoreSum ts (deal ts faces) = x := by
  induction ts generalizing x with
  | nil => exact ⟨[], .nil, Int.le_antisymm hle hge⟩
  | cons t ts ih =>
    obtain ⟨htsound, hsound⟩ := List.forall_mem_cons.1 hsound
    obtain ⟨htkept, hkept⟩ := List.forall_mem_cons.1 hkept
    obtain ⟨htsides, hsides⟩ := List.forall_mem_cons.1 hsides
    rw [List.map_cons, List.sum_cons] at hle hge
    obtain ⟨y, ⟨hley, hgey⟩, hlerest, hgerest⟩ := exists_divided
      (leastScore_le_greatestScore t.sign htsides) (sum_leastScore_le hsides) hle hge
    obtain ⟨share, hlength, hshare, hscore⟩ := t.exists_share_of_score htsound htkept hley hgey
    obtain ⟨rest, hrest, hscores⟩ := ih hsound hkept hsides hlerest hgerest
    have hsizes : List.Forall₂ (fun sides value => 1 ≤ value ∧ value ≤ sides) t.sizes share := by
      rw [Throw.sizes, ← hlength, ← List.map_const', List.forall₂_map_left_iff, List.forall₂_same]
      exact hshare
    refine ⟨share ++ rest, List.rel_append hsizes hrest, ?_⟩
    rw [deal, List.take_left' hlength, List.drop_left' hlength, scoreSum_cons, hscore, hscores]
    omega

/-! ## The sums on the way -/

/-- What the first few groups come to that these are the pools of. -/
def Formula.subtotalOf (f : Formula) (pools : List (List Die)) : Int :=
  (List.zipWith (fun (g : Group) pool => g.sign.apply (keptSum pool)) f.groups pools).sum

/-- Every sum that is made on the way to the subtotal of a roll is a total. -/
structure Formula.SumsInRange (f : Formula) (r : Roll) : Prop where
  /-- The dice of a group that count are added one after another. -/
  dice : ∀ pool ∈ r.pools, ∀ n, Total.InRange (keptSum (pool.take n))
  /-- What they come to is given the sign of the group. -/
  signed : ∀ pool ∈ r.pools, ∀ sign : Sign, Total.InRange (sign.apply (keptSum pool))
  /-- The groups are added one after another. -/
  groups : ∀ n, Total.InRange (f.subtotalOf (r.pools.take n))
  /-- The last of these sums is the subtotal. -/
  last : r.subtotal = f.subtotalOf r.pools

theorem scoreSum_eq_subtotalOf (f : Formula) (mode : Mode) (pools : List (List Die)) :
    scoreSum (f.throws mode) pools = f.subtotalOf pools := by
  rw [scoreSum, zipWith_score_throws]
  rfl

section

variable {σ : Type} [Roller σ]

theorem sumsInRange_outcome {f : Formula} (hf : f.Playable) (hlength : f.groups.length ≤ 2 ^ 40)
    {mode : Mode} (modifier : Int) {roller after : σ} {faces : List Nat}
    (h : Deals roller (f.sizes mode) faces after) :
    f.SumsInRange (f.outcome mode modifier faces) := by
  have hmost : ∀ pool ∈ (f.outcome mode modifier faces).pools,
      keptSum pool ≤ Total.greatest.toNat := by
    intro pool hpool
    rw [Formula.pools_outcome] at hpool
    exact (Formula.keptSum_le_of_mem_pools hf h pool hpool).trans (by decide)
  refine
    { dice := fun pool hpool n => inRange_of_natAbs_le ?_
      signed := fun pool hpool sign => inRange_of_natAbs_le ?_
      groups := fun n => ?_
      last := ?_ }
  · exact (keptSum_take_le pool n).trans (hmost pool hpool)
  · rw [natAbs_apply]
    exact hmost pool hpool
  · rw [Formula.pools_outcome, ← scoreSum_eq_subtotalOf f mode]
    exact Formula.scoreSum_take_inRange hf hlength h n
  · rw [Formula.pools_outcome, ← scoreSum_eq_subtotalOf f mode]
    rfl

/-! ## The interval -/

theorem subtotal_outcome_mem {f : Formula} (hf : f.Playable) {mode : Mode} (modifier : Int)
    {roller after : σ} {faces : List Nat} (h : Deals roller (f.sizes mode) faces after) :
    f.leastSubtotal ≤ (f.outcome mode modifier faces).subtotal ∧
      (f.outcome mode modifier faces).subtotal ≤ f.greatestSubtotal := by
  rw [← Formula.flatMap_sizes_throws] at h
  rw [leastSubtotal_eq, greatestSubtotal_eq, ← sum_map_throws hf mode Sign.leastScore,
    ← sum_map_throws hf mode Sign.greatestScore]
  exact scoreSum_mem (sound_throws f mode) h

end

/-- The throws of a playable formula are of dice with sides, and some of them count. -/
theorem kept_and_sides_throws {f : Formula} (hf : f.Playable) (mode : Mode) :
    ∀ t ∈ f.throws mode, 1 ≤ t.keptCount ∧ 1 ≤ t.sides := by
  intro t ht
  rw [Formula.throws_eq] at ht
  obtain ⟨⟨g, place⟩, hg, rfl⟩ := List.mem_map.1 ht
  have hplayable : g.Playable := hf g (List.fst_mem_of_mem_zipIdx hg)
  have hkept : 1 ≤ g.keptCount := by
    rw [Group.keptCount]
    cases hkeep : g.keep with
    | none => exact hplayable.count.1
    | some k => exact (hplayable.keep k hkeep).1
  have hsides : 1 ≤ g.sides := Nat.le_trans (by decide) hplayable.sides.1
  exact ⟨by rwa [keptCount_throwAt hplayable hg], by rwa [Formula.sides_throwAt]⟩

theorem exists_faces_subtotal {f : Formula} (hf : f.Playable) (mode : Mode) (modifier : Int)
    {x : Int} (hle : f.leastSubtotal ≤ x) (hge : x ≤ f.greatestSubtotal) :
    ∃ faces, Deals (⟨faces⟩ : Script) (f.sizes mode) faces ⟨[]⟩ ∧
      (f.outcome mode modifier faces).subtotal = x := by
  rw [leastSubtotal_eq, ← sum_map_throws hf mode Sign.leastScore] at hle
  rw [greatestSubtotal_eq, ← sum_map_throws hf mode Sign.greatestScore] at hge
  have hthrows := kept_and_sides_throws hf mode
  obtain ⟨faces, hfaces, hsum⟩ := exists_faces_scoreSum (sound_throws f mode)
    (fun t ht => (hthrows t ht).1) (fun t ht => (hthrows t ht).2) hle hge
  rw [Formula.flatMap_sizes_throws] at hfaces
  have hdeals := Deals.script hfaces []
  rw [List.append_nil] at hdeals
  exact ⟨faces, hdeals, hsum⟩

/-- Some roller that deals faces for the dice of the formula brings the roll to this subtotal. -/
def Formula.Attains (f : Formula) (mode : Mode) (modifier x : Int) : Prop :=
  ∃ (σ : Type) (_ : Roller σ) (roller after : σ) (faces : List Nat) (r : Roll) (log : List Event),
    Deals roller (f.sizes mode) faces after ∧
      (f.roll mode modifier).run roller = ⟨.ok r, log, after⟩ ∧ r.subtotal = x

/-- **The subtotals that can be reached are the numbers between the ends.**  Whatever the mode and
the modifier, every roller that deals faces for the dice brings the roll to a result, all sums on
the way to its subtotal are totals, and the subtotals that come of it are exactly the numbers from
the least to the greatest. -/
theorem roll_attains_interval {f : Formula} (hf : f.Available) (hlength : f.groups.length ≤ 2 ^ 40)
    (mode : Mode) (modifier : Int) :
    (∀ {σ : Type} [Roller σ] (roller after : σ) (faces : List Nat),
      Deals roller (f.sizes mode) faces after →
        ∃ r log, (f.roll mode modifier).run roller = ⟨.ok r, log, after⟩ ∧ f.SumsInRange r) ∧
    ∀ x, f.Attains mode modifier x ↔ f.leastSubtotal ≤ x ∧ x ≤ f.greatestSubtotal := by
  have hplayable := hf.playable
  refine ⟨fun roller after faces h => ⟨_, _, Formula.run_roll hplayable hlength modifier h,
    sumsInRange_outcome hplayable hlength modifier h⟩, fun x => ⟨?_, fun hx => ?_⟩⟩
  · rintro ⟨σ, _, roller, after, faces, r, log, h, hrun, rfl⟩
    rw [Formula.run_roll hplayable hlength modifier h, Aftermath.mk.injEq, Except.ok.injEq] at hrun
    rw [← hrun.1]
    exact subtotal_outcome_mem hplayable modifier h
  · obtain ⟨faces, h, hsubtotal⟩ := exists_faces_subtotal hplayable mode modifier hx.1 hx.2
    exact ⟨Script, inferInstance, ⟨faces⟩, ⟨[]⟩, faces, _, _, h,
      Formula.run_roll hplayable hlength modifier h, hsubtotal⟩

/-- With advantage, six dice of `4d6kh3+1d20-2d4+5` count; they come to `-4` at least and to `36` at
most, and to all that lies between. -/
theorem roll_attains_interval_mixed :
    Formula.mixed.Available ∧ Formula.mixed.groups.length ≤ 2 ^ 40 ∧
      ∀ x, Formula.mixed.Attains .advantage 2 x ↔ -4 ≤ x ∧ x ≤ 36 := by
  have hlength : Formula.mixed.groups.length ≤ 2 ^ 40 := by decide
  have hleast : Formula.mixed.leastSubtotal = -4 := by decide
  have hgreatest : Formula.mixed.greatestSubtotal = 36 := by decide
  have hinterval := (roll_attains_interval available_mixed hlength .advantage 2).2
  rw [hleast, hgreatest] at hinterval
  exact ⟨available_mixed, hlength, hinterval⟩

end Dicebag
