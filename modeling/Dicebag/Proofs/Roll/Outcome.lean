import Dicebag.Proofs.Formula.Available
import Dicebag.Proofs.Roll.Dealing
import Dicebag.Proofs.Rule.Kept

/-!
# What a roll comes to

The dice of a formula are thrown group by group into one row, while the places of each group are
written down and a running sum is kept that must never leave its range.  This module says in closed
form what is on the table at the end.

* `deal` gives each throw its share of the faces and settles it; `lay` says where pools lie that are
  put down one behind the other; `scoreSum` adds up what they score.
* `run_rollThrows` is the loop: whatever lies in the row already and whatever the subtotal is, the
  table afterwards is made of these three.  The invariant that carries it is that the subtotal keeps
  room for the throws that are still to come.
* `Formula.outcome` is the whole roll, and `Formula.run_roll` says that the roll gives it, for every
  roller that deals the faces and every formula whose groups are `Playable`.
-/

set_option autoImplicit false

namespace Dicebag

variable {σ : Type} [Roller σ]

/-! ## Pools in a row -/

/-- Stretches that lie one behind the other, without gaps: the first begins at the one place, and
the last ends at the other. -/
inductive Tiles : Nat → List Stretch → Nat → Prop
  /-- Nothing to cover. -/
  | nil (place : Nat) : Tiles place [] place
  /-- One stretch, and the others from where it ends. -/
  | cons {start mid stop : Nat} {stretches : List Stretch} (le : start ≤ mid)
      (rest : Tiles mid stretches stop) : Tiles start (⟨start, mid⟩ :: stretches) stop

/-- Where pools lie that are put down one behind the other, the first of them at `start`. -/
def lay (start : Nat) : List (List Die) → List Stretch
  | [] => []
  | pool :: pools => ⟨start, start + pool.length⟩ :: lay (start + pool.length) pools

theorem length_lay (start : Nat) (pools : List (List Die)) :
    (lay start pools).length = pools.length := by
  induction pools generalizing start with
  | nil => rfl
  | cons pool pools ih => rw [lay, List.length_cons, List.length_cons, ih]

theorem tiles_lay (start : Nat) (pools : List (List Die)) :
    Tiles start (lay start pools) (start + pools.flatten.length) := by
  induction pools generalizing start with
  | nil => exact .nil start
  | cons pool pools ih =>
    have hrest := ih (start + pool.length)
    rw [Nat.add_assoc, ← List.length_append] at hrest
    exact .cons (Nat.le_add_right _ _) hrest

theorem map_length_lay (start : Nat) (pools : List (List Die)) :
    (lay start pools).map Stretch.length = pools.map List.length := by
  induction pools generalizing start with
  | nil => rfl
  | cons pool pools ih =>
    have hlength : Stretch.length ⟨start, start + pool.length⟩ = pool.length :=
      Nat.add_sub_cancel_left start pool.length
    rw [lay, List.map_cons, List.map_cons, ih, hlength]

/-- **The stretches of a row of pools cut it back into the pools.** -/
theorem map_cut_lay {start : Nat} {pools : List (List Die)} {row : List Die}
    (h : row.drop start = pools.flatten) :
    (lay start pools).map (fun s => s.cut row) = pools := by
  induction pools generalizing start with
  | nil => rfl
  | cons pool pools ih =>
    rw [List.flatten_cons] at h
    have hcut : Stretch.cut ⟨start, start + pool.length⟩ row = pool := by
      rw [Stretch.cut, Stretch.length, Nat.add_sub_cancel_left, h]
      exact List.take_left
    have hdrop : row.drop (start + pool.length) = pools.flatten := by
      rw [← List.drop_drop, h]
      exact List.drop_left
    rw [lay, List.map_cons, hcut, ih hdrop]

/-! ## Settling throws -/

/-- The sizes of the dice of a throw. -/
def Throw.sizes (t : Throw) : List Nat := List.replicate t.count t.sides

theorem Throw.length_sizes (t : Throw) : t.sizes.length = t.count := List.length_replicate

/-- What a pool adds to the subtotal. -/
def Throw.score (t : Throw) (pool : List Die) : Int := t.sign.apply (keptSum pool)

/-- The pools that throws put on the table, each taking its share of the faces. -/
def deal : List Throw → List Nat → List (List Die)
  | [], _ => []
  | t :: ts, faces => t.settle (faces.take t.count) :: deal ts (faces.drop t.count)

/-- What throws leave in the log. -/
def dealEvents : List Throw → List Nat → List Event
  | [], _ => []
  | t :: ts, faces => t.events (faces.take t.count) ++ dealEvents ts (faces.drop t.count)

/-- What the pools of throws score together. -/
def scoreSum (ts : List Throw) (pools : List (List Die)) : Int :=
  (List.zipWith Throw.score ts pools).sum

theorem scoreSum_cons (t : Throw) (ts : List Throw) (pool : List Die) (pools : List (List Die)) :
    scoreSum (t :: ts) (pool :: pools) = t.score pool + scoreSum ts pools := List.sum_cons

theorem Throw.length_settle (t : Throw) (faces : List Nat) :
    (t.settle faces).length = faces.length := by
  rw [Throw.settle, Rule.length_apply, List.length_map]

theorem Throw.map_face_settle (t : Throw) (faces : List Nat) :
    (t.settle faces).map Die.face = faces.map fun value => (t.sides, value) := by
  rw [Throw.settle, Rule.map_face_apply, List.map_map]
  rfl

theorem keptSum_fresh (sides : Nat) (faces : List Nat) :
    keptSum (faces.map (Die.fresh sides)) = faces.sum := by
  rw [keptSum_eq, List.filter_eq_self.2 (kept_of_mem_fresh sides faces), map_value_fresh]

/-- The dice of a throw have its size, and show the faces that they were dealt. -/
theorem face_of_mem_settle {t : Throw} {share : List Nat} {d : Die} (hd : d ∈ t.settle share) :
    d.sides = t.sides ∧ d.value ∈ share := by
  have hface : d.face ∈ share.map fun value => (t.sides, value) := by
    rw [← t.map_face_settle share]
    exact List.mem_map_of_mem hd
  obtain ⟨value, hvalue, heq⟩ := List.mem_map.1 hface
  obtain ⟨hsides, rfl⟩ := Prod.mk.inj heq
  exact ⟨hsides.symm, hvalue⟩

/-- The first throw takes as many faces as it has dice, and leaves as many as the others have. -/
theorem length_share {t : Throw} {ts : List Throw} {faces : List Nat}
    (h : faces.length = ((t :: ts).flatMap Throw.sizes).length) :
    (faces.take t.count).length = t.count ∧
      (faces.drop t.count).length = (ts.flatMap Throw.sizes).length := by
  rw [List.flatMap_cons, List.length_append, t.length_sizes] at h
  rw [List.length_take, List.length_drop]
  omega

/-- A throw shows faces of its dice. -/
theorem Throw.face_mem {t : Throw} {roller after : σ} {share : List Nat}
    (h : Deals roller t.sizes share after) : ∀ value ∈ share, 1 ≤ value ∧ value ≤ t.sides :=
  Deals.face_mem h fun _ hsides => Nat.le_of_eq (List.eq_of_mem_replicate hsides)

/-- The first throw is dealt its share, and the others what is left. -/
theorem deals_cons_iff {t : Throw} {ts : List Throw} {roller after : σ} {faces : List Nat} :
    Deals roller ((t :: ts).flatMap Throw.sizes) faces after ↔
      ∃ mid, Deals roller t.sizes (faces.take t.count) mid ∧
        Deals mid (ts.flatMap Throw.sizes) (faces.drop t.count) after := by
  rw [List.flatMap_cons, Deals.append_iff, t.length_sizes]

theorem length_deal (ts : List Throw) (faces : List Nat) : (deal ts faces).length = ts.length := by
  induction ts generalizing faces with
  | nil => rfl
  | cons t ts ih => rw [deal, List.length_cons, List.length_cons, ih]

/-! ## The running sum -/

theorem keptSum_settle_le {t : Throw} {roller after : σ} {faces : List Nat}
    (h : Deals roller t.sizes faces after) : keptSum (t.settle faces) ≤ t.count * t.sides := by
  have hfresh : ∀ d ∈ faces.map (Die.fresh t.sides), d.value ≤ t.sides := by
    intro d hd
    obtain ⟨value, hvalue, rfl⟩ := List.mem_map.1 hd
    exact (t.face_mem h value hvalue).2
  have hle : keptSum (t.settle faces) ≤ (t.settle faces).length * t.sides :=
    keptSum_le (Rule.value_le_of_mem_apply hfresh)
  rwa [t.length_settle, h.length_eq, t.length_sizes] at hle

theorem natAbs_apply (sign : Sign) (x : Int) : (sign.apply x).natAbs = x.natAbs := by
  cases sign with
  | plus => rfl
  | minus => exact Int.natAbs_neg x

theorem natAbs_score (t : Throw) (pool : List Die) : (t.score pool).natAbs = keptSum pool :=
  natAbs_apply t.sign (keptSum pool)

theorem inRange_of_natAbs_le {x : Int} (h : x.natAbs ≤ Total.greatest.toNat) : Total.InRange x := by
  have hgreatest : Total.greatest.toNat = 9223372036854775807 := rfl
  rw [Total.InRange, Total.least, Total.greatest]
  omega

theorem ofInt?_of_natAbs_le {x : Int} (h : x.natAbs ≤ Total.greatest.toNat) :
    Total.ofInt? x = some x :=
  Total.ofInt?_eq_some_iff.2 ⟨inRange_of_natAbs_le h, rfl⟩

/-- The running sum goes on as long as there is room for what is added. -/
theorem addTo?_eq_some {t : Throw} {subtotal : Int} {pool : List Die}
    (h : subtotal.natAbs + keptSum pool ≤ Total.greatest.toNat) :
    t.addTo? subtotal pool = some (subtotal + t.score pool) := by
  have hscore := natAbs_score t pool
  have hsum : Total.ofInt? (keptSum pool) = some (keptSum pool : Int) :=
    ofInt?_of_natAbs_le (by omega)
  have hsign : t.sign.total? (keptSum pool) = some (t.score pool) :=
    ofInt?_of_natAbs_le (by rw [← Throw.score]; omega)
  have htotal : Total.ofInt? (subtotal + t.score pool) = some (subtotal + t.score pool) :=
    ofInt?_of_natAbs_le (by omega)
  rw [Throw.addTo?, hsum, Option.bind_eq_bind, Option.bind_some, hsign, Option.bind_some, htotal]

/-- If there is room for a throw and for others after it, then the throw can be counted, and there
is room for the others still. -/
theorem addTo?_settle {t : Throw} {n most : Nat} {subtotal : Int} {roller after : σ}
    {share : List Nat} (ht : t.count * t.sides ≤ most)
    (hroom : subtotal.natAbs + (n + 1) * most ≤ Total.greatest.toNat)
    (h : Deals roller t.sizes share after) :
    t.addTo? subtotal (t.settle share) = some (subtotal + t.score (t.settle share)) ∧
      (subtotal + t.score (t.settle share)).natAbs + n * most ≤ Total.greatest.toNat := by
  rw [Nat.add_mul, Nat.one_mul] at hroom
  have hpool := keptSum_settle_le h
  have hscore := natAbs_score t (t.settle share)
  exact ⟨addTo?_eq_some (by omega), by omega⟩

/-- No pool comes to more than its throw allows. -/
theorem keptSum_le_of_mem_deal {ts : List Throw} {most : Nat} {roller after : σ} {faces : List Nat}
    (hmost : ∀ t ∈ ts, t.count * t.sides ≤ most)
    (h : Deals roller (ts.flatMap Throw.sizes) faces after) :
    ∀ pool ∈ deal ts faces, keptSum pool ≤ most := by
  induction ts generalizing roller faces with
  | nil => exact List.forall_mem_nil _
  | cons t ts ih =>
    obtain ⟨mid, hfirst, hrest⟩ := deals_cons_iff.1 h
    obtain ⟨ht, hts⟩ := List.forall_mem_cons.1 hmost
    exact List.forall_mem_cons.2 ⟨Nat.le_trans (keptSum_settle_le hfirst) ht, ih hts hrest⟩

/-- What pools score together is no more than the most of each allows. -/
theorem natAbs_scoreSum_le {pools : List (List Die)} {most : Nat}
    (hmost : ∀ pool ∈ pools, keptSum pool ≤ most) (ts : List Throw) :
    (scoreSum ts pools).natAbs ≤ pools.length * most := by
  induction pools generalizing ts with
  | nil =>
    rw [scoreSum, List.zipWith_nil_right]
    exact Nat.zero_le _
  | cons pool pools ih =>
    obtain ⟨hpool, hpools⟩ := List.forall_mem_cons.1 hmost
    cases ts with
    | nil => exact Nat.zero_le _
    | cons t ts =>
      have hscore := natAbs_score t pool
      have hscores := ih hpools ts
      rw [scoreSum_cons, List.length_cons, Nat.add_mul, Nat.one_mul]
      omega

/-! ## Rolling throws -/

/-- **The throws put their pools down one behind the other and add up what they score**, wherever
they start and whatever the subtotal is, if it leaves room for all of them. -/
theorem run_rollThrows {ts : List Throw} {most start : Nat} {subtotal : Int} {roller after : σ}
    {faces : List Nat} (hmost : ∀ t ∈ ts, t.count * t.sides ≤ most)
    (hroom : subtotal.natAbs + ts.length * most ≤ Total.greatest.toNat)
    (h : Deals roller (ts.flatMap Throw.sizes) faces after) :
    (rollThrows start subtotal ts).run roller =
      ⟨.ok ⟨(deal ts faces).flatten, lay start (deal ts faces),
        subtotal + scoreSum ts (deal ts faces)⟩, dealEvents ts faces, after⟩ := by
  induction ts generalizing start subtotal roller faces with
  | nil =>
    cases h
    rw [rollThrows, Rolling.run_pure, scoreSum, List.zipWith_nil_left, List.sum_nil, Int.add_zero]
    rfl
  | cons t ts ih =>
    obtain ⟨mid, hfirst, hrest⟩ := deals_cons_iff.1 h
    obtain ⟨ht, hts⟩ := List.forall_mem_cons.1 hmost
    -- the room splits into what this throw may take and what the others may
    obtain ⟨hadd, hroom⟩ := addTo?_settle ht hroom hfirst
    rw [rollThrows, Rolling.run_bind_of_run (Throw.run_roll hfirst), hadd]
    have hrun : (rollThrows (start + (t.settle (faces.take t.count)).length)
        (subtotal + t.score (t.settle (faces.take t.count))) ts).run mid = _ :=
      ih hts hroom hrest
    simp only [Rolling.run_map, hrun]
    rw [deal, scoreSum_cons, ← Int.add_assoc]
    rfl

/-! ## The dice of a formula -/

namespace Formula

/-- How many dice a group throws: its own, and one more if it is the first lone d20 and the mode is
not normal. -/
def diceThrown (f : Formula) (mode : Mode) (place : Nat) (g : Group) : Nat :=
  g.count + if mode ≠ .normal ∧ f.advantageGroup = some place then 1 else 0

/-- The sizes of the dice that a roll asks for, in order. -/
def sizes (f : Formula) (mode : Mode) : List Nat :=
  f.groups.zipIdx.flatMap fun (g, i) => List.replicate (f.diceThrown mode i g) g.sides

theorem modeGroup_eq_some_iff {f : Formula} {mode : Mode} {place : Nat} :
    f.modeGroup mode = some place ↔ mode ≠ .normal ∧ f.advantageGroup = some place := by
  rw [modeGroup]
  by_cases hmode : mode = .normal
  · simp [hmode]
  · simp [hmode]

/-- The throw of the group at a place. -/
def throwAt (f : Formula) (mode : Mode) (place : Nat) (g : Group) : Throw :=
  if f.modeGroup mode = some place then g.twinThrow mode else g.throw

theorem throws_eq (f : Formula) (mode : Mode) :
    f.throws mode = f.groups.zipIdx.map fun (g, i) => f.throwAt mode i g := rfl

theorem length_throws (f : Formula) (mode : Mode) : (f.throws mode).length = f.groups.length := by
  rw [throws_eq, List.length_map, List.length_zipIdx]

theorem count_throwAt (f : Formula) (mode : Mode) (place : Nat) (g : Group) :
    (f.throwAt mode place g).count = f.diceThrown mode place g := by
  rw [throwAt, diceThrown]
  by_cases hplace : f.modeGroup mode = some place
  · rw [if_pos hplace, if_pos (modeGroup_eq_some_iff.1 hplace), Group.twinThrow]
  · rw [if_neg hplace, if_neg fun h => hplace (modeGroup_eq_some_iff.2 h), Group.throw,
      Nat.add_zero]

theorem sides_throwAt (f : Formula) (mode : Mode) (place : Nat) (g : Group) :
    (f.throwAt mode place g).sides = g.sides := by
  rw [throwAt]
  split <;> rfl

theorem sign_throwAt (f : Formula) (mode : Mode) (place : Nat) (g : Group) :
    (f.throwAt mode place g).sign = g.sign := by
  rw [throwAt]
  split <;> rfl

theorem throwAt_normal (f : Formula) (place : Nat) (g : Group) :
    f.throwAt .normal place g = g.throw := if_neg fun h => (modeGroup_eq_some_iff.1 h).1 rfl

theorem flatMap_sizes_throws (f : Formula) (mode : Mode) :
    (f.throws mode).flatMap Throw.sizes = f.sizes mode := by
  rw [throws_eq, List.flatMap_map, sizes]
  refine List.flatMap_congr fun p _ => ?_
  rw [Throw.sizes, count_throwAt, sides_throwAt]

/-- The most that a single throw of a playable formula can come to. -/
def throwLimit : Nat := (2 * Group.maxCount + 1) * Group.maxSides

theorem diceThrown_le {f : Formula} {mode : Mode} {place : Nat} {g : Group} (hg : g.Playable) :
    f.diceThrown mode place g ≤ 2 * Group.maxCount + 1 := by
  have hcount := hg.count.2
  rw [diceThrown]
  split <;> omega

theorem throw_le_throwLimit {f : Formula} {mode : Mode} (hf : f.Playable) :
    ∀ t ∈ f.throws mode, t.count * t.sides ≤ throwLimit := by
  intro t ht
  rw [throws_eq] at ht
  obtain ⟨⟨g, place⟩, hmem, rfl⟩ := List.mem_map.1 ht
  have hg : g.Playable := hf g (List.fst_mem_of_mem_zipIdx hmem)
  show (f.throwAt mode place g).count * (f.throwAt mode place g).sides ≤ throwLimit
  rw [count_throwAt, sides_throwAt]
  exact Nat.mul_le_mul (diceThrown_le hg) hg.sides.2

theorem throws_le_greatest {f : Formula} (hlength : f.groups.length ≤ 2 ^ 40) (mode : Mode) :
    (f.throws mode).length * throwLimit ≤ Total.greatest.toNat := by
  have hlimit : throwLimit = 201000 := rfl
  have hgreatest : Total.greatest.toNat = 9223372036854775807 := rfl
  rw [length_throws, hlimit]
  omega

/-! ## The roll -/

/-- The pools of a roll that shows these faces, in the order of the groups. -/
def pools (f : Formula) (mode : Mode) (faces : List Nat) : List (List Die) :=
  deal (f.throws mode) faces

/-- What is on the table at the end of a roll that shows these faces. -/
def table (f : Formula) (mode : Mode) (faces : List Nat) : Table :=
  ⟨(f.pools mode faces).flatten, lay 0 (f.pools mode faces),
    scoreSum (f.throws mode) (f.pools mode faces)⟩

/-- What comes of a roll that shows these faces. -/
def outcome (f : Formula) (mode : Mode) (modifier : Int) (faces : List Nat) : Roll :=
  .ofTable f mode modifier (f.table mode faces)

/-- What a roll that shows these faces leaves in the log. -/
def rollEvents (f : Formula) (mode : Mode) (modifier : Int) (faces : List Nat) : List Event :=
  let r := f.outcome mode modifier faces
  dealEvents (f.throws mode) faces ++
    [.rolledFormula f mode modifier r.dice.length r.subtotal r.total]

/-- **A playable formula is rolled to its outcome** by every roller that deals it faces, and the
roller is left as the dealing leaves it. -/
theorem run_roll {f : Formula} (hf : f.Playable) (hlength : f.groups.length ≤ 2 ^ 40) {mode : Mode}
    (modifier : Int) {roller after : σ} {faces : List Nat}
    (h : Deals roller (f.sizes mode) faces after) :
    (f.roll mode modifier).run roller =
      ⟨.ok (f.outcome mode modifier faces), f.rollEvents mode modifier faces, after⟩ := by
  have hroom : (0 : Int).natAbs + (f.throws mode).length * throwLimit ≤ Total.greatest.toNat := by
    rw [Int.natAbs_zero, Nat.zero_add]
    exact throws_le_greatest hlength mode
  rw [← flatMap_sizes_throws] at h
  have hthrows : (rollThrows 0 0 (f.throws mode)).run roller =
      ⟨.ok (f.table mode faces), dealEvents (f.throws mode) faces, after⟩ := by
    rw [run_rollThrows (throw_le_throwLimit hf) hroom h, Int.zero_add]
    rfl
  rw [Formula.roll, Rolling.run_bind_of_run hthrows]
  rw [Rolling.run_bind_of_run (Rolling.run_record _ after), Rolling.run_pure]
  rfl

/-- The dice that a playable formula asks for have sides. -/
theorem sides_pos_of_mem_sizes {f : Formula} (hf : f.Playable) (mode : Mode) :
    ∀ sides ∈ f.sizes mode, 1 ≤ sides := by
  intro sides hsides
  obtain ⟨p, hp, hmem⟩ := List.mem_flatMap.1 hsides
  rw [List.eq_of_mem_replicate hmem]
  exact Nat.le_trans (by decide) (hf p.1 (List.fst_mem_of_mem_zipIdx hp)).sides.1

/-- **A counter rolls every playable formula to its outcome**, and grows by one step for each die. -/
theorem run_roll_counter {f : Formula} (hf : f.Playable) (hlength : f.groups.length ≤ 2 ^ 40)
    (mode : Mode) (modifier : Int) (counter : Counter) :
    (f.roll mode modifier).run counter =
      ⟨.ok (f.outcome mode modifier (counter.faces (f.sizes mode))),
        f.rollEvents mode modifier (counter.faces (f.sizes mode)),
        counter.after (f.sizes mode).length⟩ :=
  run_roll hf hlength modifier (counter.deals (sides_pos_of_mem_sizes hf mode))

/-- No pool of a playable formula comes to more than a single throw can. -/
theorem keptSum_le_of_mem_pools {f : Formula} (hf : f.Playable) {mode : Mode} {roller after : σ}
    {faces : List Nat} (h : Deals roller (f.sizes mode) faces after) :
    ∀ pool ∈ f.pools mode faces, keptSum pool ≤ throwLimit := by
  rw [← flatMap_sizes_throws] at h
  exact keptSum_le_of_mem_deal (throw_le_throwLimit hf) h

/-- **However many groups of a roll are counted, their sum is a total.** -/
theorem scoreSum_take_inRange {f : Formula} (hf : f.Playable) (hlength : f.groups.length ≤ 2 ^ 40)
    {mode : Mode} {roller after : σ} {faces : List Nat}
    (h : Deals roller (f.sizes mode) faces after) (n : Nat) :
    Total.InRange (scoreSum (f.throws mode) ((f.pools mode faces).take n)) := by
  have hpools : ∀ pool ∈ (f.pools mode faces).take n, keptSum pool ≤ throwLimit := fun pool hpool =>
    keptSum_le_of_mem_pools hf h pool (List.mem_of_mem_take hpool)
  have hle : ((f.pools mode faces).take n).length ≤ (f.throws mode).length := by
    rw [← length_deal (f.throws mode) faces]
    exact List.length_take_le' n _
  exact inRange_of_natAbs_le (((natAbs_scoreSum_le hpools (f.throws mode)).trans
    (Nat.mul_le_mul_right throwLimit hle)).trans (throws_le_greatest hlength mode))

theorem subtotal_inRange {f : Formula} (hf : f.Playable) (hlength : f.groups.length ≤ 2 ^ 40)
    {mode : Mode} (modifier : Int) {roller after : σ} {faces : List Nat}
    (h : Deals roller (f.sizes mode) faces after) :
    Total.InRange (f.outcome mode modifier faces).subtotal := by
  have hall := scoreSum_take_inRange hf hlength h (f.pools mode faces).length
  rwa [List.take_length] at hall

/-- The stretches of a roll cut its dice into its pools. -/
theorem pools_outcome (f : Formula) (mode : Mode) (modifier : Int) (faces : List Nat) :
    (f.outcome mode modifier faces).pools = f.pools mode faces :=
  map_cut_lay List.drop_zero

end Formula
end Dicebag
