import Dicebag.Proofs.Roll.Joined
import Dicebag.Proofs.Roll.Stopping
import Dicebag.Proofs.Rule.Ranking

/-!
# The log of a roll

A roll logs every die as it lands, then every die that its group sets aside, and when all groups are
done a summary.  This module says what the log of a roll is, record by record and in words, for a
roll that is completed and for one that the roller cuts short.

* `Group.Recorded` are the records of one group, given the dice that it left on the table: a record
  for each die, and one for each of those that were set aside.  `GroupsRecorded` has the groups one
  after the other.
* `recorded_settle` shows that one throw leaves the records of its group.  The dice that a keep
  suffix sets aside come in the order of the ranking, each once (`dropped_keep_perm`), with the
  place that it has within the group.
* `recorded_deal` goes through the groups.  It serves both for all groups of a formula (`Logged`)
  and for those that were completed before a failure (`LoggedUpTo`).
-/

set_option autoImplicit false

namespace Dicebag

variable {σ : Type} [Roller σ]

/-! ## Records -/

/-- An event as the log shows it: its level and its words. -/
def Event.shown (e : Event) : Level × String := (e.level, e.message)

/-- The record of a die that was rolled: its sides and the face that it shows. -/
def Die.record (d : Die) : Level × String :=
  (.trace, "d" ++ toString d.sides ++ " -> " ++ toString d.value)

/-- The record of a die of the group that was set aside.  A keep suffix says at which place within
the group the die lies. -/
def Group.dropRecord (g : Group) (mode : Mode) (d : Die × Nat) : Level × String :=
  (.trace, match g.keep with
    | some k => k.text ++ " drops die #" ++ toString d.2 ++ " (" ++ toString d.1.value ++ ")"
    | none => mode.label ++ " drops " ++ toString d.1.value)

/-- The record of a whole roll: the number of its dice, the subtotal and the total. -/
def Roll.record (r : Roll) (f : Formula) (mode : Mode) (modifier : Int) : Level × String :=
  (.debug, "rolled " ++ f.text ++ " (" ++ mode.label ++ ", " ++ Total.signed modifier ++ "): " ++
    toString r.dice.length ++ " dice, subtotal " ++ toString r.subtotal ++ ", total " ++
    toString r.total)

/-- The records of a group with these dice. -/
inductive Group.Recorded (g : Group) (mode : Mode) (pool : List Die) : List (Level × String) → Prop
  /-- All dice in their order, and then those that were set aside, each once; of the dice that a
  keep suffix sets aside the better come first. -/
  | intro {aside : List (Die × Nat)}
      (all : aside.Perm (pool.zipIdx.filter fun d => d.1.discarded))
      (order : ∀ k, g.keep = some k → aside.Pairwise k.mode.ComesBefore) :
      Recorded g mode pool (pool.map Die.record ++ aside.map (g.dropRecord mode))

/-- The records of groups with these dice, one group after the other. -/
inductive GroupsRecorded (mode : Mode) :
    List Group → List (List Die) → List (Level × String) → Prop
  /-- No group, no record. -/
  | nil : GroupsRecorded mode [] [] []
  /-- The records of one group, and then those of the others. -/
  | cons {g : Group} {gs : List Group} {pool : List Die} {pools : List (List Die)}
      {records records' : List (Level × String)} (first : g.Recorded mode pool records)
      (rest : GroupsRecorded mode gs pools records') :
      GroupsRecorded mode (g :: gs) (pool :: pools) (records ++ records')

/-! ## The dice that a keep suffix sets aside -/

/-- A die that was set aside, at its place. -/
def asideAt (d : Die × Nat) : Die × Nat := ({ d.1 with discarded := true }, d.2)

theorem zipIdx_setAside (places : List Nat) (dice : List Die) :
    (setAside places dice).zipIdx =
      dice.zipIdx.map fun d => if places.contains d.2 then asideAt d else d := by
  refine List.ext_getElem? fun i => ?_
  rw [List.getElem?_zipIdx, getElem?_setAside, List.getElem?_map, List.getElem?_zipIdx,
    Option.map_map, Option.map_map]
  refine Option.map_congr fun d _ => ?_
  simp only [Function.comp, Nat.zero_add]
  split <;> rfl

/-- Among dice that all counted, those that are set aside are the ones at the given places. -/
theorem filter_discarded_setAside (places : List Nat) {dice : List Die}
    (hdice : ∀ d ∈ dice, d.kept = true) :
    ((setAside places dice).zipIdx.filter fun d => d.1.discarded) =
      (dice.zipIdx.filter fun d => places.contains d.2).map asideAt := by
  have hmarked : ∀ d ∈ dice.zipIdx,
      (if places.contains d.2 then asideAt d else d).1.discarded = places.contains d.2 := by
    intro d hd
    have hkept : d.1.kept = true := hdice d.1 (List.fst_mem_of_mem_zipIdx hd)
    by_cases hin : places.contains d.2 = true
    · rw [if_pos hin, hin]
      rfl
    · rw [if_neg hin, Bool.eq_false_iff.2 hin]
      simpa [Die.kept] using hkept
  rw [zipIdx_setAside, List.filter_map]
  refine (congrArg _ (List.filter_congr hmarked)).trans (List.map_congr_left fun d hd => ?_)
  exact if_pos (List.mem_filter.1 hd).2

/-- **The dice that a keep suffix sets aside are the last of its ranking**, each once. -/
theorem dropped_keep_perm (k : Keep) {dice : List Die} (hdice : ∀ d ∈ dice, d.kept = true) :
    ((k.dropped dice).map asideAt).Perm
      (((Rule.keep k).apply dice).1.zipIdx.filter fun d => d.1.discarded) := by
  have hnodup : ((k.ranking dice).map Prod.snd).Nodup :=
    (map_snd_ranking_perm k dice).nodup_iff.2 List.nodup_range
  have hranking : (k.ranking dice).Perm dice.zipIdx := List.mergeSort_perm _ _
  have hdropped : (k.ranking dice).filter (fun d => ((k.dropped dice).map Prod.snd).contains d.2) =
      k.dropped dice := filter_mem_drop hnodup k.amount
  have hfilter := hranking.filter fun d => ((k.dropped dice).map Prod.snd).contains d.2
  rw [hdropped] at hfilter
  show ((k.dropped dice).map asideAt).Perm
    ((setAside ((k.dropped dice).map Prod.snd) dice).zipIdx.filter fun d => d.1.discarded)
  rw [filter_discarded_setAside _ hdice]
  exact hfilter.map asideAt

theorem pairwise_dropped (k : Keep) (dice : List Die) :
    ((k.dropped dice).map asideAt).Pairwise k.mode.ComesBefore := by
  refine List.pairwise_map.2 (((pairwise_comesBefore_ranking k dice).sublist
    (List.drop_sublist _ _)).imp fun {a b} h => ?_)
  cases hmode : k.mode <;> rw [hmode] at h <;> exact h

/-! ## One group -/

theorem map_record_settle (t : Throw) (share : List Nat) :
    (t.settle share).map Die.record = (share.map (Event.rolledDie t.sides)).map Event.shown := by
  have hface : ∀ d : Die, d.record = (Event.rolledDie d.face.1 d.face.2).shown := fun _ => rfl
  have hmap := congrArg (List.map fun p : Nat × Nat => (Event.rolledDie p.1 p.2).shown)
    (t.map_face_settle share)
  rw [List.map_map, List.map_map] at hmap
  rw [List.map_map]
  exact (List.map_congr_left fun d _ => hface d).trans hmap

/-- The records of a throw are those of its group if the dice that its rule sets aside are. -/
theorem Group.Recorded.of_rule {g : Group} {mode : Mode} {t : Throw} {share : List Nat}
    (aside : List (Die × Nat))
    (all : aside.Perm ((t.settle share).zipIdx.filter fun d => d.1.discarded))
    (order : ∀ k, g.keep = some k → aside.Pairwise k.mode.ComesBefore)
    (hevents : (t.rule.apply (share.map (Die.fresh t.sides))).2.map Event.shown =
      aside.map (g.dropRecord mode)) :
    g.Recorded mode (t.settle share) ((t.events share).map Event.shown) := by
  rw [Throw.events, List.map_append, hevents, ← map_record_settle]
  exact .intro all order

theorem recorded_throw (g : Group) (mode : Mode) (share : List Nat) :
    g.Recorded mode (g.throw.settle share) ((g.throw.events share).map Event.shown) := by
  have hfresh := kept_of_mem_fresh g.sides share
  cases hkeep : g.keep with
  | none =>
    have hrule : g.throw.rule = .all := by rw [Group.throw, hkeep]
    refine .of_rule [] (List.Perm.of_eq ?_) (fun _ _ => .nil) (by rw [hrule]; rfl)
    rw [Throw.settle, hrule]
    refine (List.filter_eq_nil_iff.2 fun d hd => ?_).symm
    have hkept := hfresh d.1 (List.fst_mem_of_mem_zipIdx hd)
    simpa [Die.kept] using hkept
  | some k =>
    have hrule : g.throw.rule = .keep k := by rw [Group.throw, hkeep]
    refine .of_rule ((k.dropped (share.map (Die.fresh g.sides))).map asideAt) ?_ ?_ ?_
    · rw [Throw.settle, hrule]
      exact dropped_keep_perm k hfresh
    · intro k' hk'
      rw [hkeep, Option.some.injEq] at hk'
      rw [← hk']
      exact pairwise_dropped k _
    · rw [hrule]
      show ((k.dropped _).map _).map Event.shown = _
      rw [List.map_map, List.map_map]
      refine List.map_congr_left fun d _ => ?_
      simp only [Function.comp, Group.dropRecord, hkeep]
      rfl

/-- Of two dice, a mode logs the one that it sets aside. -/
theorem events_pick_pair {mode : Mode} (hmode : mode ≠ .normal) (first second : Die) :
    ((Rule.pick mode).apply [first, second]).2 =
      [.droppedTwin mode
        (if mode.secondWins first.value second.value then first.value else second.value)] := by
  cases mode with
  | normal => exact absurd rfl hmode
  | advantage => simp only [Rule.apply]; split <;> rfl
  | disadvantage => simp only [Rule.apply]; split <;> rfl

/-- Of two dice, a mode sets aside the one at its place. -/
theorem apply_pick_eq_setAside {mode : Mode} (hmode : mode ≠ .normal) (first second : Die) :
    ((Rule.pick mode).apply [first, second]).1 =
      setAside [if mode.secondWins first.value second.value then 0 else 1] [first, second] := by
  rw [apply_pick_pair hmode]
  split <;> rfl

theorem recorded_twinThrow {g : Group} {mode : Mode} (hmode : mode ≠ .normal)
    (hkeep : g.keep = none) {share : List Nat} (hshare : share.length = 2) :
    g.Recorded mode ((g.twinThrow mode).settle share)
      (((g.twinThrow mode).events share).map Event.shown) := by
  obtain ⟨first, second, rfl⟩ := List.length_eq_two.1 hshare
  have hfresh := kept_of_mem_fresh g.sides [first, second]
  have hpool : (g.twinThrow mode).settle [first, second] =
      setAside [if mode.secondWins first second then 0 else 1]
        ([first, second].map (Die.fresh g.sides)) :=
    apply_pick_eq_setAside hmode (Die.fresh g.sides first) (Die.fresh g.sides second)
  have hevents : ((g.twinThrow mode).rule.apply
        ([first, second].map (Die.fresh (g.twinThrow mode).sides))).2 =
      [.droppedTwin mode (if mode.secondWins first second then first else second)] :=
    events_pick_pair hmode (Die.fresh g.sides first) (Die.fresh g.sides second)
  have hrecord : ∀ d : Die × Nat,
      g.dropRecord mode d = (Event.droppedTwin mode d.1.value).shown := by
    intro d
    simp only [Group.dropRecord, hkeep]
    rfl
  have hpick : (([first, second].map (Die.fresh g.sides)).zipIdx.filter fun d =>
        [if mode.secondWins first second then 0 else 1].contains d.2) =
      [if mode.secondWins first second then (Die.fresh g.sides first, 0)
        else (Die.fresh g.sides second, 1)] := by
    split <;> rfl
  refine .of_rule [asideAt (if mode.secondWins first second then (Die.fresh g.sides first, 0)
    else (Die.fresh g.sides second, 1))] (List.Perm.of_eq ?_) ?_ ?_
  · rw [hpool, filter_discarded_setAside _ hfresh, hpick]
    rfl
  · intro k hk
    rw [hkeep] at hk
    cases hk
  · rw [hevents, List.map_singleton, List.map_singleton, hrecord]
    split <;> rfl

/-- **A throw leaves the records of its group**, whatever faces it is dealt. -/
theorem recorded_settle {f : Formula} {mode : Mode} {place : Nat} {g : Group} {share : List Nat}
    (hg : (g, place) ∈ f.groups.zipIdx)
    (hshare : share.length = (f.throwAt mode place g).count) :
    g.Recorded mode ((f.throwAt mode place g).settle share)
      (((f.throwAt mode place g).events share).map Event.shown) := by
  rw [Formula.throwAt] at hshare ⊢
  by_cases hplace : f.modeGroup mode = some place
  · rw [if_pos hplace] at hshare ⊢
    obtain ⟨hmode, hadvantage⟩ := Formula.modeGroup_eq_some_iff.1 hplace
    obtain ⟨-, hcount, hkeep⟩ := isLoneD20_iff.1 (isLoneD20_of_advantageGroup hadvantage hg)
    exact recorded_twinThrow hmode hkeep (hshare.trans (congrArg (· + 1) hcount))
  · rw [if_neg hplace]
    exact recorded_throw g mode share

/-! ## One group after the other -/

/-- The throws of some groups of a formula, the first of which has the place `start`. -/
def Formula.throwsFrom (f : Formula) (mode : Mode) (start : Nat) (gs : List Group) : List Throw :=
  (gs.zipIdx start).map fun (g, place) => f.throwAt mode place g

/-- **Throws leave the records of their groups**, one group after the other. -/
theorem recorded_deal {f : Formula} {mode : Mode} {gs : List Group} {start : Nat}
    (hgs : ∀ p ∈ gs.zipIdx start, p ∈ f.groups.zipIdx) {faces : List Nat}
    (hfaces : faces.length = ((f.throwsFrom mode start gs).flatMap Throw.sizes).length) :
    GroupsRecorded mode gs (deal (f.throwsFrom mode start gs) faces)
      ((dealEvents (f.throwsFrom mode start gs) faces).map Event.shown) := by
  induction gs generalizing start faces with
  | nil => exact .nil
  | cons g gs ih =>
    rw [List.zipIdx_cons] at hgs
    obtain ⟨hg, hgs⟩ := List.forall_mem_cons.1 hgs
    rw [Formula.throwsFrom, List.zipIdx_cons, List.map_cons] at hfaces ⊢
    obtain ⟨hshare, hrest⟩ := length_share hfaces
    rw [deal, dealEvents, List.map_append]
    exact .cons (recorded_settle hg hshare) (ih hgs hrest)

/-- Where the throws of a formula are cut in two before one of them, its groups are. -/
theorem groups_of_throws {f : Formula} {mode : Mode} {before later : List Throw} {t : Throw}
    (h : f.throws mode = before ++ t :: later) :
    ∃ gs g gs', f.groups = gs ++ g :: gs' ∧ before = f.throwsFrom mode 0 gs ∧
      t = f.throwAt mode gs.length g := by
  rw [Formula.throws_eq] at h
  obtain ⟨ps, ps', hzip, rfl, hmap⟩ := List.map_eq_append_iff.1 h
  obtain ⟨p, qs, rfl, rfl, rfl⟩ := List.map_eq_cons_iff.1 hmap
  obtain ⟨gs, rest, hgroups, rfl, hrest⟩ := List.zipIdx_eq_append_iff.1 hzip
  obtain ⟨g, gs', rfl, rfl, -⟩ := List.zipIdx_eq_cons_iff.1 hrest.symm
  rw [Nat.zero_add]
  exact ⟨gs, g, gs', hgroups, rfl, rfl⟩

/-! ## Draws -/

/-- A draw that was good: the sides of the die, and the face. -/
def drawn (face : Nat × Nat) : Nat × Except Fault Nat := (face.1, .ok face.2)

theorem drawn_injective : Function.Injective drawn := by
  intro face face' h
  obtain ⟨hsides, hvalue⟩ := Prod.mk.inj h
  exact Prod.ext hsides (Except.ok.inj hvalue)

/-- The draw that a die came from. -/
def Die.draw (d : Die) : Nat × Except Fault Nat := drawn d.face

theorem map_draw_of_map_face {dice : List Die} {faces : List (Nat × Nat)}
    (h : dice.map Die.face = faces) : dice.map Die.draw = faces.map drawn := by
  rw [← h, List.map_map]
  rfl

theorem Deals.draws_append {roller mid : σ} {sizes faces : List Nat}
    (h : Deals roller sizes faces mid) (sizes' : List Nat) :
    Roller.draws roller (sizes ++ sizes') =
      (sizes.zip faces).map drawn ++ Roller.draws mid sizes' := by
  induction h with
  | nil => rfl
  | cons drawn _ _ _ ih =>
    rw [List.cons_append, draws_cons drawn, ih]
    rfl

theorem Deals.draws_eq {roller after : σ} {sizes faces : List Nat}
    (h : Deals roller sizes faces after) :
    Roller.draws roller sizes = (sizes.zip faces).map drawn := by
  have happend := h.draws_append []
  rwa [List.append_nil, Roller.draws, List.append_nil] at happend

/-- A failure that comes after some good draws is the first, and has their number. -/
theorem Deals.firstBadDraw {roller mid : σ} {sizes sizes' faces : List Nat} {i : Nat}
    {fault : Fault} (h : Deals roller sizes faces mid) (hbad : FirstBadDraw mid sizes' i fault) :
    FirstBadDraw roller (sizes ++ sizes') (faces.length + i) fault := by
  induction h with
  | nil =>
    rw [List.length_nil, Nat.zero_add]
    exact hbad
  | cons drawn least most _ ih =>
    rw [List.length_cons, Nat.add_right_comm]
    exact (ih hbad).succ drawn least most

/-! ## The log of a roll that is completed -/

/-- What a roll that comes to an end leaves in the log. -/
structure Logged (f : Formula) (mode : Mode) (modifier : Int) (roller : σ) (r : Roll)
    (log : List Event) : Prop where
  /-- The dice are those that were drawn, in the order of the draws. -/
  drawn : Roller.draws roller (f.sizes mode) = r.dice.map Die.draw
  /-- The groups have these dice between them. -/
  pools : r.pools.flatten = r.dice
  /-- Each group has as many of them as it throws. -/
  lengths : r.pools.map List.length =
    f.groups.zipIdx.map fun (g, place) => f.diceThrown mode place g
  /-- The log has the records of the groups, and a last one for the whole roll. -/
  records : ∃ records, GroupsRecorded mode f.groups r.pools records ∧
    log.map Event.shown = records ++ [r.record f mode modifier]

theorem logged_outcome (f : Formula) {mode : Mode} (modifier : Int) {roller after : σ}
    {faces : List Nat} (h : Deals roller (f.sizes mode) faces after) :
    Logged f mode modifier roller (f.outcome mode modifier faces)
      (f.rollEvents mode modifier faces) := by
  have hfaces : faces.length = ((f.throwsFrom mode 0 f.groups).flatMap Throw.sizes).length :=
    h.length_eq.trans (congrArg List.length (f.flatMap_sizes_throws mode).symm)
  refine ⟨?_, ?_, ?_, (dealEvents (f.throws mode) faces).map Event.shown, ?_, ?_⟩
  · rw [h.draws_eq]
    exact (map_draw_of_map_face (map_face_pools h.length_eq)).symm
  · rw [Formula.pools_outcome]
    rfl
  · rw [Formula.pools_outcome]
    exact map_length_pools h.length_eq
  · rw [Formula.pools_outcome]
    exact recorded_deal (fun _ hp => hp) hfaces
  · rw [Formula.rollEvents, List.map_append]
    rfl

/-! ## The log of a roll that is cut short -/

/-- What a roll that fails at draw number `i` leaves in the log. -/
inductive LoggedUpTo (f : Formula) (mode : Mode) (roller : σ) (i : Nat) (log : List Event) : Prop
  /-- Some groups are complete, and the failure falls in the one after them, of which some dice lie
  in the row by then.  All these dice are what was drawn before the failure, and the complete groups
  are settled as they are in every roll that comes to an end and begins with the same draws.  The
  log has the records of the complete groups and of the dice in the row, and no other. -/
  | intro {before later : List Group} {g : Group} {pools : List (List Die)} {row : List Die}
      {records : List (Level × String)} (groups : f.groups = before ++ g :: later)
      (complete : GroupsRecorded mode before pools records)
      (lengths : pools.map List.length =
        before.zipIdx.map fun (g, place) => f.diceThrown mode place g)
      (short : row.length < f.diceThrown mode before.length g)
      (drawn : (Roller.draws roller (f.sizes mode)).take i = (pools.flatten ++ row).map Die.draw)
      (settled : ∀ {τ : Type} [Roller τ] (roller' : τ) (modifier : Int) (r : Roll),
        ((f.roll mode modifier).run roller').answer = .ok r →
        (Roller.draws roller' (f.sizes mode)).take i =
          (Roller.draws roller (f.sizes mode)).take i → pools <+: r.pools)
      (shown : log.map Event.shown = records ++ row.map Die.record) :
      LoggedUpTo f mode roller i log

/-- A roll that comes to an end is the outcome of the faces that its roller dealt. -/
theorem exists_deals_of_ok {f : Formula} (hf : f.Playable) (hlength : f.groups.length ≤ 2 ^ 40)
    {mode : Mode} {modifier : Int} {roller : σ} {r : Roll}
    (h : ((f.roll mode modifier).run roller).answer = .ok r) :
    ∃ faces after, Deals roller (f.sizes mode) faces after ∧ r = f.outcome mode modifier faces := by
  rcases deals_or_stops roller (f.sizes mode) with ⟨faces, after, hdeals⟩ | ⟨fault, after, hstops⟩
  · rw [Formula.run_roll hf hlength modifier hdeals, Except.ok.injEq] at h
    exact ⟨faces, after, hdeals, h.symm⟩
  · obtain ⟨log, hrun⟩ := Formula.run_roll_of_stops hf hlength modifier hstops
    rw [hrun] at h
    cases h

/-- Throws that come first take the faces that come first. -/
theorem deal_isPrefix {before later : List Throw} {faces faces' : List Nat}
    (hfaces : faces.length = (before.flatMap Throw.sizes).length) (h : faces <+: faces') :
    deal before faces <+: deal (before ++ later) faces' := by
  obtain ⟨rest, rfl⟩ := h
  have htake : deal before (faces ++ rest) = deal before faces := by
    rw [← deal_take before (faces ++ rest), ← hfaces, List.take_left]
  rw [deal_append, htake]
  exact List.prefix_append _ _

/-- Faces that are dealt to the same dice as the first of some others are the first of these. -/
theorem prefix_of_take_zip {sizes sizes' faces faces' : List Nat}
    (hfaces' : faces'.length = sizes'.length) (hfaces : faces.length = sizes.length)
    (h : (sizes'.zip faces').take faces.length = sizes.zip faces) : faces <+: faces' := by
  have htake := congrArg (List.map Prod.snd) h
  rw [List.map_take, List.map_snd_zip hfaces'.le, List.map_snd_zip hfaces.le] at htake
  rw [← htake]
  exact List.take_prefix _ _

/-- **The throws that come first are settled alike in all rolls that begin with the same draws**,
whatever roller they are made with. -/
theorem deal_isPrefix_pools {f : Formula} (hf : f.Playable) (hlength : f.groups.length ≤ 2 ^ 40)
    {mode : Mode} {before later : List Throw} (throws : f.throws mode = before ++ later)
    {faces row sizes : List Nat} (hfaces : faces.length = (before.flatMap Throw.sizes).length)
    (hsizes : (faces ++ row).length = sizes.length) {modifier : Int} {roller : σ} {r : Roll}
    (hr : ((f.roll mode modifier).run roller).answer = .ok r)
    (hdraws : (Roller.draws roller (f.sizes mode)).take (faces ++ row).length =
      (sizes.zip (faces ++ row)).map drawn) : deal before faces <+: r.pools := by
  obtain ⟨faces', after, hdeals, rfl⟩ := exists_deals_of_ok hf hlength hr
  rw [hdeals.draws_eq, ← List.map_take] at hdraws
  have hprefix := prefix_of_take_zip hdeals.length_eq hsizes
    (List.map_injective_iff.2 drawn_injective hdraws)
  rw [Formula.pools_outcome, Formula.pools, throws]
  exact deal_isPrefix hfaces ((List.prefix_append faces row).trans hprefix)

/-- The dice that were dealt before a failure, those of the throw that it falls in included, show
the faces that they were dealt. -/
theorem map_face_begun {before : List Throw} {faces : List Nat} (row : List Nat) (sides : Nat)
    (hfaces : faces.length = (before.flatMap Throw.sizes).length) :
    ((deal before faces).flatten ++ row.map (Die.fresh sides)).map Die.face =
      (before.flatMap Throw.sizes ++ List.replicate row.length sides).zip (faces ++ row) := by
  have hrow : (row.map (Die.fresh sides)).map Die.face =
      (List.replicate row.length sides).zip row := by
    rw [List.map_map, ← List.map_const', ← List.map_prod_right_eq_zip]
    rfl
  rw [List.map_append, map_face_flatten_deal hfaces, hrow, List.zip_append hfaces.symm]

/-- Where a throw has more dice than were begun, one more die of its size is asked for. -/
theorem exists_sizes_of_short (before later : List Throw) {t : Throw} {n : Nat}
    (h : n < t.count) : ∃ rest, (before ++ t :: later).flatMap Throw.sizes =
      (before.flatMap Throw.sizes ++ List.replicate n t.sides) ++ t.sides :: rest := by
  obtain ⟨m, hm⟩ := Nat.exists_eq_add_of_lt h
  refine ⟨List.replicate m t.sides ++ later.flatMap Throw.sizes, ?_⟩
  rw [List.flatMap_append, List.flatMap_cons, Throw.sizes, hm, Nat.add_assoc, List.replicate_add,
    List.replicate_succ]
  simp only [List.append_assoc, List.cons_append]

/-- **A roll that is cut short leaves the records of what it completed.** -/
theorem loggedUpTo_of_cutShort {f : Formula} (hf : f.Playable)
    (hlength : f.groups.length ≤ 2 ^ 40) {mode : Mode} {roller after : σ} {fault : Fault}
    {log : List Event} (h : CutShort roller (f.throws mode) fault after log) :
    ∃ i, FirstBadDraw roller (f.sizes mode) i fault ∧ LoggedUpTo f mode roller i log := by
  rcases h with @⟨before, later, t, faces, row, mid, last, throws, complete, begun, short, fails⟩
  obtain ⟨gs, g, gs', hgroups, hbefore, ht⟩ := groups_of_throws throws
  have hgs : ∀ p ∈ gs.zipIdx, p ∈ f.groups.zipIdx := by
    intro p hp
    rw [hgroups, List.zipIdx_append]
    exact List.mem_append_left _ hp
  have hdealt := complete.append begun
  obtain ⟨rest, hsizes⟩ := exists_sizes_of_short before later short
  rw [← throws, f.flatMap_sizes_throws] at hsizes
  have hface := map_face_begun row t.sides complete.length_eq
  have hdraws : (Roller.draws roller (f.sizes mode)).take (faces ++ row).length =
      ((deal before faces).flatten ++ row.map (Die.fresh t.sides)).map Die.draw := by
    rw [map_draw_of_map_face hface, hsizes, hdealt.draws_append]
    refine List.take_left' ?_
    rw [List.length_map, List.length_zip, ← hdealt.length_eq, Nat.min_self]
  have hrecords : GroupsRecorded mode gs (deal before faces)
      ((dealEvents before faces).map Event.shown) := by
    rw [hbefore] at complete ⊢
    exact recorded_deal hgs complete.length_eq
  have hlengths : (deal before faces).map List.length =
      gs.zipIdx.map fun (g, place) => f.diceThrown mode place g := by
    rw [map_length_deal complete.length_eq, hbefore, Formula.throwsFrom, List.map_map]
    exact List.map_congr_left fun p _ => f.count_throwAt mode p.2 p.1
  have hshort : (row.map (Die.fresh t.sides)).length < f.diceThrown mode gs.length g := by
    rw [List.length_map, ← f.count_throwAt, ← ht]
    exact short
  refine ⟨(faces ++ row).length, ?_, .intro hgroups hrecords hlengths hshort hdraws ?_ ?_⟩
  · rw [hsizes]
    exact hdealt.firstBadDraw (fails.firstBadDraw rest)
  · intro τ _ roller' modifier r hr hsame
    rw [hdraws, map_draw_of_map_face hface] at hsame
    exact deal_isPrefix_pools hf hlength throws complete.length_eq hdealt.length_eq hr hsame
  · rw [List.map_append, List.map_map, List.map_map]
    rfl

end Dicebag
