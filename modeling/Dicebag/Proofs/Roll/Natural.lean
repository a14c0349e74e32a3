import Dicebag.Proofs.Roll.Tally

/-!
# The die that criticals are read from

A roll is a critical or a fumble by the first lone d20 of the formula, and by no other die.  That is
said here in terms of the faces that were drawn: if the groups before the first lone d20 have `p`
dice between them (`Formula.NaturalAt`), then draw `p` decides in the normal mode, and draws `p` and
`p + 1` in the other two.

* `Mode.countingFace` is the face that counts of the two, and `exists_natural` says that a roll
  finds it: the pool of the first lone d20 holds just these draws, and the pick sets the other one
  aside.
* `Mode.Critical` and `Mode.Fumble` say what the two draws have to show, without any comparing of
  faces; that this comes to the same rests on the draws being faces of a d20.
* `roll_natural` puts the two together, for every roll, and adds that no two rolls can differ in
  either flag if they agree on these draws.
-/

set_option autoImplicit false

namespace Dicebag

variable {σ : Type} [Roller σ]

/-! ## The groups before the first lone d20 -/

/-- The formula has a lone d20, and the groups before the first one have `p` dice between them. -/
def Formula.NaturalAt (f : Formula) (p : Nat) : Prop :=
  ∃ before d later, f.groups = before ++ d :: later ∧ (∀ g ∈ before, g.isLoneD20 = false) ∧
    d.isLoneD20 = true ∧ p = (before.map Group.count).sum

/-- A formula has a lone d20 or none. -/
theorem forall_or_naturalAt (f : Formula) :
    (∀ g ∈ f.groups, g.isLoneD20 = false) ∨ ∃ p, f.NaturalAt p := by
  cases hfind : f.groups.find? Group.isLoneD20 with
  | none => exact .inl fun g hg => by simpa using List.find?_eq_none.1 hfind g hg
  | some d =>
    obtain ⟨hd, before, later, hgroups, hbefore⟩ := List.find?_eq_some_iff_append.1 hfind
    exact .inr ⟨_, before, d, later, hgroups, fun g hg => by simpa using hbefore g hg, hd, rfl⟩

theorem advantageGroup_eq_none {f : Formula} (h : ∀ g ∈ f.groups, g.isLoneD20 = false) :
    f.advantageGroup = none := List.findIdx?_eq_none_iff.2 h

theorem advantageGroup_of_split {f : Formula} {before later : List Group} {d : Group}
    (hgroups : f.groups = before ++ d :: later) (hbefore : ∀ g ∈ before, g.isLoneD20 = false)
    (hd : d.isLoneD20 = true) : f.advantageGroup = some before.length := by
  have hnone : before.findIdx? Group.isLoneD20 = none := List.findIdx?_eq_none_iff.2 hbefore
  rw [Formula.advantageGroup, hgroups, List.findIdx?_append, hnone]
  simp [List.findIdx?_cons, hd]

/-! ## The throw of the first lone d20 -/

/-- How the first lone d20 is thrown: once in the normal mode, and twice over in the others. -/
def Group.naturalThrow (d : Group) (mode : Mode) : Throw :=
  if mode = .normal then d.throw else d.twinThrow mode

/-- Groups that the mode does not act on are thrown on their own account. -/
theorem map_throwAt_of_ne {f : Formula} {mode : Mode} {gs : List Group} {start : Nat}
    (h : ∀ place, start ≤ place → place < start + gs.length → f.modeGroup mode ≠ some place) :
    (gs.zipIdx start).map (fun (g, i) => f.throwAt mode i g) = gs.map Group.throw := by
  have hthrow : ∀ p ∈ gs.zipIdx start, f.throwAt mode p.2 p.1 = p.1.throw := by
    intro p hp
    have hle := List.le_snd_of_mem_zipIdx hp
    have hlt := List.snd_lt_add_of_mem_zipIdx hp
    exact if_neg (h p.2 hle (by omega))
  calc (gs.zipIdx start).map (fun p => f.throwAt mode p.2 p.1)
      = (gs.zipIdx start).map (fun p => p.1.throw) := List.map_congr_left hthrow
    _ = ((gs.zipIdx start).map Prod.fst).map Group.throw := by rw [List.map_map]; rfl
    _ = gs.map Group.throw := by rw [List.zipIdx_map_fst]

theorem throwAt_natural {f : Formula} {place : Nat} (hplace : f.advantageGroup = some place)
    (mode : Mode) (d : Group) : f.throwAt mode place d = d.naturalThrow mode := by
  rw [Formula.throwAt, Group.naturalThrow]
  by_cases hmode : mode = .normal
  · rw [if_pos hmode, if_neg fun h => (Formula.modeGroup_eq_some_iff.1 h).1 hmode]
  · rw [if_neg hmode, if_pos (Formula.modeGroup_eq_some_iff.2 ⟨hmode, hplace⟩)]

/-- **Only the first lone d20 is thrown in another way than it is written.** -/
theorem throws_of_split {f : Formula} {before later : List Group} {d : Group}
    (hgroups : f.groups = before ++ d :: later)
    (hplace : f.advantageGroup = some before.length) (mode : Mode) :
    f.throws mode =
      before.map Group.throw ++ d.naturalThrow mode :: later.map Group.throw := by
  have hother : ∀ place, place ≠ before.length → f.modeGroup mode ≠ some place := by
    intro place hne h
    have hplace' := (Formula.modeGroup_eq_some_iff.1 h).2
    exact hne (Option.some.inj (hplace'.symm.trans hplace))
  rw [Formula.throws_eq, hgroups, List.zipIdx_append, List.zipIdx_cons, List.map_append,
    List.map_cons, Nat.zero_add]
  rw [map_throwAt_of_ne fun place _ hlt => hother place (by omega),
    map_throwAt_of_ne fun place hle _ => hother place (by omega)]
  show _ ++ f.throwAt mode before.length d :: _ = _
  rw [throwAt_natural hplace]

/-! ## The pool of the first lone d20 -/

theorem deal_append (ts us : List Throw) (faces : List Nat) :
    deal (ts ++ us) faces = deal ts faces ++ deal us (faces.drop (ts.map Throw.count).sum) := by
  induction ts generalizing faces with
  | nil => rfl
  | cons t ts ih =>
    rw [List.cons_append, deal, ih, List.drop_drop, List.map_cons, List.sum_cons]
    rfl

theorem length_flatMap_sizes (ts : List Throw) :
    (ts.flatMap Throw.sizes).length = (ts.map Throw.count).sum := by
  rw [List.length_flatMap]
  simp only [Throw.length_sizes]

theorem map_count_throw (gs : List Group) :
    (gs.map Group.throw).map Throw.count = gs.map Group.count := by
  rw [List.map_map]
  rfl

/-- Each throw is dealt its share of the faces, behind those of the throws before it. -/
theorem exists_deals_share {ts us : List Throw} {t : Throw} {roller after : σ} {faces : List Nat}
    (h : Deals roller ((ts ++ t :: us).flatMap Throw.sizes) faces after) :
    ∃ mid next : σ,
      Deals mid t.sizes ((faces.drop (ts.map Throw.count).sum).take t.count) next := by
  rw [List.flatMap_append, Deals.append_iff, length_flatMap_sizes] at h
  obtain ⟨mid, -, hrest⟩ := h
  obtain ⟨next, hshare, -⟩ := deals_cons_iff.1 hrest
  exact ⟨mid, next, hshare⟩

/-- The pool that the throw of the first lone d20 leaves on the table. -/
theorem getElem?_pools_of_split {f : Formula} {before later : List Group} {d : Group}
    (hgroups : f.groups = before ++ d :: later)
    (hplace : f.advantageGroup = some before.length) (mode : Mode) (faces : List Nat) :
    (f.pools mode faces)[before.length]? =
      some ((d.naturalThrow mode).settle
        ((faces.drop (before.map Group.count).sum).take (d.naturalThrow mode).count)) := by
  have hlength : (deal (before.map Group.throw) faces).length = before.length := by
    rw [length_deal, List.length_map]
  rw [Formula.pools, throws_of_split hgroups hplace, deal_append, map_count_throw,
    List.getElem?_append_right (Nat.le_of_eq hlength), hlength, Nat.sub_self]
  rfl

/-- What the table says of the first lone d20 is what its pool says. -/
theorem natural?_table {f : Formula} {place : Nat} (hplace : f.advantageGroup = some place)
    (mode : Mode) (faces : List Nat) :
    f.natural? (f.table mode faces) =
      (f.pools mode faces)[place]?.bind fun pool => (pool.find? Die.kept).map Die.value := by
  have hcut : (lay 0 (f.pools mode faces)).map (fun s => s.cut (f.pools mode faces).flatten) =
      f.pools mode faces := map_cut_lay List.drop_zero
  have hget := congrArg (fun pools => pools[place]?) hcut
  rw [← hget, List.getElem?_map, Option.bind_map, Formula.natural?, hplace]
  show ((lay 0 (f.pools mode faces))[place]?.bind fun s =>
    ((s.cut (f.pools mode faces).flatten).find? Die.kept).bind fun d => some d.value) = _
  simp only [Option.map_eq_bind]
  rfl

/-! ## The face that counts -/

/-- The face that counts of the two that a lone d20 shows; in the normal mode it is thrown once and
the second does not matter. -/
def Mode.countingFace (mode : Mode) (first second : Nat) : Nat :=
  match mode with
  | .normal => first
  | .advantage => max first second
  | .disadvantage => min first second

/-- The draws that make a critical: a 20 that is not set aside. -/
def Mode.Critical (mode : Mode) (first second : Option Nat) : Prop :=
  match mode with
  | .normal => first = some Group.d20
  | .advantage => first = some Group.d20 ∨ second = some Group.d20
  | .disadvantage => first = some Group.d20 ∧ second = some Group.d20

/-- The draws that make a fumble: a 1 that is not set aside. -/
def Mode.Fumble (mode : Mode) (first second : Option Nat) : Prop :=
  match mode with
  | .normal => first = some 1
  | .advantage => first = some 1 ∧ second = some 1
  | .disadvantage => first = some 1 ∨ second = some 1

/-- The value is one that a d20 can show. -/
def OnD20 (value : Nat) : Prop := 1 ≤ value ∧ value ≤ Group.d20

theorem countingFace_eq_d20_iff {mode : Mode} {first second : Nat} (hfirst : OnD20 first)
    (hsecond : OnD20 second) :
    mode.countingFace first second = Group.d20 ↔ mode.Critical (some first) (some second) := by
  rw [OnD20, Group.d20] at hfirst hsecond
  cases mode <;> simp only [Mode.countingFace, Mode.Critical, Option.some.injEq, Group.d20] <;>
    omega

theorem countingFace_eq_one_iff {mode : Mode} {first second : Nat} (hfirst : OnD20 first)
    (hsecond : OnD20 second) :
    mode.countingFace first second = 1 ↔ mode.Fumble (some first) (some second) := by
  rw [OnD20] at hfirst hsecond
  cases mode <;> simp only [Mode.countingFace, Mode.Fumble, Option.some.injEq] <;> omega

theorem onD20_countingFace {mode : Mode} {first second : Nat} (hfirst : OnD20 first)
    (hsecond : OnD20 second) : OnD20 (mode.countingFace first second) := by
  rw [OnD20] at hfirst hsecond ⊢
  cases mode <;> simp only [Mode.countingFace] <;> omega

/-- The second draw matters in the modes that make one. -/
theorem critical_congr {mode : Mode} {first second second' : Option Nat}
    (h : mode ≠ .normal → second = second') :
    mode.Critical first second ↔ mode.Critical first second' := by
  cases mode with
  | normal => rfl
  | advantage => rw [h (by decide)]
  | disadvantage => rw [h (by decide)]

theorem fumble_congr {mode : Mode} {first second second' : Option Nat}
    (h : mode ≠ .normal → second = second') :
    mode.Fumble first second ↔ mode.Fumble first second' := by
  cases mode with
  | normal => rfl
  | advantage => rw [h (by decide)]
  | disadvantage => rw [h (by decide)]

theorem find?_kept_pick {mode : Mode} (hmode : mode ≠ .normal) (sides first second : Nat) :
    ((((Rule.pick mode).apply [Die.fresh sides first, Die.fresh sides second]).1.find?
      Die.kept).map Die.value) = some (mode.countingFace first second) := by
  rw [apply_pick_pair hmode]
  cases mode with
  | normal => exact absurd rfl hmode
  | advantage =>
    by_cases h : first < second
    · simp [Mode.secondWins, Mode.countingFace, Die.fresh, Die.kept, h]
      omega
    · simp [Mode.secondWins, Mode.countingFace, Die.fresh, Die.kept, h]
      omega
  | disadvantage =>
    by_cases h : second < first
    · simp [Mode.secondWins, Mode.countingFace, Die.fresh, Die.kept, h]
      omega
    · simp [Mode.secondWins, Mode.countingFace, Die.fresh, Die.kept, h]
      omega

theorem Group.sizes_naturalThrow {d : Group} (hd : d.isLoneD20 = true) (mode : Mode) :
    (d.naturalThrow mode).sizes =
      if mode = .normal then [Group.d20] else [Group.d20, Group.d20] := by
  obtain ⟨hsides, hcount, -⟩ := isLoneD20_iff.1 hd
  rw [Throw.sizes, Group.naturalThrow]
  split
  · rw [Group.throw, hcount, hsides]
    rfl
  · rw [Group.twinThrow, hcount, hsides]
    rfl

theorem sides_naturalThrow {d : Group} (hd : d.isLoneD20 = true) (mode : Mode) :
    (d.naturalThrow mode).sides = Group.d20 := by
  rw [Group.naturalThrow]
  split <;> exact (isLoneD20_iff.1 hd).1

/-- A share of two faces or of one, as the mode asks for, and the face that counts of it. -/
theorem exists_natural_of_share {d : Group} (hd : d.isLoneD20 = true) {mode : Mode}
    {roller after : σ} {share : List Nat}
    (h : Deals roller (d.naturalThrow mode).sizes share after) :
    ∃ first second, OnD20 first ∧ OnD20 second ∧ share[0]? = some first ∧
      (mode ≠ .normal → share[1]? = some second) ∧
      (((d.naturalThrow mode).settle share).find? Die.kept).map Die.value =
        some (mode.countingFace first second) := by
  obtain ⟨-, -, hkeep⟩ := isLoneD20_iff.1 hd
  rw [Group.sizes_naturalThrow hd] at h
  by_cases hmode : mode = .normal
  · subst hmode
    obtain _ | ⟨-, least, most, rest⟩ := h
    cases rest
    refine ⟨_, _, ⟨least, most⟩, ⟨least, most⟩, rfl, fun h => absurd rfl h, ?_⟩
    rw [Group.naturalThrow, if_pos rfl, Throw.settle, Group.throw, hkeep]
    rfl
  · rw [if_neg hmode] at h
    obtain _ | ⟨-, least, most, rest⟩ := h
    obtain _ | ⟨-, least', most', rest'⟩ := rest
    cases rest'
    refine ⟨_, _, ⟨least, most⟩, ⟨least', most'⟩, rfl, fun _ => rfl, ?_⟩
    rw [Group.naturalThrow, if_neg hmode]
    exact find?_kept_pick hmode _ _ _

/-- **The first lone d20 shows the draws after those of the groups before it**, and what counts of
them is the face that the table gives. -/
theorem exists_natural {f : Formula} {mode : Mode} {roller after : σ} {faces : List Nat} {p : Nat}
    (h : Deals roller (f.sizes mode) faces after) (hp : f.NaturalAt p) :
    ∃ first second, OnD20 first ∧ OnD20 second ∧ faces[p]? = some first ∧
      (mode ≠ .normal → faces[p + 1]? = some second) ∧
      f.natural? (f.table mode faces) = some (mode.countingFace first second) := by
  obtain ⟨before, d, later, hgroups, hbefore, hd, rfl⟩ := hp
  have hplace := advantageGroup_of_split hgroups hbefore hd
  rw [← Formula.flatMap_sizes_throws, throws_of_split hgroups hplace] at h
  obtain ⟨mid, next, hshare⟩ := exists_deals_share h
  rw [map_count_throw] at hshare
  obtain ⟨first, second, hfirst, hsecond, hget, hget', hnatural⟩ :=
    exists_natural_of_share hd hshare
  refine ⟨first, second, hfirst, hsecond, ?_, fun hmode => ?_, ?_⟩
  · have hlt := (List.getElem?_eq_some_iff.1 hget).1
    rw [List.length_take] at hlt
    rwa [List.getElem?_take_of_lt (by omega), List.getElem?_drop] at hget
  · have hlt := (List.getElem?_eq_some_iff.1 (hget' hmode)).1
    rw [List.length_take] at hlt
    have hget' := hget' hmode
    rwa [List.getElem?_take_of_lt (by omega), List.getElem?_drop] at hget'
  · rw [natural?_table hplace, getElem?_pools_of_split hgroups hplace]
    exact hnatural

/-! ## Criticals and fumbles -/

theorem critical_outcome (f : Formula) (mode : Mode) (modifier : Int) (faces : List Nat) :
    (f.outcome mode modifier faces).critical =
      (f.natural? (f.table mode faces) == some Group.d20) := rfl

theorem fumble_outcome (f : Formula) (mode : Mode) (modifier : Int) (faces : List Nat) :
    (f.outcome mode modifier faces).fumble = (f.natural? (f.table mode faces) == some 1) := rfl

/-- What makes a roll a critical, and what makes it a fumble, by the draws. -/
theorem flags_iff {f : Formula} {mode : Mode} {roller after : σ} {faces : List Nat} {p : Nat}
    (h : Deals roller (f.sizes mode) faces after) (hp : f.NaturalAt p) (modifier : Int) :
    ((f.outcome mode modifier faces).critical = true ↔ mode.Critical faces[p]? faces[p + 1]?) ∧
      ((f.outcome mode modifier faces).fumble = true ↔ mode.Fumble faces[p]? faces[p + 1]?) := by
  obtain ⟨first, second, hfirst, hsecond, hget, hget', hnatural⟩ := exists_natural h hp
  rw [critical_outcome, fumble_outcome, hnatural, hget, critical_congr hget', fumble_congr hget',
    beq_iff_eq, beq_iff_eq, Option.some_inj, Option.some_inj]
  exact ⟨countingFace_eq_d20_iff hfirst hsecond, countingFace_eq_one_iff hfirst hsecond⟩

/-- Without a lone d20 a roll is neither. -/
theorem flags_eq_false {f : Formula} (h : ∀ g ∈ f.groups, g.isLoneD20 = false) (mode : Mode)
    (modifier : Int) (faces : List Nat) :
    (f.outcome mode modifier faces).critical = false ∧
      (f.outcome mode modifier faces).fumble = false := by
  have hnatural : f.natural? (f.table mode faces) = none := by
    rw [Formula.natural?, advantageGroup_eq_none h]
    rfl
  rw [critical_outcome, fumble_outcome, hnatural]
  exact ⟨rfl, rfl⟩

/-- One face counts, so a roll is not both. -/
theorem not_critical_and_fumble (f : Formula) (mode : Mode) (modifier : Int) (faces : List Nat) :
    ¬((f.outcome mode modifier faces).critical = true ∧
      (f.outcome mode modifier faces).fumble = true) := by
  rintro ⟨hcritical, hfumble⟩
  have hcritical : f.natural? (f.table mode faces) = some Group.d20 := beq_iff_eq.1 hcritical
  have hfumble : f.natural? (f.table mode faces) = some 1 := beq_iff_eq.1 hfumble
  rw [hcritical] at hfumble
  revert hfumble
  decide

/-- **Criticals and fumbles are read from the draws of the first lone d20 and from nothing else.**
Without a lone d20 a roll is neither.  With one, where the groups before the first have `p` dice
between them, draw `p` decides in the normal mode, and draws `p` and `p + 1` do in the others.  No
roll is both.  Any other roll in the same mode that has the same draws there, of whatever formula,
with whatever modifier and from whatever roller, is a critical or a fumble just when this one is. -/
theorem roll_natural {f : Formula} (hf : f.Available) (hlength : f.groups.length ≤ 2 ^ 40)
    (mode : Mode) (modifier : Int) {roller after : σ} {faces : List Nat}
    (h : Deals roller (f.sizes mode) faces after) :
    ∃ r log, (f.roll mode modifier).run roller = ⟨.ok r, log, after⟩ ∧
      ((∀ g ∈ f.groups, g.isLoneD20 = false) ∨ ∃ p, f.NaturalAt p) ∧
      ((∀ g ∈ f.groups, g.isLoneD20 = false) → r.critical = false ∧ r.fumble = false) ∧
      (∀ p, f.NaturalAt p →
        (r.critical = true ↔ mode.Critical faces[p]? faces[p + 1]?) ∧
          (r.fumble = true ↔ mode.Fumble faces[p]? faces[p + 1]?)) ∧
      ¬(r.critical = true ∧ r.fumble = true) ∧
      ∀ (f' : Formula) (modifier' : Int) (roller' after' : σ) (faces' : List Nat) (r' : Roll)
        (log' : List Event), f'.Available → f'.groups.length ≤ 2 ^ 40 →
        Deals roller' (f'.sizes mode) faces' after' →
        (f'.roll mode modifier').run roller' = ⟨.ok r', log', after'⟩ →
        ∀ p p', f.NaturalAt p → f'.NaturalAt p' → faces[p]? = faces'[p']? →
          (mode ≠ .normal → faces[p + 1]? = faces'[p' + 1]?) →
          r.critical = r'.critical ∧ r.fumble = r'.fumble := by
  refine ⟨_, _, Formula.run_roll hf.playable hlength modifier h, forall_or_naturalAt f,
    fun hnone => flags_eq_false hnone mode modifier faces, fun p hp => flags_iff h hp modifier,
    not_critical_and_fumble f mode modifier faces, ?_⟩
  intro f' modifier' roller' after' faces' r' log' hf' hlength' h' hrun p p' hp hp' hdraw hdraw'
  rw [Formula.run_roll hf'.playable hlength' modifier' h', Aftermath.mk.injEq,
    Except.ok.injEq] at hrun
  obtain ⟨rfl, -, -⟩ := hrun
  obtain ⟨hcritical, hfumble⟩ := flags_iff h hp modifier
  obtain ⟨hcritical', hfumble'⟩ := flags_iff h' hp' modifier'
  rw [hdraw, critical_congr hdraw', ← hcritical'] at hcritical
  rw [hdraw, fumble_congr hdraw', ← hfumble'] at hfumble
  exact ⟨Bool.eq_iff_iff.2 hcritical, Bool.eq_iff_iff.2 hfumble⟩

/-- With advantage, a 20 on the second draw of the d20 makes a critical of a formula in which four
dice come before it, whatever they show. -/
theorem roll_natural_mixed :
    Formula.mixed.NaturalAt 4 ∧
      Deals (⟨[1, 2, 3, 4, 5, 20, 1, 1, 9]⟩ : Script) (Formula.mixed.sizes .advantage)
        [1, 2, 3, 4, 5, 20, 1, 1] ⟨[9]⟩ ∧
      ∃ r log, (Formula.mixed.roll .advantage 2).run (⟨[1, 2, 3, 4, 5, 20, 1, 1, 9]⟩ : Script) =
        ⟨.ok r, log, ⟨[9]⟩⟩ ∧ r.critical = true ∧ ¬r.fumble = true := by
  have hnatural : Formula.mixed.NaturalAt 4 :=
    ⟨[⟨.plus, 4, 6, some ⟨.highest, 3⟩⟩], ⟨.plus, 1, 20, none⟩, [⟨.minus, 2, 4, none⟩], rfl,
      by simp [Group.isLoneD20], rfl, rfl⟩
  have hfaces : List.Forall₂ (fun sides value => 1 ≤ value ∧ value ≤ sides)
      (Formula.mixed.sizes .advantage) [1, 2, 3, 4, 5, 20, 1, 1] := by decide
  have hdeals := Deals.script hfaces [9]
  obtain ⟨r, log, hrun, -, -, hflags, hboth, -⟩ :=
    roll_natural available_mixed (by decide) .advantage 2 hdeals
  have hcritical : r.critical = true := (hflags 4 hnatural).1.2 (.inr rfl)
  exact ⟨hnatural, hdeals, r, log, hrun, hcritical, fun hfumble => hboth ⟨hcritical, hfumble⟩⟩

end Dicebag
