import Dicebag.Proofs.Roll.Tally

/-!
# Where a roll stops

A roller may have no answer when it is asked for a die, and its answer may be a face that the die
does not have.  Either ends the roll on the spot.  This module says that nothing else does: a roll
of a formula that play can make goes on as long as the draws are good, and stops at the first that
is not, before any other is made.

* `Stops` is the counterpart of `Deals`: the roller gives good faces for the first few dice and
  fails at the next.  For any dice every roller does one or the other (`deals_or_stops`).
* `run_rollThrows_of_stops` follows a failing draw through the throws.  The throws before it are
  rolled as they are dealt, so the running sum has room up to the end, as it has in a roll that
  succeeds.  What they leave in the log is all that is logged, with the dice of the throw that the
  failure falls in (`CutShort`).
* `Roller.draws` lists what a roller answers, die by die, and `GoodDraw` and `FirstBadDraw` read the
  list by number.  `roll_stops_at_first_bad_draw` is stated with these.
-/

set_option autoImplicit false

namespace Dicebag

variable {σ : Type} [Roller σ]

/-! ## Rollers that fail -/

/-- A roller that is asked for dice of these sizes in turn gives good faces for some of them and
then ends the roll: with a fault of its own, or with a face that is not on the die.  The last state
is the one after the draw that failed. -/
inductive Stops : σ → List Nat → Fault → σ → Prop
  /-- There is no answer for the next die. -/
  | missing {roller after : σ} {sides : Nat} {sizes : List Nat} {fault : Fault}
      (drawn : Roller.roll sides roller = (.error fault, after)) :
      Stops roller (sides :: sizes) fault after
  /-- The answer for the next die is not one of its faces. -/
  | impossible {roller after : σ} {sides value : Nat} {sizes : List Nat}
      (drawn : Roller.roll sides roller = (.ok value, after)) (out : ¬(1 ≤ value ∧ value ≤ sides)) :
      Stops roller (sides :: sizes) (.impossibleFace value sides) after
  /-- A good face is given, and the failure comes later. -/
  | later {roller next after : σ} {sides value : Nat} {sizes : List Nat} {fault : Fault}
      (drawn : Roller.roll sides roller = (.ok value, next)) (least : 1 ≤ value)
      (most : value ≤ sides) (rest : Stops next sizes fault after) :
      Stops roller (sides :: sizes) fault after

/-- A roller fails at a die: it has no answer, or one that is not a face of the die. -/
inductive Fails (roller : σ) (sides : Nat) : Fault → σ → Prop
  /-- There is no answer. -/
  | missing {after : σ} {fault : Fault} (drawn : Roller.roll sides roller = (.error fault, after)) :
      Fails roller sides fault after
  /-- The answer is not one of its faces. -/
  | impossible {after : σ} {value : Nat} (drawn : Roller.roll sides roller = (.ok value, after))
      (out : ¬(1 ≤ value ∧ value ≤ sides)) : Fails roller sides (.impossibleFace value sides) after

/-- **A roller deals all dice that it is asked for, or it stops at one of them.** -/
theorem deals_or_stops (roller : σ) (sizes : List Nat) :
    (∃ faces after, Deals roller sizes faces after) ∨
      ∃ fault after, Stops roller sizes fault after := by
  induction sizes generalizing roller with
  | nil => exact .inl ⟨[], roller, .nil roller⟩
  | cons sides sizes ih =>
    rcases hdrawn : Roller.roll sides roller with ⟨answer, next⟩
    cases answer with
    | error fault => exact .inr ⟨fault, next, .missing hdrawn⟩
    | ok value =>
      by_cases hface : 1 ≤ value ∧ value ≤ sides
      · rcases ih next with ⟨faces, after, h⟩ | ⟨fault, after, h⟩
        · exact .inl ⟨value :: faces, after, .cons hdrawn hface.1 hface.2 h⟩
        · exact .inr ⟨fault, after, .later hdrawn hface.1 hface.2 h⟩
      · exact .inr ⟨_, next, .impossible hdrawn hface⟩

/-- A roller that stops at one of two rows of dice stops at the first, or deals it and stops at the
second. -/
theorem Stops.of_append {roller after : σ} {sizes sizes' : List Nat} {fault : Fault}
    (h : Stops roller (sizes ++ sizes') fault after) :
    Stops roller sizes fault after ∨
      ∃ faces mid, Deals roller sizes faces mid ∧ Stops mid sizes' fault after := by
  induction sizes generalizing roller with
  | nil => exact .inr ⟨[], roller, .nil roller, h⟩
  | cons sides sizes ih =>
    cases h with
    | missing drawn => exact .inl (.missing drawn)
    | impossible drawn out => exact .inl (.impossible drawn out)
    | later drawn least most rest =>
      rcases ih rest with h | ⟨faces, mid, h, h'⟩
      · exact .inl (.later drawn least most h)
      · exact .inr ⟨_ :: faces, mid, .cons drawn least most h, h'⟩

/-! ## Rolling up to the failure -/

/-- A die without an answer ends the roll with the fault of the roller. -/
theorem run_rollDie_of_missing {roller after : σ} {sides : Nat} {fault : Fault}
    (drawn : Roller.roll sides roller = (.error fault, after)) :
    (rollDie sides).run roller = ⟨.error fault, [], after⟩ :=
  Rolling.run_bind_of_fault (run_draw_of_roll drawn)

/-- A face that is not on the die ends the roll after it was drawn. -/
theorem run_rollDie_of_impossible {roller after : σ} {sides value : Nat}
    (drawn : Roller.roll sides roller = (.ok value, after)) (out : ¬(1 ≤ value ∧ value ≤ sides)) :
    (rollDie sides).run roller = ⟨.error (.impossibleFace value sides), [], after⟩ := by
  rw [rollDie, Rolling.run_bind_of_run (run_draw_of_roll drawn), if_neg out]
  rfl

/-- **Dice of one size stop where the roller stops**, with a record for each that was dealt. -/
theorem run_rollDice_of_stops {roller after : σ} {sides n : Nat} {fault : Fault}
    (h : Stops roller (List.replicate n sides) fault after) :
    ∃ row last, row.length < n ∧ Deals roller (List.replicate row.length sides) row last ∧
      Fails last sides fault after ∧
      (rollDice sides n).run roller = ⟨.error fault, row.map (Event.rolledDie sides), after⟩ := by
  induction n generalizing roller with
  | zero => cases h
  | succ n ih =>
    rw [rollDice]
    cases h with
    | missing drawn =>
      exact ⟨[], roller, Nat.zero_lt_succ n, .nil roller, .missing drawn,
        Rolling.run_bind_of_fault (run_rollDie_of_missing drawn)⟩
    | impossible drawn out =>
      exact ⟨[], roller, Nat.zero_lt_succ n, .nil roller, .impossible drawn out,
        Rolling.run_bind_of_fault (run_rollDie_of_impossible drawn out)⟩
    | later drawn least most rest =>
      obtain ⟨row, last, hlt, hrow, hfails, hrest⟩ := ih rest
      refine ⟨_ :: row, last, Nat.succ_lt_succ hlt, .cons drawn least most hrow, hfails, ?_⟩
      rw [Rolling.run_bind_of_run (run_rollDie drawn least most), Rolling.run_map, hrest]
      rfl

/-- A roller completes some of the throws, deals some of the dice of the next and then fails.  The
events are what that leaves in the log: no die is set aside of the throw that is not complete. -/
inductive CutShort (roller : σ) (ts : List Throw) (fault : Fault) (after : σ) : List Event → Prop
  /-- The throws before the failure, and the one that it happens in. -/
  | intro {before later : List Throw} {t : Throw} {faces row : List Nat} {mid last : σ}
      (throws : ts = before ++ t :: later)
      (complete : Deals roller (before.flatMap Throw.sizes) faces mid)
      (begun : Deals mid (List.replicate row.length t.sides) row last)
      (short : row.length < t.count) (fails : Fails last t.sides fault after) :
      CutShort roller ts fault after (dealEvents before faces ++ row.map (Event.rolledDie t.sides))

/-- A throw that is completed comes before those after it, which are cut short. -/
theorem CutShort.cons {roller mid after : σ} {t : Throw} {ts : List Throw} {share : List Nat}
    {fault : Fault} {log : List Event} (hshare : Deals roller t.sizes share mid)
    (h : CutShort mid ts fault after log) :
    CutShort roller (t :: ts) fault after (t.events share ++ log) := by
  rcases h with @⟨before, later, t', faces, row, next, last, throws, complete, begun, short, fails⟩
  have hlength : share.length = t.count := hshare.length_eq.trans t.length_sizes
  have hevents : t.events share ++ (dealEvents before faces ++ row.map (Event.rolledDie t'.sides)) =
      dealEvents (t :: before) (share ++ faces) ++ row.map (Event.rolledDie t'.sides) := by
    rw [dealEvents, List.take_left' hlength, List.drop_left' hlength, List.append_assoc]
  rw [hevents]
  exact .intro (by rw [throws, List.cons_append]) (hshare.append complete) begun short fails

/-- **Throws stop where the roller stops**, whatever lies in the row and whatever the subtotal is,
if there is room for all of them. -/
theorem run_rollThrows_of_stops {ts : List Throw} {most start : Nat} {subtotal : Int}
    {roller after : σ} {fault : Fault} (hmost : ∀ t ∈ ts, t.count * t.sides ≤ most)
    (hroom : subtotal.natAbs + ts.length * most ≤ Total.greatest.toNat)
    (h : Stops roller (ts.flatMap Throw.sizes) fault after) :
    ∃ log, CutShort roller ts fault after log ∧
      (rollThrows start subtotal ts).run roller = ⟨.error fault, log, after⟩ := by
  induction ts generalizing start subtotal roller with
  | nil => cases h
  | cons t ts ih =>
    obtain ⟨ht, hts⟩ := List.forall_mem_cons.1 hmost
    rw [List.flatMap_cons] at h
    rw [rollThrows]
    rcases h.of_append with hfirst | ⟨share, mid, hfirst, hrest⟩
    · obtain ⟨row, last, hlt, hrow, hfails, hdice⟩ := run_rollDice_of_stops hfirst
      exact ⟨_, .intro (List.nil_append _).symm (.nil roller) hrow hlt hfails,
        Rolling.run_bind_of_fault (Rolling.run_bind_of_fault hdice)⟩
    · obtain ⟨hadd, hroom⟩ := addTo?_settle ht hroom hfirst
      obtain ⟨log, hcut, hrun⟩ : ∃ log, CutShort mid ts fault after log ∧
          (rollThrows (start + (t.settle share).length)
            (subtotal + t.score (t.settle share)) ts).run mid = ⟨.error fault, log, after⟩ :=
        ih hts hroom hrest
      refine ⟨_, hcut.cons hfirst, ?_⟩
      rw [Rolling.run_bind_of_run (Throw.run_roll hfirst), hadd]
      simp only [Rolling.run_map, hrun]
      rfl

/-- A roll of a playable formula leaves in the log what it did before the failure. -/
theorem Formula.run_roll_cutShort {f : Formula} (hf : f.Playable)
    (hlength : f.groups.length ≤ 2 ^ 40) {mode : Mode} (modifier : Int) {roller after : σ}
    {fault : Fault} (h : Stops roller (f.sizes mode) fault after) :
    ∃ log, CutShort roller (f.throws mode) fault after log ∧
      (f.roll mode modifier).run roller = ⟨.error fault, log, after⟩ := by
  have hroom : (0 : Int).natAbs + (f.throws mode).length * throwLimit ≤ Total.greatest.toNat := by
    rw [Int.natAbs_zero, Nat.zero_add]
    exact throws_le_greatest hlength mode
  rw [← flatMap_sizes_throws] at h
  obtain ⟨log, hcut, hthrows⟩ : ∃ log, CutShort roller (f.throws mode) fault after log ∧
      (rollThrows 0 0 (f.throws mode)).run roller = ⟨.error fault, log, after⟩ :=
    run_rollThrows_of_stops (throw_le_throwLimit hf) hroom h
  exact ⟨log, hcut, Rolling.run_bind_of_fault hthrows⟩

/-- **A roll of a playable formula stops where the roller stops.** -/
theorem Formula.run_roll_of_stops {f : Formula} (hf : f.Playable)
    (hlength : f.groups.length ≤ 2 ^ 40) {mode : Mode} (modifier : Int) {roller after : σ}
    {fault : Fault} (h : Stops roller (f.sizes mode) fault after) :
    ∃ log, (f.roll mode modifier).run roller = ⟨.error fault, log, after⟩ := by
  obtain ⟨log, -, hrun⟩ := run_roll_cutShort hf hlength modifier h
  exact ⟨log, hrun⟩

/-! ## Draws by number -/

/-- The dice that a roller is asked for, one after another, each with its answer. -/
def Roller.draws (roller : σ) : List Nat → List (Nat × Except Fault Nat)
  | [] => []
  | sides :: sizes =>
    (sides, (Roller.roll sides roller).1) :: Roller.draws (Roller.roll sides roller).2 sizes

/-- The roller after it was asked for these dice, one after another. -/
def Roller.after (roller : σ) : List Nat → σ
  | [] => roller
  | sides :: sizes => Roller.after (Roller.roll sides roller).2 sizes

/-- The roller has an answer for die number `i`, and it is one of its faces. -/
def GoodDraw (roller : σ) (sizes : List Nat) (i : Nat) : Prop :=
  ∃ sides value, (Roller.draws roller sizes)[i]? = some (sides, .ok value) ∧ 1 ≤ value ∧
    value ≤ sides

/-- The draw of die number `i` fails, and the fault says how. -/
inductive BadDraw (roller : σ) (sizes : List Nat) (i : Nat) : Fault → Prop
  /-- The roller has a fault in the place of an answer. -/
  | missing {sides : Nat} {fault : Fault}
      (drawn : (Roller.draws roller sizes)[i]? = some (sides, .error fault)) :
      BadDraw roller sizes i fault
  /-- The roller has an answer, but it is no face of the die. -/
  | impossible {sides value : Nat}
      (drawn : (Roller.draws roller sizes)[i]? = some (sides, .ok value))
      (out : ¬(1 ≤ value ∧ value ≤ sides)) : BadDraw roller sizes i (.impossibleFace value sides)

/-- The draw of die number `i` fails, and all draws before it are good. -/
structure FirstBadDraw (roller : σ) (sizes : List Nat) (i : Nat) (fault : Fault) : Prop where
  /-- No draw before it fails. -/
  before : ∀ j < i, GoodDraw roller sizes j
  /-- It fails. -/
  bad : BadDraw roller sizes i fault

/-! ### The draws of a roller that deals, and of one that stops -/

theorem draws_cons {roller next : σ} {sides : Nat} {answer : Except Fault Nat}
    (drawn : Roller.roll sides roller = (answer, next)) (sizes : List Nat) :
    Roller.draws roller (sides :: sizes) = (sides, answer) :: Roller.draws next sizes := by
  rw [Roller.draws, drawn]

theorem after_cons {roller next : σ} {sides : Nat} {answer : Except Fault Nat}
    (drawn : Roller.roll sides roller = (answer, next)) (sizes : List Nat) :
    Roller.after roller (sides :: sizes) = Roller.after next sizes := by
  rw [Roller.after, drawn]

/-- The first draw is good, and the draws after it are those of the roller that it leaves. -/
theorem goodDraw_cons {roller next : σ} {sides value : Nat} {sizes : List Nat}
    (drawn : Roller.roll sides roller = (.ok value, next)) (least : 1 ≤ value)
    (most : value ≤ sides) {n : Nat} (h : ∀ i < n, GoodDraw next sizes i) :
    ∀ i < n + 1, GoodDraw roller (sides :: sizes) i := by
  intro i hi
  rw [GoodDraw, draws_cons drawn]
  cases i with
  | zero => exact ⟨sides, value, rfl, least, most⟩
  | succ i => exact h i (Nat.lt_of_succ_lt_succ hi)

theorem BadDraw.succ {roller next : σ} {sides : Nat} {sizes : List Nat} {answer : Except Fault Nat}
    (drawn : Roller.roll sides roller = (answer, next)) {i : Nat} {fault : Fault}
    (h : BadDraw next sizes i fault) : BadDraw roller (sides :: sizes) (i + 1) fault := by
  cases h with
  | missing h => exact .missing (by rw [draws_cons drawn]; exact h)
  | impossible h out => exact .impossible (by rw [draws_cons drawn]; exact h) out

/-- A roller that deals makes good draws only. -/
theorem Deals.goodDraw {roller after : σ} {sizes faces : List Nat}
    (h : Deals roller sizes faces after) :
    (∀ i < sizes.length, GoodDraw roller sizes i) ∧ Roller.after roller sizes = after := by
  induction h with
  | nil => exact ⟨fun i hi => absurd hi (Nat.not_lt_zero i), rfl⟩
  | cons drawn least most _ ih =>
    exact ⟨goodDraw_cons drawn least most ih.1, (after_cons drawn _).trans ih.2⟩

/-- Where the first draw fails, it is the first that does. -/
theorem Fails.firstBadDraw {roller after : σ} {sides : Nat} {fault : Fault}
    (h : Fails roller sides fault after) (sizes : List Nat) :
    FirstBadDraw roller (sides :: sizes) 0 fault := by
  refine ⟨fun j hj => absurd hj (Nat.not_lt_zero j), ?_⟩
  cases h with
  | missing drawn => exact .missing (by rw [draws_cons drawn]; rfl)
  | impossible drawn out => exact .impossible (by rw [draws_cons drawn]; rfl) out

/-- After a good draw the first bad one has the next number. -/
theorem FirstBadDraw.succ {roller next : σ} {sides value : Nat} {sizes : List Nat} {i : Nat}
    {fault : Fault} (drawn : Roller.roll sides roller = (.ok value, next)) (least : 1 ≤ value)
    (most : value ≤ sides) (h : FirstBadDraw next sizes i fault) :
    FirstBadDraw roller (sides :: sizes) (i + 1) fault :=
  ⟨goodDraw_cons drawn least most h.before, h.bad.succ drawn⟩

/-- **A roller that stops does so at its first bad draw.** -/
theorem Stops.exists_firstBadDraw {roller after : σ} {sizes : List Nat} {fault : Fault}
    (h : Stops roller sizes fault after) :
    ∃ i < sizes.length, FirstBadDraw roller sizes i fault ∧
      Roller.after roller (sizes.take (i + 1)) = after := by
  induction h with
  | missing drawn =>
    exact ⟨0, Nat.zero_lt_succ _, (Fails.missing drawn).firstBadDraw _, after_cons drawn []⟩
  | impossible drawn out =>
    exact ⟨0, Nat.zero_lt_succ _, (Fails.impossible drawn out).firstBadDraw _, after_cons drawn []⟩
  | later drawn least most _ ih =>
    obtain ⟨i, hi, hbad, hafter⟩ := ih
    exact ⟨i + 1, Nat.succ_lt_succ hi, hbad.succ drawn least most,
      (after_cons drawn _).trans hafter⟩

/-! ### One draw is good or bad -/

theorem BadDraw.not_goodDraw {roller : σ} {sizes : List Nat} {i : Nat} {fault : Fault}
    (h : BadDraw roller sizes i fault) : ¬GoodDraw roller sizes i := by
  rintro ⟨sides, value, hdrawn, hface⟩
  cases h with
  | missing drawn =>
    rw [hdrawn] at drawn
    cases drawn
  | impossible drawn out =>
    rw [hdrawn] at drawn
    cases drawn
    exact out hface

theorem BadDraw.unique {roller : σ} {sizes : List Nat} {i : Nat} {fault fault' : Fault}
    (h : BadDraw roller sizes i fault) (h' : BadDraw roller sizes i fault') : fault = fault' := by
  cases h with
  | missing drawn =>
    cases h' with
    | missing drawn' =>
      rw [drawn] at drawn'
      cases drawn'
      rfl
    | impossible drawn' _ =>
      rw [drawn] at drawn'
      cases drawn'
  | impossible drawn _ =>
    cases h' with
    | missing drawn' =>
      rw [drawn] at drawn'
      cases drawn'
    | impossible drawn' _ =>
      rw [drawn] at drawn'
      cases drawn'
      rfl

/-- There is one first bad draw at most. -/
theorem FirstBadDraw.unique {roller : σ} {sizes : List Nat} {i i' : Nat} {fault fault' : Fault}
    (h : FirstBadDraw roller sizes i fault) (h' : FirstBadDraw roller sizes i' fault') :
    i = i' ∧ fault = fault' := by
  obtain rfl : i = i' := by
    refine Nat.le_antisymm (Nat.le_of_not_lt fun hlt => ?_) (Nat.le_of_not_lt fun hlt => ?_)
    · exact h'.bad.not_goodDraw (h.before i' hlt)
    · exact h.bad.not_goodDraw (h'.before i hlt)
  exact ⟨rfl, h.bad.unique h'.bad⟩

theorem length_draws (roller : σ) (sizes : List Nat) :
    (Roller.draws roller sizes).length = sizes.length := by
  induction sizes generalizing roller with
  | nil => rfl
  | cons sides sizes ih => rw [Roller.draws, List.length_cons, List.length_cons, ih]

/-- Only the dice that are asked for can be drawn. -/
theorem BadDraw.lt {roller : σ} {sizes : List Nat} {i : Nat} {fault : Fault}
    (h : BadDraw roller sizes i fault) : i < sizes.length := by
  rw [← length_draws roller sizes]
  cases h with
  | missing drawn => exact (List.getElem?_eq_some_iff.1 drawn).1
  | impossible drawn _ => exact (List.getElem?_eq_some_iff.1 drawn).1

/-! ## The roll -/

/-- The answer number `i` of a script that holds these faces: a face, as long as there is one. -/
def scriptAnswer (faces : List Nat) (i : Nat) : Except Fault Nat :=
  match faces[i]? with
  | some value => .ok value
  | none => .error .exhausted

theorem draws_script (faces sizes : List Nat) (i : Nat) :
    (Roller.draws (⟨faces⟩ : Script) sizes)[i]? =
      sizes[i]?.map fun sides => (sides, scriptAnswer faces i) := by
  induction sizes generalizing faces i with
  | nil => rfl
  | cons sides sizes ih =>
    cases faces with
    | nil =>
      have hdrawn : Roller.roll sides (⟨[]⟩ : Script) = (.error .exhausted, ⟨[]⟩) := rfl
      rw [draws_cons hdrawn]
      cases i with
      | zero => rfl
      | succ i => exact ih [] i
    | cons value faces =>
      have hdrawn : Roller.roll sides (⟨value :: faces⟩ : Script) = (.ok value, ⟨faces⟩) := rfl
      rw [draws_cons hdrawn]
      cases i with
      | zero => rfl
      | succ i => exact ih faces i

/-- A script loses a face for every die that it is asked for, until there is none. -/
theorem after_script (faces sizes : List Nat) :
    Roller.after (⟨faces⟩ : Script) sizes = ⟨faces.drop sizes.length⟩ := by
  induction sizes generalizing faces with
  | nil => rfl
  | cons sides sizes ih =>
    cases faces with
    | nil => exact (ih []).trans (by rw [List.drop_nil, List.drop_nil])
    | cons value faces => exact ih faces

/-- What the draws of a roller decide about a roll that asks for dice of these sizes. -/
structure DecidedByDraws (roller : σ) (sizes : List Nat) (run : Aftermath σ Roll) : Prop where
  /-- There is a result just when all draws are good. -/
  completes : (∃ r, run.answer = .ok r) ↔ ∀ i < sizes.length, GoodDraw roller sizes i
  /-- Then these draws were made, and no other. -/
  drawn : ∀ r, run.answer = .ok r → run.roller = Roller.after roller sizes
  /-- There is a fault just when some draw is bad, and it is the fault of the first. -/
  stops : ∀ fault, run.answer = .error fault ↔ ∃ i, FirstBadDraw roller sizes i fault
  /-- Then the draws up to this one were made, and no other. -/
  drawnUpTo : ∀ i fault, FirstBadDraw roller sizes i fault →
    run.roller = Roller.after roller (sizes.take (i + 1))

theorem Deals.decided {roller after : σ} {sizes faces : List Nat}
    (h : Deals roller sizes faces after) (r : Roll) (log : List Event) :
    DecidedByDraws roller sizes ⟨.ok r, log, after⟩ := by
  obtain ⟨hgood, hafter⟩ := h.goodDraw
  have hnone : ∀ i fault, ¬FirstBadDraw roller sizes i fault :=
    fun i fault hbad => hbad.bad.not_goodDraw (hgood i hbad.bad.lt)
  refine
    { completes := ⟨fun _ => hgood, fun _ => ⟨r, rfl⟩⟩
      drawn := fun _ _ => hafter.symm
      stops := fun fault => ⟨fun herror => ?_, ?_⟩
      drawnUpTo := fun i fault hbad => absurd hbad (hnone i fault) }
  · cases herror
  · rintro ⟨i, hbad⟩
    exact absurd hbad (hnone i fault)

theorem Stops.decided {roller after : σ} {sizes : List Nat} {fault : Fault}
    (h : Stops roller sizes fault after) (log : List Event) :
    DecidedByDraws roller sizes ⟨.error fault, log, after⟩ := by
  obtain ⟨i, hi, hbad, hafter⟩ := h.exists_firstBadDraw
  refine
    { completes := ⟨?_, fun hgood => absurd (hgood i hi) hbad.bad.not_goodDraw⟩
      drawn := fun r hr => ?_
      stops := fun fault' => ⟨fun herror => ?_, ?_⟩
      drawnUpTo := fun i' fault' hbad' => ?_ }
  · rintro ⟨r, hr⟩
    cases hr
  · cases hr
  · cases herror
    exact ⟨i, hbad⟩
  · rintro ⟨i', hbad'⟩
    rw [(hbad'.unique hbad).2]
  · rw [(hbad'.unique hbad).1]
    exact hafter.symm

/-- **A roll stops at its first bad draw, and ends with a result if there is none.**  It asks for
the dice of the formula, one more if there is a lone d20 to throw twice over, in the order of the
groups.  If the roller has no answer for one of them, the roll ends with the fault of the roller,
and if the answer is no face of the die, with a fault that names the two; either way no other draw
is made.  A script, whatever faces it holds, answers with these in turn and keeps those that were
not drawn. -/
theorem roll_stops_at_first_bad_draw {f : Formula} (hf : f.Available)
    (hlength : f.groups.length ≤ 2 ^ 40) (mode : Mode) (modifier : Int) (roller : σ) :
    (f.sizes mode).length = (f.groups.map Group.count).sum +
        (if mode ≠ .normal ∧ f.advantageGroup.isSome then 1 else 0) ∧
      DecidedByDraws roller (f.sizes mode) ((f.roll mode modifier).run roller) ∧
      (∀ value sides, (Fault.impossibleFace value sides).message =
        "roller produced " ++ toString value ++ " for a d" ++ toString sides) ∧
      ∀ faces sizes : List Nat, Roller.after (⟨faces⟩ : Script) sizes = ⟨faces.drop sizes.length⟩ ∧
        ∀ i, (Roller.draws (⟨faces⟩ : Script) sizes)[i]? =
          sizes[i]?.map fun sides => (sides, scriptAnswer faces i) := by
  refine ⟨length_sizes f mode, ?_, fun _ _ => rfl,
    fun faces sizes => ⟨after_script faces sizes, draws_script faces sizes⟩⟩
  rcases deals_or_stops roller (f.sizes mode) with ⟨faces, after, h⟩ | ⟨fault, after, h⟩
  · rw [Formula.run_roll hf.playable hlength modifier h]
    exact h.decided _ _
  · obtain ⟨log, hrun⟩ := Formula.run_roll_of_stops hf.playable hlength modifier h
    rw [hrun]
    exact h.decided log

/-- A face that no d20 has, on the die that advantage adds; and a script that is too short. -/
theorem roll_stops_at_first_bad_draw_mixed :
    Formula.mixed.Available ∧ Formula.mixed.groups.length ≤ 2 ^ 40 ∧
      (let run := (Formula.mixed.roll .advantage 0).run (⟨[1, 2, 3, 4, 5, 21, 1, 1]⟩ : Script)
      run.answer = .error (.impossibleFace 21 20) ∧ run.roller = ⟨[1, 1]⟩) ∧
      (let run := (Formula.mixed.roll .advantage 0).run (⟨[6, 6]⟩ : Script)
      run.answer = .error .exhausted ∧ run.roller = ⟨[]⟩) := by
  have hlength : Formula.mixed.groups.length ≤ 2 ^ 40 := by decide
  have hextra : FirstBadDraw (⟨[1, 2, 3, 4, 5, 21, 1, 1]⟩ : Script)
      (Formula.mixed.sizes .advantage) 5 (.impossibleFace 21 20) := by
    refine ⟨fun j hj => ?_, .impossible rfl (by decide)⟩
    have hj : j = 0 ∨ j = 1 ∨ j = 2 ∨ j = 3 ∨ j = 4 := by omega
    rcases hj with rfl | rfl | rfl | rfl | rfl <;> exact ⟨_, _, rfl, by decide, by decide⟩
  have hshort : FirstBadDraw (⟨[6, 6]⟩ : Script) (Formula.mixed.sizes .advantage) 2 .exhausted := by
    refine ⟨fun j hj => ?_, .missing rfl⟩
    have hj : j = 0 ∨ j = 1 := by omega
    rcases hj with rfl | rfl <;> exact ⟨_, _, rfl, by decide, by decide⟩
  have hbad := roll_stops_at_first_bad_draw available_mixed hlength .advantage 0
    (⟨[1, 2, 3, 4, 5, 21, 1, 1]⟩ : Script)
  have hmissing := roll_stops_at_first_bad_draw available_mixed hlength .advantage 0
    (⟨[6, 6]⟩ : Script)
  exact ⟨available_mixed, hlength,
    ⟨(hbad.2.1.stops _).2 ⟨5, hextra⟩, hbad.2.1.drawnUpTo 5 _ hextra⟩,
    (hmissing.2.1.stops _).2 ⟨2, hshort⟩, hmissing.2.1.drawnUpTo 2 _ hshort⟩

end Dicebag
