import Mathlib.Data.List.Forall2
import Dicebag.Roll
import Dicebag.Roller.Scripted

/-!
# Rollers that deal faces

`Deals roller sizes faces after` says what a roller does when it is asked for dice of the given
sizes, one after another: it answers with these faces, each of which lies on its die, and is left as
`after`.  Nothing is said about how it comes by them, so a script, a counter and a generator can all
deal.  What the rolling of dice does is then said once for every roller:

* `run_rollDice` for dice of one size, which end up on the table as the roller dealt them;
* `Throw.run_roll` for a throw, which sets some of them aside.

Dealing is determined by the roller and the sizes (`Deals.unique`), and dealing for a row of sizes
that is split in two is dealing for the first part and then for the second (`Deals.append_iff`).  A
script deals what it has written down, as far as it goes (`Deals.script`), and a counter deals
whatever it is asked for (`Counter.deals`).
-/

set_option autoImplicit false

namespace Dicebag

variable {σ : Type} [Roller σ]

/-- A roller that is asked for dice of these sizes in turn gives these faces, all of which lie on
their dice, and is left in the last state. -/
inductive Deals : σ → List Nat → List Nat → σ → Prop
  /-- Nothing is asked for. -/
  | nil (roller : σ) : Deals roller [] [] roller
  /-- A face is given, and then the others. -/
  | cons {roller next after : σ} {sides value : Nat} {sizes faces : List Nat}
      (drawn : Roller.roll sides roller = (.ok value, next)) (least : 1 ≤ value)
      (most : value ≤ sides) (rest : Deals next sizes faces after) :
      Deals roller (sides :: sizes) (value :: faces) after

namespace Deals

/-! ## What is dealt -/

theorem length_eq {roller after : σ} {sizes faces : List Nat}
    (h : Deals roller sizes faces after) : faces.length = sizes.length := by
  induction h with
  | nil => rfl
  | cons _ _ _ _ ih => rw [List.length_cons, List.length_cons, ih]

/-- What is dealt lies on the dice. -/
theorem forall₂ {roller after : σ} {sizes faces : List Nat} (h : Deals roller sizes faces after) :
    List.Forall₂ (fun sides value => 1 ≤ value ∧ value ≤ sides) sizes faces := by
  induction h with
  | nil => exact .nil
  | cons _ least most _ ih => exact .cons ⟨least, most⟩ ih

theorem face_mem {roller after : σ} {sizes faces : List Nat} {most : Nat}
    (h : Deals roller sizes faces after) (hsizes : ∀ sides ∈ sizes, sides ≤ most) :
    ∀ value ∈ faces, 1 ≤ value ∧ value ≤ most := by
  induction h with
  | nil => exact List.forall_mem_nil _
  | cons _ hone hle _ ih =>
    obtain ⟨hsides, hrest⟩ := List.forall_mem_cons.1 hsizes
    exact List.forall_mem_cons.2 ⟨⟨hone, Nat.le_trans hle hsides⟩, ih hrest⟩

/-- A roller has no choice in what it deals. -/
theorem unique {roller after after' : σ} {sizes faces faces' : List Nat}
    (h : Deals roller sizes faces after) (h' : Deals roller sizes faces' after') :
    faces = faces' ∧ after = after' := by
  induction h generalizing faces' with
  | nil =>
    cases h'
    exact ⟨rfl, rfl⟩
  | cons drawn _ _ _ ih =>
    obtain _ | ⟨drawn', _, _, rest'⟩ := h'
    rw [drawn, Prod.mk.injEq, Except.ok.injEq] at drawn'
    obtain ⟨rfl, rfl⟩ := drawn'
    obtain ⟨rfl, rfl⟩ := ih rest'
    exact ⟨rfl, rfl⟩

theorem append {roller mid after : σ} {sizes sizes' faces faces' : List Nat}
    (h : Deals roller sizes faces mid) (h' : Deals mid sizes' faces' after) :
    Deals roller (sizes ++ sizes') (faces ++ faces') after := by
  induction h with
  | nil => exact h'
  | cons drawn least most _ ih => exact .cons drawn least most (ih h')

/-- **Dealing for two rows of sizes is dealing for the first and then for the second.** -/
theorem append_iff {roller after : σ} {sizes sizes' faces : List Nat} :
    Deals roller (sizes ++ sizes') faces after ↔
      ∃ mid, Deals roller sizes (faces.take sizes.length) mid ∧
        Deals mid sizes' (faces.drop sizes.length) after := by
  induction sizes generalizing roller faces with
  | nil =>
    refine ⟨fun h => ⟨roller, .nil roller, h⟩, fun ⟨mid, h, h'⟩ => ?_⟩
    cases h
    exact h'
  | cons sides sizes ih =>
    refine ⟨fun h => ?_, fun ⟨mid, h, h'⟩ => ?_⟩
    · obtain _ | ⟨drawn, least, most, rest⟩ := h
      obtain ⟨mid, h, h'⟩ := ih.1 rest
      exact ⟨mid, .cons drawn least most h, h'⟩
    · cases faces with
      | nil => cases h
      | cons value faces =>
        obtain _ | ⟨drawn, least, most, rest⟩ := h
        exact .cons drawn least most (ih.2 ⟨mid, rest, h'⟩)

/-- A script deals the faces that it has written down, if they lie on the dice. -/
theorem script {sizes faces : List Nat}
    (h : List.Forall₂ (fun sides value => 1 ≤ value ∧ value ≤ sides) sizes faces)
    (rest : List Nat) : Deals (⟨faces ++ rest⟩ : Script) sizes faces ⟨rest⟩ := by
  induction h with
  | nil => exact .nil _
  | cons hface _ ih => exact .cons rfl hface.1 hface.2 ih

end Deals

/-! ## Counters -/

namespace Counter

/-- The face that a count comes to lies on the die. -/
theorem face_mem (counter : Counter) {sides : Nat} (h : 1 ≤ sides) :
    1 ≤ counter.face sides ∧ counter.face sides ≤ sides :=
  ⟨Nat.succ_pos _, Nat.mod_lt _ h⟩

/-- It differs from the count by whole rounds of the die. -/
theorem face_mod (counter : Counter) {sides : Nat} (h : 1 ≤ sides) :
    counter.face sides % sides = counter.current % sides := by
  rw [face, Nat.mod_add_mod, Nat.add_assoc, Nat.sub_add_cancel h, Nat.add_mod_right]

/-- The faces that a counter comes to for a row of dice. -/
def faces (counter : Counter) : List Nat → List Nat
  | [] => []
  | sides :: sizes => counter.face sides :: counter.next.faces sizes

/-- The counter after so many dice. -/
def after (counter : Counter) (n : Nat) : Counter :=
  { counter with current := counter.current + n * counter.step }

theorem after_zero (counter : Counter) : counter.after 0 = counter := by
  rw [after, Nat.zero_mul, Nat.add_zero]

theorem after_next (counter : Counter) (n : Nat) : counter.next.after n = counter.after (n + 1) := by
  rw [after, after, next, Nat.add_mul, Nat.one_mul, Nat.add_assoc, Nat.add_comm counter.step]

/-- **A counter deals for every row of dice**, and grows by one step for each of them. -/
theorem deals (counter : Counter) {sizes : List Nat} (hsizes : ∀ sides ∈ sizes, 1 ≤ sides) :
    Deals counter sizes (counter.faces sizes) (counter.after sizes.length) := by
  induction sizes generalizing counter with
  | nil =>
    rw [List.length_nil, after_zero]
    exact .nil counter
  | cons sides sizes ih =>
    obtain ⟨hsides, hrest⟩ := List.forall_mem_cons.1 hsizes
    obtain ⟨hleast, hmost⟩ := counter.face_mem hsides
    have drawn : Roller.roll sides counter = (.ok (counter.face sides), counter.next) :=
      if_neg (Nat.pos_iff_ne_zero.1 hsides)
    rw [List.length_cons, ← after_next]
    exact .cons drawn hleast hmost (ih counter.next hrest)

example : faces ⟨5, 1⟩ [6, 6, 6, 6] = [5, 6, 1, 2] := rfl

end Counter

/-! ## Rolling what is dealt -/

/-- A die as it lands, before any is set aside. -/
def Die.fresh (sides value : Nat) : Die := ⟨sides, value, false⟩

theorem kept_of_mem_fresh (sides : Nat) (faces : List Nat) :
    ∀ d ∈ faces.map (Die.fresh sides), d.kept = true := by
  intro d hd
  obtain ⟨value, -, rfl⟩ := List.mem_map.1 hd
  rfl

theorem map_value_fresh (sides : Nat) (faces : List Nat) :
    (faces.map (Die.fresh sides)).map Die.value = faces := by
  rw [List.map_map]
  exact List.map_id faces

theorem run_draw_of_roll {roller next : σ} {sides : Nat} {answer : Except Fault Nat}
    (drawn : Roller.roll sides roller = (answer, next)) :
    (Rolling.draw sides : Rolling σ Nat).run roller = ⟨answer, [], next⟩ := by
  show (⟨_, _, _⟩ : Aftermath σ Nat) = _
  rw [drawn]

theorem run_rollDie {roller next : σ} {sides value : Nat}
    (drawn : Roller.roll sides roller = (.ok value, next)) (least : 1 ≤ value)
    (most : value ≤ sides) :
    (rollDie sides).run roller =
      ⟨.ok (Die.fresh sides value), [.rolledDie sides value], next⟩ := by
  rw [rollDie, Rolling.run_bind_of_run (run_draw_of_roll drawn), if_pos ⟨least, most⟩]
  rw [Rolling.run_bind_of_run (Rolling.run_record _ next)]
  rfl

/-- **Dice of one size lie on the table as they were dealt.** -/
theorem run_rollDice {roller after : σ} {sides n : Nat} {faces : List Nat}
    (h : Deals roller (List.replicate n sides) faces after) :
    (rollDice sides n).run roller =
      ⟨.ok (faces.map (Die.fresh sides)), faces.map (Event.rolledDie sides), after⟩ := by
  induction n generalizing roller faces with
  | zero =>
    cases h
    rfl
  | succ n ih =>
    obtain _ | ⟨drawn, least, most, rest⟩ := h
    rw [rollDice, Rolling.run_bind_of_run (run_rollDie drawn least most), Rolling.run_map, ih rest]
    rfl

/-- What the dice of a throw look like in the end if they show these faces. -/
def Throw.settle (t : Throw) (faces : List Nat) : List Die :=
  (t.rule.apply (faces.map (Die.fresh t.sides))).1

/-- What a throw that shows these faces leaves in the log. -/
def Throw.events (t : Throw) (faces : List Nat) : List Event :=
  faces.map (Event.rolledDie t.sides) ++ (t.rule.apply (faces.map (Die.fresh t.sides))).2

/-- **A throw rolls its dice as they are dealt and then sets some of them aside.** -/
theorem Throw.run_roll {roller after : σ} {t : Throw} {faces : List Nat}
    (h : Deals roller (List.replicate t.count t.sides) faces after) :
    t.roll.run roller = ⟨.ok (t.settle faces), t.events faces, after⟩ := by
  rw [Throw.roll, Rolling.run_bind_of_run (run_rollDice h)]
  rw [Rolling.run_bind_of_run (Rolling.run_record _ after), Rolling.run_pure, List.append_nil]
  rfl

end Dicebag
