import Dicebag.Log

/-!
# Setting dice aside

Some of the dice of a group may not count.  A `Rule` says which:

* a keep suffix ranks the dice by their faces and sets aside all but the first few
  (`Keep.ranking`); of two dice that show the same face the earlier one ranks first;
* of the two d20 of a roll with advantage or disadvantage the worse or the better is set aside, and
  the second of them if they show the same face;
* otherwise all dice count.

`Rule.apply` marks the dice and lists what was set aside.  Marking changes neither the faces nor the
order of the dice.
-/

set_option autoImplicit false

namespace Dicebag

/-! ## Ranking -/

/-- A die showing `a` ranks before one showing `b`, whichever comes first. -/
def KeepMode.prefers (mode : KeepMode) (a b : Nat) : Bool :=
  match mode with
  | highest => b < a
  | lowest => a < b

/-- A die and its place rank no later than another: it is preferred, or shows the same face and
comes no later. -/
def KeepMode.ranksBefore (mode : KeepMode) (a b : Die × Nat) : Bool :=
  mode.prefers a.1.value b.1.value || (a.1.value == b.1.value && a.2 ≤ b.2)

/-- The dice with their places, from the first to be kept to the last. -/
def Keep.ranking (keep : Keep) (dice : List Die) : List (Die × Nat) :=
  dice.zipIdx.mergeSort keep.mode.ranksBefore

/-- The dice that are not kept, with their places, in the order of the ranking. -/
def Keep.dropped (keep : Keep) (dice : List Die) : List (Die × Nat) :=
  (keep.ranking dice).drop keep.amount

/-- Marks the dice at the given places as set aside. -/
def setAside (places : List Nat) (dice : List Die) : List Die :=
  dice.zipIdx.map fun (d, i) => if places.contains i then { d with discarded := true } else d

/-! ## Rules -/

/-- Which dice of a group do not count. -/
inductive Rule
  /-- All of them count. -/
  | all
  /-- The best or worst few count. -/
  | keep (keep : Keep)
  /-- One of two dice counts, by the mode of the roll. -/
  | pick (mode : Mode)
deriving DecidableEq, Repr

/-- The second of two faces is the one that counts. -/
def Mode.secondWins (mode : Mode) (first second : Nat) : Bool :=
  match mode with
  | normal => false
  | advantage => first < second
  | disadvantage => second < first

namespace Rule

/-- Applies the rule to the dice of a group: the dice with those set aside marked, and the log. -/
def apply (rule : Rule) (dice : List Die) : List Die × List Event :=
  match rule with
  | all => (dice, [])
  | keep k =>
    let dropped := k.dropped dice
    (setAside (dropped.map Prod.snd) dice,
      dropped.map fun (d, i) => Event.droppedDie k i d.value)
  | pick mode =>
    match dice with
    | [first, second] =>
      match mode with
      | .normal => (dice, [])
      | _ =>
        if mode.secondWins first.value second.value then
          ([{ first with discarded := true }, second], [.droppedTwin mode first.value])
        else ([first, { second with discarded := true }], [.droppedTwin mode second.value])
    | _ => (dice, [])

end Rule

/-! ## Marking changes no face -/

/-- What a die shows, whether it counts or not. -/
def Die.face (d : Die) : Nat × Nat := (d.sides, d.value)

@[simp] theorem length_setAside (places : List Nat) (dice : List Die) :
    (setAside places dice).length = dice.length := by
  simp [setAside]

@[simp] theorem map_face_setAside (places : List Nat) (dice : List Die) :
    (setAside places dice).map Die.face = dice.map Die.face := by
  have h : (setAside places dice).map Die.face = (dice.zipIdx.map Prod.fst).map Die.face := by
    rw [setAside, List.map_map, List.map_map]
    refine List.map_congr_left fun p _ => ?_
    simp only [Function.comp]
    split <;> rfl
  rw [h, List.zipIdx_map_fst]

/-- **A rule leaves every die where it is, with the face that it shows.** -/
theorem Rule.map_face_apply (rule : Rule) (dice : List Die) :
    (rule.apply dice).1.map Die.face = dice.map Die.face := by
  cases rule with
  | all => rfl
  | keep k => simp [Rule.apply]
  | pick mode =>
    match dice with
    | [] => rfl
    | [_] => rfl
    | [first, second] =>
      cases mode with
      | normal => rfl
      | advantage => simp only [Rule.apply]; split <;> rfl
      | disadvantage => simp only [Rule.apply]; split <;> rfl
    | _ :: _ :: _ :: _ => rfl

end Dicebag
