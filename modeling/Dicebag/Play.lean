import Dicebag.Roll
import Dicebag.StandardDie

/-!
# Rolls of play

The rolls that a game asks for by name.  Each is a formula rolled in some mode, and what the game
reads off the result:

* `abilityScore` and `abilityScores`: four d6, the highest three, once or six times;
* `attack`: a d20 and, if the weapon is known, damage, whose dice are doubled on a critical;
* `deathSave`: a d20 against `deathSaveTarget`;
* `hitDie`: one die of some size, for hit points;
* `initiative`: a d20 with two modifiers.
-/

set_option autoImplicit false

namespace Dicebag

variable {σ : Type} [Roller σ]

/-! ## Ability scores -/

/-- Four d6 of which the highest three are kept. -/
def abilityFormula : Formula := .single ⟨.plus, 4, 6, some ⟨.highest, 3⟩⟩

/-- Rolls one ability score. -/
def abilityScore : Rolling σ Roll := abilityFormula.roll .normal 0

/-- The number of abilities. -/
def abilityCount : Nat := 6

/-- Rolls so many ability scores. -/
def abilityScoreList : Nat → Rolling σ (List Roll)
  | 0 => pure []
  | n + 1 => do
    let score ← abilityScore
    (score :: ·) <$> abilityScoreList n

/-- Rolls a score for each ability. -/
def abilityScores : Rolling σ (List Roll) := abilityScoreList abilityCount

/-! ## Attacks -/

/-- One d20. -/
def d20Formula : Formula := StandardDie.d20.formula 1

/-- An attack and the damage that was rolled for it, if any. -/
structure Attack where
  /-- The roll to hit. -/
  toHit : Roll
  /-- The damage. -/
  damage : Option Roll
deriving DecidableEq, Repr

namespace Attack

/-- The attack is a critical hit. -/
def critical (a : Attack) : Bool := a.toHit.critical

/-- The attack is a fumble. -/
def fumble (a : Attack) : Bool := a.toHit.fumble

/-- The damage that is dealt, never less than nothing. -/
def damageTotal (a : Attack) : Option Int := a.damage.map fun r => max r.total 0

end Attack

/-- Rolls for damage, with every die doubled if the hit was critical.  The mode of the attack has no
part in it. -/
def rollDamage (damage : Formula) (modifier : Int) (critical : Bool) : Rolling σ Roll :=
  if critical then do
    Rolling.record [.doubledDamage damage.doubled damage]
    damage.doubled.roll .normal modifier
  else damage.roll .normal modifier

/-- Rolls an attack, then its damage if there is any to roll. -/
def attack (modifier : Int) (damage : Option Formula) (damageModifier : Int) (mode : Mode) :
    Rolling σ Attack := do
  let toHit ← d20Formula.roll mode modifier
  match damage with
  | none => pure ⟨toHit, none⟩
  | some f => (fun dealt => ⟨toHit, some dealt⟩) <$> rollDamage f damageModifier toHit.critical

/-! ## Death saves -/

/-- The lowest face with which a death save succeeds. -/
def deathSaveTarget : Nat := 10

/-- A death save. -/
structure DeathSave where
  /-- The d20. -/
  roll : Roll
deriving DecidableEq, Repr

namespace DeathSave

/-- The face of the d20. -/
def natural (s : DeathSave) : Nat := (s.roll.kept.head?.map Die.value).getD 0

/-- The save succeeds. -/
def success (s : DeathSave) : Bool := deathSaveTarget ≤ s.natural

/-- The failures that the save adds: two for a one, one for any other miss. -/
def failures (s : DeathSave) : Nat :=
  if s.natural = 1 then 2 else if s.natural < deathSaveTarget then 1 else 0

/-- The save brings its creature back with a hit point. -/
def regains (s : DeathSave) : Bool := s.roll.critical

end DeathSave

/-- Rolls a death save. -/
def deathSave : Rolling σ DeathSave := DeathSave.mk <$> d20Formula.roll .normal 0

/-! ## Hit dice -/

/-- A hit die that was spent. -/
structure HitDie where
  /-- The die and its modifier. -/
  roll : Roll
deriving DecidableEq, Repr

/-- The hit points that are regained, never less than nothing. -/
def HitDie.hitPoints (h : HitDie) : Int := max h.roll.total 0

/-- Spends a hit die of some size. -/
def hitDie (die : StandardDie) (constitution : Int) : Rolling σ HitDie :=
  HitDie.mk <$> (die.formula 1).roll .normal constitution

/-! ## Initiative -/

/-- Rolls for initiative, with the modifier of the character and any other bonus. -/
def initiative (dexterity bonus : Int) (mode : Mode) : Rolling σ Roll :=
  d20Formula.roll mode (Total.add dexterity bonus)

end Dicebag
