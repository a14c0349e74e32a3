import Dicebag.Proofs.Play.Attack

/-!
# Rolls of play as texts

The rolls that a game asks for by name are made of formulas that nobody has typed.  This module says
that each is the roll of a text after all: reading the text gives the very action, so that nothing
can tell the two apart, whatever roller they are run on, whether they come to an end, and in
whatever they log.  `rollText` is what a text stands for.

* The formulas of a tray are read back from their texts, for every number of dice (`parse_tray`).
  Such a number is brought into range first, which is why no text is refused.
* `TypedRolls` lists the rolls of play, each with its text.
* `oneRoll` is what comes of one die, from which a death save and a hit die take what they report.
* `play_eq_typed` puts these together.
-/

set_option autoImplicit false

namespace Dicebag

variable {σ : Type} [Roller σ]

/-! ## Texts -/

/-- Reads a text and rolls it. -/
def rollText (text : String) (mode : Mode) (modifier : Int) : Except ParseError (Rolling σ Roll) :=
  (parse text).map fun w => w.toFormula.roll mode modifier

theorem rollText_of_parse {text : String} {w : Written} (h : parse text = .ok w) (mode : Mode)
    (modifier : Int) :
    rollText text mode modifier = .ok (w.toFormula.roll mode modifier : Rolling σ Roll) := by
  rw [rollText, h]
  rfl

/-- The text of an added group on its own is that of the group. -/
theorem text_single {g : Group} (hg : g.sign = .plus) : (Formula.single g).text = g.text := by
  have hfirst : (Formula.single g).first.sign = .plus := hg
  rw [Formula.text, hfirst]
  show g.text ++ String.join [] ++ "" = g.text
  rw [String.join_nil, String.append_empty, String.append_empty]

theorem text_tray (die : StandardDie) (count : Nat) :
    (die.formula count).text = die.text count := by
  rw [StandardDie.formula, text_single rfl, Group.text, StandardDie.text]
  exact String.append_empty

/-- **The dice of a tray are read back from their text**, however many are asked for. -/
theorem parse_tray (die : StandardDie) (count : Nat) :
    parse (die.text count) = .ok (die.written count) := by
  have hparse := parse_text (wellFormed_tray die count)
  rwa [text_tray] at hparse

theorem wellFormed_abilityFormula : abilityFormula.WellFormed := by
  refine wellFormed_single ⟨by decide, by decide, fun k hk => ?_⟩
  cases hk
  decide

theorem parse_ability : parse "4d6kh3" = .ok ⟨abilityFormula, "4d6kh3"⟩ := by
  have htext : abilityFormula.text = "4d6kh3" := by
    rw [abilityFormula, text_single rfl]
    decide
  have hparse := parse_text wellFormed_abilityFormula
  rwa [htext] at hparse

theorem parse_one (die : StandardDie) :
    parse ("1d" ++ toString die.sides) = .ok (die.written 1) := parse_tray die 1

/-! ## The rolls of play -/

/-- So many ability scores are so many rolls for one, one after another. -/
theorem abilityScoreList_eq (n : Nat) :
    (abilityScoreList n : Rolling σ (List Roll)) = (List.replicate n abilityScore).mapM id := by
  induction n with
  | zero => rfl
  | succ n ih =>
    rw [abilityScoreList, List.replicate_succ, List.mapM_cons, ih]
    simp only [id, map_eq_pure_bind]

/-- Rolls the damage of an attack, if any was asked for. -/
def rollDamage? (damage : Option Formula) (modifier : Int) (critical : Bool) :
    Rolling σ (Option Roll) :=
  match damage with
  | none => pure none
  | some f => some <$> rollDamage f modifier critical

/-- The rolls of play are rolls of texts, as actions: they draw the same dice from every roller, log
the same, and end with the same result or the same fault. -/
structure TypedRolls (σ : Type) [Roller σ] : Prop where
  /-- An ability score is four d6 of which the highest three are kept. -/
  score : rollText "4d6kh3" .normal 0 = .ok (abilityScore : Rolling σ Roll)
  /-- The ability scores are six of these, one after another. -/
  scores : (abilityScores : Rolling σ (List Roll)) = (List.replicate 6 abilityScore).mapM id
  /-- The first part of an attack is a d20, in the mode and with the modifier of the attack.  Of the
  rest, the formula, its own modifier and whether the hit is critical are all that matters. -/
  attack : ∀ (modifier : Int) (damage : Option Formula) (damageModifier : Int) (mode : Mode),
    (rollText "1d20" mode modifier).map (fun (toHit : Rolling σ Roll) => do
      let hit ← toHit
      Attack.mk hit <$> rollDamage? damage damageModifier hit.critical) =
        .ok (attack modifier damage damageModifier mode)
  /-- A death save is a d20, in the normal mode and without a modifier. -/
  deathSave : (rollText "1d20" .normal 0).map (DeathSave.mk <$> ·) =
    .ok (deathSave : Rolling σ DeathSave)
  /-- A hit die is one die of its size, in the normal mode. -/
  hitDie : ∀ (die : StandardDie) (constitution : Int),
    (rollText ("1d" ++ toString die.sides) .normal constitution).map (HitDie.mk <$> ·) =
      .ok (hitDie die constitution : Rolling σ HitDie)
  /-- Initiative is a d20, with both modifiers as far as totals go. -/
  initiative : ∀ (dexterity bonus : Int) (mode : Mode),
    rollText "1d20" mode (Total.clamp (dexterity + bonus)) =
      .ok (initiative dexterity bonus mode : Rolling σ Roll)

theorem typedRolls (σ : Type) [Roller σ] : TypedRolls σ := by
  have hlone : parse "1d20" = .ok (StandardDie.d20.written 1) := parse_one .d20
  refine
    { score := rollText_of_parse parse_ability .normal 0
      scores := abilityScoreList_eq abilityCount
      attack := fun modifier damage damageModifier mode => ?_
      deathSave := ?_
      hitDie := fun die constitution => ?_
      initiative := fun dexterity bonus mode => rollText_of_parse hlone mode _ }
  · -- the d20 is the same action on both sides, and what follows differs in how it is put together
    rw [rollText_of_parse hlone]
    refine congrArg Except.ok (bind_congr fun hit => ?_)
    cases damage with
    | none => exact map_pure _ _
    | some f => exact (comp_map _ _ _).symm
  · rw [rollText_of_parse hlone]
    rfl
  · rw [rollText_of_parse (parse_one die)]
    rfl

/-! ## One die -/

/-- What comes of one die that shows this face. -/
def oneRoll (die : StandardDie) (modifier : Int) (face : Nat) : Roll :=
  (die.formula 1).outcome .normal modifier [face]

/-- **One die is rolled for one face.** -/
theorem run_one (die : StandardDie) (modifier : Int) {roller after : σ} {face : Nat}
    (h : Deals roller [die.sides] [face] after) :
    ∃ log, ((die.formula 1).roll .normal modifier).run roller =
      ⟨.ok (oneRoll die modifier face), log, after⟩ := by
  have hsizes : (die.formula 1).sizes .normal = [die.sides] := Formula.sizes_normal _
  rw [← hsizes] at h
  exact ⟨_, Formula.run_roll (wellFormed_tray die 1).playable Nat.one_le_two_pow modifier h⟩

theorem kept_oneRoll (die : StandardDie) (modifier : Int) (face : Nat) :
    (oneRoll die modifier face).kept = [⟨die.sides, face, false⟩] := rfl

theorem total_oneRoll (die : StandardDie) (modifier : Int) (face : Nat) :
    (oneRoll die modifier face).total = Total.clamp (face + Total.clamp modifier) := by
  have hsubtotal : (oneRoll die modifier face).subtotal = face := Int.add_zero _
  show Total.add (oneRoll die modifier face).subtotal (Total.add 0 modifier) = _
  rw [hsubtotal, Total.add, Total.add, Int.zero_add]

theorem critical_oneRoll {roller after : σ} {face : Nat} (modifier : Int)
    (h : Deals roller [20] [face] after) :
    (oneRoll .d20 modifier face).critical = true ↔ face = 20 :=
  (flags_iff h naturalAt_d20Formula modifier).1.trans Option.some_inj

/-- What a death save makes of the face of its d20. -/
structure DeathSave.Judged (face : Nat) (s : DeathSave) : Prop where
  /-- The save is of that face. -/
  natural : s.natural = face
  /-- It succeeds from ten on. -/
  target : s.success = true ↔ 10 ≤ face
  /-- It succeeds just when it adds no failure. -/
  success : s.success = true ↔ s.failures = 0
  /-- It brings its creature back on a 20. -/
  twenty : s.regains = true ↔ face = 20
  /-- It brings no creature back without succeeding. -/
  regains : s.regains = true → s.success = true

theorem judged_oneRoll {roller after : σ} {face : Nat} (h : Deals roller [20] [face] after) :
    DeathSave.Judged face ⟨oneRoll .d20 0 face⟩ := by
  have hnatural : (⟨oneRoll .d20 0 face⟩ : DeathSave).natural = face := by
    rw [DeathSave.natural, kept_oneRoll]
    rfl
  have htarget : (⟨oneRoll .d20 0 face⟩ : DeathSave).success = true ↔ 10 ≤ face :=
    decide_eq_true_iff
  have htwenty := critical_oneRoll 0 h
  refine
    { natural := hnatural
      target := htarget
      success := ?_
      twenty := htwenty
      regains := fun hregains => ?_ }
  · rw [htarget, DeathSave.failures, hnatural, deathSaveTarget]
    split
    · omega
    · split <;> omega
  · have hface := htwenty.1 hregains
    exact htarget.2 (by omega)

/-- The modifier is brought among the totals before the face is added, which makes no difference to
the hit points: a modifier that was too low to be a total leaves none. -/
theorem hitPoints_oneRoll {die : StandardDie} {roller after : σ} {face : Nat} (constitution : Int)
    (h : Deals roller [die.sides] [face] after) :
    HitDie.hitPoints ⟨oneRoll die constitution face⟩ =
      max 0 (Total.clamp (face + constitution)) := by
  have hface : face ≤ Group.maxSides := by
    obtain _ | ⟨-, -, hmost, -⟩ := h
    exact hmost.trans (sides_inRange die).2
  rw [Group.maxSides] at hface
  rw [HitDie.hitPoints, total_oneRoll]
  unfold Total.clamp Total.least Total.greatest
  omega

/-- **The rolls of play are rolls of typed formulas.**  A tray's formula for any number of dice is
what its text is read as, the text included.  An ability score, the d20 of an attack, a death save,
a hit die and initiative are each the roll of a text, on every roller, whether it ends with a result
or not.  Where the roller deals a face of the die, a death save succeeds just when it adds no
failure, and has to succeed to bring its creature back, and a hit die regains the face and the
modifier together, as far as totals go, and never less than nothing. -/
theorem play_eq_typed (σ : Type) [Roller σ] :
    (∀ (die : StandardDie) (count : Nat), parse (die.text count) = .ok (die.written count)) ∧
    TypedRolls σ ∧
    (∀ {roller after : σ} {face : Nat}, Deals roller [20] [face] after →
      ∃ s log, (deathSave : Rolling σ DeathSave).run roller = ⟨.ok s, log, after⟩ ∧
        s.Judged face) ∧
    ∀ (die : StandardDie) (constitution : Int) {roller after : σ} {face : Nat},
      Deals roller [die.sides] [face] after →
        ∃ h log, (hitDie die constitution).run roller = ⟨.ok h, log, after⟩ ∧
          h.hitPoints = max 0 (Total.clamp (face + constitution)) := by
  refine ⟨parse_tray, typedRolls σ, fun {_ _ face} hdeals => ?_,
    fun die constitution _ _ face hdeals => ?_⟩
  · obtain ⟨log, hrun⟩ := run_one .d20 0 hdeals
    refine ⟨⟨oneRoll .d20 0 face⟩, log, ?_, judged_oneRoll hdeals⟩
    rw [deathSave, Rolling.run_map, d20Formula, hrun]
    rfl
  · obtain ⟨log, hrun⟩ := run_one die constitution hdeals
    refine ⟨⟨oneRoll die constitution face⟩, log, ?_, hitPoints_oneRoll constitution hdeals⟩
    rw [hitDie, Rolling.run_map, hrun]
    rfl

/-- From scripts, a 10 is a death save, and an eight-sided hit die that shows a 2 is no help to one
with a modifier of -3. -/
theorem play_eq_typed_scripts :
    parse (StandardDie.d100.text 4294967295) = .ok (StandardDie.d100.written 4294967295) ∧
      (∃ s log, deathSave.run (⟨[10, 7]⟩ : Script) = ⟨.ok s, log, ⟨[7]⟩⟩ ∧ s.success = true) ∧
      ∃ h log, (hitDie .d8 (-3)).run (⟨[2, 7]⟩ : Script) = ⟨.ok h, log, ⟨[7]⟩⟩ ∧
        h.hitPoints = 0 := by
  obtain ⟨htray, -, hsave, hhit⟩ := play_eq_typed Script
  have hten : List.Forall₂ (fun sides value => 1 ≤ value ∧ value ≤ sides) [20] [10] := by decide
  have htwo : List.Forall₂ (fun sides value => 1 ≤ value ∧ value ≤ sides) [8] [2] := by decide
  obtain ⟨s, slog, hsaveRun, hjudged⟩ := hsave (Deals.script hten [7])
  obtain ⟨h, hlog, hhitRun, hpoints⟩ := hhit .d8 (-3) (Deals.script htwo [7])
  exact ⟨htray .d100 4294967295, ⟨s, slog, hsaveRun, hjudged.target.2 (by decide)⟩,
    h, hlog, hhitRun, hpoints⟩

end Dicebag
