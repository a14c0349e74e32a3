import Dicebag.Session
import Dicebag.Proofs.Roll.Stopping

/-!
# The faces of a session

A session has one roller, and everything that is rolled in it takes faces from that roller.  This
module says that the faces can be accounted for: whatever is asked of a session over a script, and
however the steps go, the faces that the steps show, one step after another, are the faces that the
script has lost.

* What a step shows is read off what it gave: the dice of its rolls, in order.  Where rolling had to
  stop, the log has the dice that were rolled, and the fault may name one face more
  (`Session.Step.faces`).
* `Accounts` is what every rolling action keeps to, whether it comes to an end or not.  It is closed
  under the ways in which actions are put together, so it is proved of the rolls of play along their
  definitions.
* `step_accounted` is one step, by cases on the command, and `run_accounts_for_faces` a whole
  session, by induction on the commands.
-/

set_option autoImplicit false

namespace Dicebag

/-! ## What is shown -/

/-- The face of a die that the record is about, if it is about a roll. -/
def Event.face? : Event → Option Nat
  | rolledDie _ value => some value
  | _ => none

/-- The faces that were rolled, as the log has them. -/
def loggedFaces (log : List Event) : List Nat := log.filterMap Event.face?

/-- The face that a fault names: one that was drawn and is not on its die. -/
def Fault.face? : Fault → Option Nat
  | impossibleFace value _ => some value
  | _ => none

/-- The faces of the dice in the order in which they were rolled. -/
def Roll.faces (r : Roll) : List Nat := r.dice.map Die.value

/-- The faces of all rolls of an answer, damage after the roll to hit. -/
def Answer.faces : Answer → List Nat
  | changed => []
  | face value => [value]
  | roll _ r => r.faces
  | rolls _ rs => rs.flatMap Roll.faces
  | attack _ a => a.toHit.faces ++ a.damage.toList.flatMap Roll.faces
  | deathSave s => s.roll.faces
  | hitDie _ h => h.roll.faces

/-- The face that a failure names. -/
def Failure.face? : Failure → Option Nat
  | fault f => f.face?
  | _ => none

/-- The faces that an answer shows; and where there is none, those that were logged and the one that
the failure names. -/
def shownFaces (answer : Except Failure Answer) (log : List Event) : List Nat :=
  match answer with
  | .ok answer => answer.faces
  | .error failure => loggedFaces log ++ failure.face?.toList

/-- The faces that a step shows. -/
def Session.Step.faces {σ : Type} (step : Session.Step σ) : List Nat :=
  shownFaces step.answer step.log

theorem loggedFaces_append (log log' : List Event) :
    loggedFaces (log ++ log') = loggedFaces log ++ loggedFaces log' := List.filterMap_append

theorem loggedFaces_eq_nil {log : List Event} (h : ∀ e ∈ log, e.face? = none) :
    loggedFaces log = [] := List.filterMap_eq_nil_iff.2 h

/-- Setting dice aside shows no face anew. -/
theorem loggedFaces_rule (rule : Rule) (dice : List Die) :
    loggedFaces (rule.apply dice).2 = [] := by
  refine loggedFaces_eq_nil fun e he => ?_
  cases rule with
  | all => exact absurd he List.not_mem_nil
  | keep k =>
    obtain ⟨p, -, rfl⟩ := List.mem_map.1 he
    rfl
  | pick mode =>
    simp only [Rule.apply] at he
    split at he
    · split at he
      · exact absurd he List.not_mem_nil
      · split at he <;> rw [List.mem_singleton.1 he] <;> rfl
    · exact absurd he List.not_mem_nil

/-- Reading shows no face. -/
theorem loggedFaces_parseLog (text : String) : loggedFaces (parseLog text) = [] := by
  refine loggedFaces_eq_nil fun e he => ?_
  rcases List.mem_append.1 he with he | he
  · obtain ⟨term, -, rfl⟩ := List.mem_map.1 he
    cases term <;> rfl
  · split at he
    · rw [List.mem_singleton.1 he]
      rfl
    · exact absurd he List.not_mem_nil

/-! ## Rolling actions -/

section

variable {α β : Type}

/-- The faces that a run drew from a script, as far as what it left behind tells: they come first in
the script, and the rest is still there.  Of a value that the run ended with and of these faces
holds `shown`. -/
inductive Aftermath.AccountsFor (shown : α → List Nat → Prop) :
    List Nat → Aftermath Script α → Prop
  /-- The log has all faces. -/
  | ok {faces rest : List Nat} {a : α} {log : List Event}
      (drawn : faces = loggedFaces log ++ rest) (answered : shown a (loggedFaces log)) :
      AccountsFor shown faces ⟨.ok a, log, ⟨rest⟩⟩
  /-- The log has all faces but the one that the fault names, if it names one. -/
  | error {faces rest : List Nat} {fault : Fault} {log : List Event}
      (drawn : faces = loggedFaces log ++ fault.face?.toList ++ rest) :
      AccountsFor shown faces ⟨.error fault, log, ⟨rest⟩⟩

/-- The action accounts for the faces of every script. -/
def Accounts (action : Rolling Script α) (shown : α → List Nat → Prop) : Prop :=
  ∀ faces, (action.run ⟨faces⟩).AccountsFor shown faces

namespace Accounts

theorem imp {action : Rolling Script α} {shown shown' : α → List Nat → Prop}
    (h : Accounts action shown) (himp : ∀ a faces, shown a faces → shown' a faces) :
    Accounts action shown' := by
  intro faces
  have haction := h faces
  generalize action.run ⟨faces⟩ = after at haction ⊢
  cases haction with
  | ok drawn answered => exact .ok drawn (himp _ _ answered)
  | error drawn => exact .error drawn

theorem pure {shown : α → List Nat → Prop} {a : α} (h : shown a []) :
    Accounts (pure a : Rolling Script α) shown := fun _ => .ok rfl h

theorem record {events : List Event} (h : loggedFaces events = []) :
    Accounts (Rolling.record events) fun _ faces => faces = [] := fun faces =>
  .ok (by rw [h, List.nil_append]) h

theorem fail {shown : α → List Nat → Prop} {fault : Fault} (h : fault.face? = none) :
    Accounts (Rolling.fail fault : Rolling Script α) shown := fun faces =>
  .error (by rw [h]; rfl)

theorem map {f : α → β} {action : Rolling Script α} {shown : β → List Nat → Prop}
    (h : Accounts action fun a faces => shown (f a) faces) : Accounts (f <$> action) shown := by
  intro faces
  have haction := h faces
  rw [Rolling.run_map]
  generalize action.run ⟨faces⟩ = after at haction ⊢
  cases haction with
  | ok drawn answered => exact .ok drawn answered
  | error drawn => exact .error drawn

/-- Of two actions, one after the other, the second accounts for what the first has left. -/
theorem bind {action : Rolling Script α} {next : α → Rolling Script β}
    {shown : α → List Nat → Prop} {shown' : β → List Nat → Prop} (h : Accounts action shown)
    (h' : ∀ a faces, shown a faces →
      Accounts (next a) fun b faces' => shown' b (faces ++ faces')) :
    Accounts (action >>= next) shown' := by
  intro faces
  have hfirst := h faces
  generalize hrun : action.run ⟨faces⟩ = first at hfirst
  cases hfirst with
  | error drawn =>
    rw [Rolling.run_bind_of_fault hrun]
    exact .error drawn
  | @ok rest a _ drawn answered =>
    have hsecond := h' a _ answered rest
    rw [Rolling.run_bind_of_run hrun]
    generalize (next a).run ⟨rest⟩ = second at hsecond ⊢
    cases hsecond with
    | error drawn' => exact .error (by rw [drawn, drawn', loggedFaces_append]; simp)
    | ok drawn' answered' =>
      refine .ok (by rw [drawn, drawn', loggedFaces_append, List.append_assoc]) ?_
      rw [loggedFaces_append]
      exact answered'

end Accounts

end

/-! ## Rolling dice -/

theorem accounts_rollDie (sides : Nat) :
    Accounts (rollDie sides) fun d faces => [d.value] = faces := by
  intro faces
  cases faces with
  | nil =>
    have hdrawn : Roller.roll sides (⟨[]⟩ : Script) = (.error .exhausted, ⟨[]⟩) := rfl
    rw [run_rollDie_of_missing hdrawn]
    exact .error rfl
  | cons value faces =>
    have hdrawn : Roller.roll sides (⟨value :: faces⟩ : Script) = (.ok value, ⟨faces⟩) := rfl
    by_cases hface : 1 ≤ value ∧ value ≤ sides
    · rw [run_rollDie hdrawn hface.1 hface.2]
      exact .ok rfl rfl
    · rw [run_rollDie_of_impossible hdrawn hface]
      exact .error rfl

theorem accounts_rollDice (sides n : Nat) :
    Accounts (rollDice sides n) fun dice faces => dice.map Die.value = faces := by
  induction n with
  | zero => exact .pure rfl
  | succ n ih =>
    refine (accounts_rollDie sides).bind fun d faces hd => .map (ih.imp fun dice faces' hdice => ?_)
    rw [List.map_cons, hdice, ← hd, List.singleton_append]

/-- Which dice count is no matter. -/
theorem Throw.accounts_roll (t : Throw) :
    Accounts t.roll fun dice faces => dice.map Die.value = faces := by
  refine (accounts_rollDice t.sides t.count).bind fun dice faces hdice => ?_
  refine (Accounts.record (loggedFaces_rule t.rule dice)).bind fun _ faces' hnone => .pure ?_
  rw [hnone, List.append_nil, List.append_nil]
  exact (t.rule.map_value_apply dice).trans hdice

/-- A sum that leaves its range ends the throws between two dice. -/
theorem accounts_rollThrows (start : Nat) (subtotal : Int) (ts : List Throw) :
    Accounts (rollThrows start subtotal ts) fun table faces =>
      table.dice.map Die.value = faces := by
  induction ts generalizing start subtotal with
  | nil => exact .pure rfl
  | cons t ts ih =>
    refine t.accounts_roll.bind fun dice faces hdice => ?_
    cases t.addTo? subtotal dice with
    -- nothing bounds the number of groups here, so the sum may overflow; that fault names no face
    | none => exact .fail rfl
    | some sum =>
      refine .map ((ih (start + dice.length) sum).imp fun table faces' htable => ?_)
      rw [Table.push, List.map_append, hdice, htable]

theorem Formula.accounts_roll (f : Formula) (mode : Mode) (modifier : Int) :
    Accounts (f.roll mode modifier) fun r faces => r.faces = faces := by
  refine (accounts_rollThrows 0 0 (f.throws mode)).bind fun table faces htable => ?_
  refine (Accounts.record (by rfl)).bind fun _ faces' hnone => .pure ?_
  rw [hnone, List.append_nil, List.append_nil]
  exact htable

/-! ## The rolls of play -/

theorem accounts_abilityScoreList (n : Nat) :
    Accounts (abilityScoreList n) fun rs faces => rs.flatMap Roll.faces = faces := by
  induction n with
  | zero => exact .pure rfl
  | succ n ih =>
    refine (abilityFormula.accounts_roll .normal 0).bind fun r faces hr => ?_
    refine .map (ih.imp fun rs faces' hrs => ?_)
    rw [List.flatMap_cons, hr, hrs]

theorem accounts_rollDamage (damage : Formula) (modifier : Int) (critical : Bool) :
    Accounts (rollDamage damage modifier critical) fun r faces => r.faces = faces := by
  cases critical with
  | false => exact damage.accounts_roll .normal modifier
  | true =>
    refine (Accounts.record (by rfl)).bind fun _ faces hnone => ?_
    rw [hnone]
    exact damage.doubled.accounts_roll .normal modifier

theorem accounts_attack (modifier : Int) (damage : Option Formula) (damageModifier : Int)
    (mode : Mode) :
    Accounts (attack modifier damage damageModifier mode) fun a faces =>
      a.toHit.faces ++ a.damage.toList.flatMap Roll.faces = faces := by
  refine (d20Formula.accounts_roll mode modifier).bind fun toHit faces htoHit => ?_
  cases damage with
  | none => exact .pure (by rw [htoHit]; rfl)
  | some f =>
    refine .map ((accounts_rollDamage f damageModifier toHit.critical).imp fun r faces' hr => ?_)
    simp only [Option.toList_some, List.flatMap_singleton, htoHit, hr]

/-! ## Replies -/

/-- The reply accounts for the faces of a script, and is about a text that cannot be read only if it
has drawn none. -/
structure Reply.Accounts (reply : Reply Script) (faces : List Nat) : Prop where
  /-- The script has lost what the reply shows. -/
  drawn : faces = shownFaces reply.answer reply.log ++ reply.roller.faces
  /-- If there was nothing to roll, the script has lost nothing. -/
  unreadable : ∀ error, reply.answer = .error (.unreadable error) → reply.roller.faces = faces

theorem Reply.accounts_ofRolling {α : Type} {before : List Event} {action : Rolling Script α}
    {answer : α → Answer} (hbefore : loggedFaces before = [])
    (h : Dicebag.Accounts action fun a faces => (answer a).faces = faces) (faces : List Nat) :
    (Reply.ofRolling before action answer ⟨faces⟩).Accounts faces := by
  have haction := h faces
  rw [Reply.ofRolling]
  generalize action.run ⟨faces⟩ = after at haction ⊢
  cases haction with
  | ok drawn answered =>
    refine ⟨drawn.trans ?_, fun error herror => ?_⟩
    · rw [← answered]
      rfl
    · cases herror
  | error drawn =>
    refine ⟨drawn.trans ?_, fun error herror => ?_⟩
    · simp only [Except.mapError, Except.map, shownFaces, loggedFaces_append, hbefore,
        List.nil_append]
      rfl
    · cases herror

theorem Reply.accounts_unreadable (text : String) (error : ParseError) (faces : List Nat) :
    (Reply.unreadable text error (⟨faces⟩ : Script)).Accounts faces := by
  refine ⟨?_, fun _ _ => rfl⟩
  simp only [Reply.unreadable, shownFaces, loggedFaces_parseLog]
  rfl

/-- A face that is drawn for its own sake is not in the log. -/
theorem accounts_face (sides : Nat) (faces : List Nat) :
    ((Action.face sides).run (⟨faces⟩ : Script)).Accounts faces := by
  cases faces with
  | nil => exact ⟨rfl, fun _ _ => rfl⟩
  | cons value faces =>
    refine ⟨rfl, fun error herror => ?_⟩
    cases herror

/-- **Every action accounts for the faces that it draws.** -/
theorem Action.accounts_run (action : Action) (faces : List Nat) :
    (action.run (⟨faces⟩ : Script)).Accounts faces := by
  cases action with
  | face sides => exact accounts_face sides faces
  | formula text mode modifier =>
    rw [Action.run]
    split
    · exact Reply.accounts_unreadable text _ faces
    · exact Reply.accounts_ofRolling (loggedFaces_parseLog text)
        (Formula.accounts_roll _ mode modifier) faces
  | abilityScore =>
    exact Reply.accounts_ofRolling rfl (abilityFormula.accounts_roll .normal 0) faces
  | abilityScores => exact Reply.accounts_ofRolling rfl (accounts_abilityScoreList _) faces
  | attack modifier damage damageModifier mode =>
    cases damage with
    | none => exact Reply.accounts_ofRolling rfl (accounts_attack modifier none _ mode) faces
    | some text =>
      rw [Action.run]
      split
      · exact Reply.accounts_unreadable text _ faces
      · exact Reply.accounts_ofRolling (loggedFaces_parseLog text)
          (accounts_attack modifier _ damageModifier mode) faces
  | deathSave =>
    exact Reply.accounts_ofRolling rfl (.map (d20Formula.accounts_roll .normal 0)) faces
  | hitDie die constitution =>
    exact Reply.accounts_ofRolling rfl (.map ((die.formula 1).accounts_roll .normal constitution))
      faces
  | initiative dexterity bonus mode =>
    exact Reply.accounts_ofRolling rfl (d20Formula.accounts_roll mode _) faces

/-! ## Steps -/

/-- The command is about the request, and rolls nothing. -/
def Command.IsChange : Command → Prop
  | set _ | setDie _ _ | setMode _ | setModifier _ => True
  | roll | act _ => False

namespace Session

/-- What is true of the step that a session over a script answers a command with. -/
structure Step.Accounted (s : Session Script) (command : Command) (step : Step Script) : Prop where
  /-- The faces that the step shows come first in the script, and the rest is still there. -/
  drawn : s.roller.faces = step.faces ++ step.session.roller.faces
  /-- A command about the request draws nothing. -/
  change : command.IsChange → step.faces = [] ∧ step.session.roller = s.roller
  /-- A text that cannot be read draws nothing, and the request is left as it was. -/
  unreadable : ∀ error, step.answer = .error (.unreadable error) →
    step.faces = [] ∧ step.session = s
  /-- Rolling leaves the request as it was, whether it comes to an end or not. -/
  request : ¬command.IsChange → step.session.request = s.request

section

variable {s : Session Script} {command : Command}

/-- A step that shows no face and changes nothing. -/
theorem accounted_of_idle {step : Step Script} (hfaces : step.faces = [])
    (hsession : step.session = s) : Step.Accounted s command step where
  drawn := by rw [hfaces, hsession, List.nil_append]
  change := fun _ => ⟨hfaces, by rw [hsession]⟩
  unreadable := fun _ _ => ⟨hfaces, hsession⟩
  request := fun _ => by rw [hsession]

theorem accounted_change (log : List Event) (request : Request) (hcommand : command.IsChange) :
    Step.Accounted s command (s.change log request) where
  drawn := rfl
  change := fun _ => ⟨rfl, rfl⟩
  unreadable := fun error herror => by cases herror
  request := fun hnot => absurd hcommand hnot

theorem accounted_keep (hcommand : ¬command.IsChange) {reply : Reply Script}
    (h : reply.Accounts s.roller.faces) : Step.Accounted s command (s.keep reply) where
  drawn := h.drawn
  change := fun hchange => absurd hchange hcommand
  unreadable := fun error herror => by
    -- the script is the same before and after, so there is no room for a face in front of it
    have hroller : reply.roller = s.roller := congrArg Script.mk (h.unreadable error herror)
    have hdrawn : s.roller.faces = (s.keep reply).faces ++ reply.roller.faces := h.drawn
    rw [hroller] at hdrawn
    refine ⟨List.self_eq_append_left.1 hdrawn, ?_⟩
    rw [keep, hroller]
  request := fun _ => rfl

end

/-- **One step accounts for the faces that it draws**, whatever the command and however it goes. -/
theorem step_accounted (s : Session Script) (command : Command) :
    Step.Accounted s command (s.step command) := by
  cases command with
  | set text =>
    rw [step]
    split
    · refine accounted_of_idle ?_ rfl
      exact List.append_eq_nil_iff.2 ⟨loggedFaces_parseLog text, rfl⟩
    · exact accounted_change _ _ (by trivial)
  | setDie die count => exact accounted_change _ _ (by trivial)
  | setMode mode =>
    rw [step]
    split
    · exact accounted_of_idle rfl rfl
    · exact accounted_change _ _ (by trivial)
  | setModifier modifier =>
    rw [step]
    split
    · exact accounted_of_idle rfl rfl
    · exact accounted_change _ _ (by trivial)
  | roll =>
    rw [step]
    split
    · exact accounted_of_idle rfl rfl
    · exact accounted_keep id
        (Reply.accounts_ofRolling rfl (Formula.accounts_roll _ _ _) s.roller.faces)
  | act action => exact accounted_keep id (action.accounts_run s.roller.faces)

/-! ## Whole sessions -/

section

variable {σ : Type} [Roller σ]

/-- The session after these commands. -/
def after (s : Session σ) (commands : List Command) : Session σ :=
  commands.foldl (fun s command => (s.step command).session) s

/-- The steps of a session are the steps of the sessions that come about. -/
theorem getElem?_run (s : Session σ) (commands : List Command) (i : Nat) :
    (s.run commands)[i]? =
      commands[i]?.map fun command => (s.after (commands.take i)).step command := by
  induction commands generalizing s i with
  | nil => rfl
  | cons command commands ih =>
    cases i with
    | zero => rfl
    | succ i => exact ih (s.step command).session i

end

/-- **No face of a session is lost, shown twice or made up.**  Whatever is asked of a session over a
script, and however many of its steps end in a fault, the faces that the steps show, one step after
another, and those that are still in the script are together the faces that it held.  Each step does
as it should: it draws nothing if it is about the request or a text that cannot be read, such a text
leaves the request as it was, and so does everything that is rolled. -/
theorem run_accounts_for_faces (s : Session Script) (commands : List Command) :
    s.roller.faces =
        (s.run commands).flatMap Step.faces ++ (s.after commands).roller.faces ∧
      ∀ i command, commands[i]? = some command → ∃ step, (s.run commands)[i]? = some step ∧
        Step.Accounted (s.after (commands.take i)) command step := by
  refine ⟨?_, fun i command hi => ⟨_, ?_, step_accounted _ command⟩⟩
  · induction commands generalizing s with
    | nil => rfl
    | cons command commands ih =>
      have hstep := (step_accounted s command).drawn
      have hrest := ih (s.step command).session
      rw [hrest, ← List.append_assoc] at hstep
      exact hstep
  · rw [getElem?_run, hi]
    rfl

/-- A face that is not on its die ends one step, and the next goes on behind it; an attack with
advantage shows both dice, and the last step finds the script empty. -/
example :
    ((start (⟨[4, 9, 15, 20, 2]⟩ : Script)).run [.setDie .d6 1, .roll, .roll,
      .act (.attack 0 none 0 .advantage), .act .deathSave, .act .deathSave]).map Step.faces =
      [[], [4], [9], [15, 20], [2], []] := by decide +kernel

end Session
end Dicebag
