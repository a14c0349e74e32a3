import Dicebag.Play
import Dicebag.Request

/-!
# Sessions at the table

A session has one roller and at most one current request.  A `Command` changes the request, rolls
it, or carries out an `Action`, which is a roll that does not depend on the request.  Commands are
answered one at a time by `Session.step`:

* a command that fails changes nothing but the roller, from which dice may have been drawn;
* a text that cannot be read leaves the current request as it was and draws nothing;
* the log of a step is what was read and rolled in it, up to a failure if there was one.
-/

set_option autoImplicit false

namespace Dicebag

/-! ## Actions -/

/-- Things to roll, whatever the current request. -/
inductive Action
  /-- A single face, whether or not the die has it. -/
  | face (sides : Nat)
  /-- A formula. -/
  | formula (text : String) (mode : Mode) (modifier : Int)
  /-- One ability score. -/
  | abilityScore
  /-- A score for each ability. -/
  | abilityScores
  /-- An attack, and its damage if that is given as a formula. -/
  | attack (modifier : Int) (damage : Option String) (damageModifier : Int) (mode : Mode)
  /-- A death save. -/
  | deathSave
  /-- A hit die. -/
  | hitDie (die : StandardDie) (constitution : Int)
  /-- Initiative. -/
  | initiative (dexterity bonus : Int) (mode : Mode)
deriving DecidableEq, Repr

/-- What a command gave. -/
inductive Answer
  /-- The request was changed. -/
  | changed
  /-- A single face. -/
  | face (value : Nat)
  /-- A roll of a formula. -/
  | roll (formula : Formula) (roll : Roll)
  /-- Several rolls of a formula. -/
  | rolls (formula : Formula) (rolls : List Roll)
  /-- An attack, and the formula that its damage was asked for with. -/
  | attack (damage : Option Formula) (attack : Attack)
  /-- A death save. -/
  | deathSave (save : DeathSave)
  /-- A hit die of some size. -/
  | hitDie (die : StandardDie) (hitDie : HitDie)
deriving DecidableEq, Repr

/-- Why a command gave nothing. -/
inductive Failure
  /-- A text is not a formula. -/
  | unreadable (error : ParseError)
  /-- There is no request yet. -/
  | noRequest
  /-- Rolling had to stop. -/
  | fault (fault : Fault)
deriving DecidableEq, Repr

/-- How a command went. -/
structure Reply (σ : Type) where
  /-- What the command gave. -/
  answer : Except Failure Answer
  /-- What was logged. -/
  log : List Event
  /-- The roller afterwards. -/
  roller : σ

variable {σ : Type}

/-- The reply of rolling something, after `before` was logged. -/
def Reply.ofRolling {α : Type} (before : List Event) (action : Rolling σ α) (answer : α → Answer)
    (roller : σ) : Reply σ :=
  let after := action.run roller
  ⟨(after.answer.mapError Failure.fault).map answer, before ++ after.log, after.roller⟩

/-- The reply where a text could not be read: nothing is drawn. -/
def Reply.unreadable (text : String) (error : ParseError) (roller : σ) : Reply σ :=
  ⟨.error (.unreadable error), parseLog text, roller⟩

/-- Carries out an action. -/
def Action.run [Roller σ] (action : Action) (roller : σ) : Reply σ :=
  match action with
  | face sides => .ofRolling [] (Rolling.draw sides) .face roller
  | formula text mode modifier =>
    match parse text with
    | .error e => .unreadable text e roller
    | .ok w =>
      .ofRolling (parseLog text) (w.toFormula.roll mode modifier) (.roll w.toFormula) roller
  | abilityScore => .ofRolling [] Dicebag.abilityScore (.roll abilityFormula) roller
  | abilityScores => .ofRolling [] Dicebag.abilityScores (.rolls abilityFormula) roller
  | attack modifier none damageModifier mode =>
    .ofRolling [] (Dicebag.attack modifier none damageModifier mode) (.attack none) roller
  | attack modifier (some text) damageModifier mode =>
    match parse text with
    | .error e => .unreadable text e roller
    | .ok w =>
      .ofRolling (parseLog text) (Dicebag.attack modifier (some w.toFormula) damageModifier mode)
        (.attack (some w.toFormula)) roller
  | deathSave => .ofRolling [] Dicebag.deathSave .deathSave roller
  | hitDie die constitution =>
    .ofRolling [] (Dicebag.hitDie die constitution) (.hitDie die) roller
  | initiative dexterity bonus mode =>
    .ofRolling [] (Dicebag.initiative dexterity bonus mode) (.roll d20Formula) roller

/-! ## Sessions -/

/-- What can be asked of a session. -/
inductive Command
  /-- Make the formula of a text the request, in normal mode without a modifier. -/
  | set (text : String)
  /-- Make so many dice of a tray the request, in normal mode without a modifier. -/
  | setDie (die : StandardDie) (count : Nat)
  /-- Roll the request in another mode from now on. -/
  | setMode (mode : Mode)
  /-- Roll the request with another modifier from now on. -/
  | setModifier (modifier : Int)
  /-- Roll the request. -/
  | roll
  /-- Roll something else. -/
  | act (action : Action)
deriving DecidableEq, Repr

/-- A roller and the current request. -/
structure Session (σ : Type) where
  /-- Where the dice come from. -/
  roller : σ
  /-- What `Command.roll` rolls. -/
  request : Option Request

/-- What a step of a session gives, and the session after it. -/
structure Session.Step (σ : Type) where
  /-- What the command gave. -/
  answer : Except Failure Answer
  /-- What was logged. -/
  log : List Event
  /-- The session afterwards. -/
  session : Session σ

namespace Session

/-- A session without a request. -/
def start (roller : σ) : Session σ := ⟨roller, none⟩

/-- The step that makes `request` the current one. -/
def change (s : Session σ) (log : List Event) (request : Request) : Step σ :=
  ⟨.ok .changed, log, { s with request := some request }⟩

/-- The step where there is no request but one is needed. -/
def noRequest (s : Session σ) : Step σ := ⟨.error .noRequest, [], s⟩

/-- The step that a reply stands for: the request is kept. -/
def keep (s : Session σ) (reply : Reply σ) : Step σ :=
  ⟨reply.answer, reply.log, { s with roller := reply.roller }⟩

/-- Answers one command. -/
def step [Roller σ] (s : Session σ) (command : Command) : Step σ :=
  match command with
  | .set text =>
    match Request.parse text with
    | .error e => s.keep (.unreadable text e s.roller)
    | .ok request => s.change (parseLog text) request
  | .setDie die count => s.change [] (.of (die.written count))
  | .setMode mode =>
    match s.request with
    | none => s.noRequest
    | some request => s.change [] { request with mode }
  | .setModifier modifier =>
    match s.request with
    | none => s.noRequest
    | some request => s.change [] { request with modifier }
  | .roll =>
    match s.request with
    | none => s.noRequest
    | some request => s.keep (.ofRolling [] request.roll (.roll request.formula) s.roller)
  | .act action => s.keep (action.run s.roller)

/-- Answers commands in order. -/
def run [Roller σ] (s : Session σ) : List Command → List (Step σ)
  | [] => []
  | command :: commands =>
    let step := s.step command
    step :: step.session.run commands

end Session
end Dicebag
