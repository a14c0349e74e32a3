import Dicebag.Die
import Dicebag.Formula
import Dicebag.Text.Span

/-!
# The log

Reading and rolling leave a log of what was done, step by step.  An `Event` is one record: it has
the data that the step was about, and `Event.level`, `Event.topic` and `Event.message` say how it is
shown.  A record is shown when the chosen level is at least as talkative as its own, which is
`Level.shows`.
-/

set_option autoImplicit false

namespace Dicebag

/-- How important a record is, from the most to the least. -/
inductive Level
  /-- Something failed. -/
  | error
  /-- Something looks wrong. -/
  | warn
  /-- Something worth knowing. -/
  | info
  /-- The outcome of one operation. -/
  | debug
  /-- A step of one operation. -/
  | trace
deriving DecidableEq, Repr

namespace Level

/-- The name of the level. -/
def label : Level → String
  | error => "ERROR"
  | warn => "WARN"
  | info => "INFO"
  | debug => "DEBUG"
  | trace => "TRACE"

/-- The levels from the most to the least important. -/
def all : List Level := [error, warn, info, debug, trace]

/-- The place of a level among all levels. -/
def rank : Level → Nat
  | error => 0
  | warn => 1
  | info => 2
  | debug => 3
  | trace => 4

/-- A log kept down to the level `limit` shows a record of the level `record`. -/
def shows (limit record : Level) : Bool := record.rank ≤ limit.rank

end Level

/-- What a record is about. -/
inductive Topic
  /-- The program that talks to its user. -/
  | console
  /-- Reading a formula. -/
  | reading
  /-- Rolling dice. -/
  | rolling
  /-- Setting dice aside. -/
  | discarding
  /-- The rolls of play. -/
  | play
deriving DecidableEq, Repr

/-- How a log line names the topic. -/
def Topic.label : Topic → String
  | console => "repl"
  | reading => "dice_roller::parse::parser"
  | rolling => "dice_roller::roll::ctx"
  | discarding => "dice_roller::roll::discard"
  | play => "dice_roller::presets"

/-- One step of reading or rolling. -/
inductive Event
  /-- A dice group was read; the span is that of its dice token. -/
  | readGroup (group : Group) (span : Span)
  /-- A constant was read. -/
  | readConstant (sign : Sign) (amount : Nat) (span : Span)
  /-- A whole formula was read. -/
  | readFormula (raw : String) (formula : Formula)
  /-- A die was rolled. -/
  | rolledDie (sides value : Nat)
  /-- A keep suffix set aside the die at a place within its group. -/
  | droppedDie (keep : Keep) (index value : Nat)
  /-- Advantage or disadvantage set aside one of two d20. -/
  | droppedTwin (mode : Mode) (value : Nat)
  /-- A whole formula was rolled. -/
  | rolledFormula (formula : Formula) (mode : Mode) (modifier : Int) (dice : Nat)
      (subtotal total : Int)
  /-- A critical hit rolls the doubled formula for damage. -/
  | doubledDamage (doubled formula : Formula)
deriving DecidableEq, Repr

namespace Event

/-- How important the record is. -/
def level : Event → Level
  | readFormula .. | rolledFormula .. | doubledDamage .. => .debug
  | _ => .trace

/-- What the record is about. -/
def topic : Event → Topic
  | readGroup .. | readConstant .. | readFormula .. => .reading
  | rolledDie .. | rolledFormula .. => .rolling
  | droppedDie .. | droppedTwin .. => .discarding
  | doubledDamage .. => .play

/-- The record in words. -/
def message : Event → String
  | readGroup group span => "dice group " ++ group.signedText ++ " at " ++ span.text
  | readConstant sign amount span =>
    "flat modifier " ++ sign.symbol ++ toString amount ++ " at " ++ span.text
  | readFormula raw formula => "parsed " ++ Text.quote raw ++ " as " ++ formula.text
  | rolledDie sides value => "d" ++ toString sides ++ " -> " ++ toString value
  | droppedDie keep index value =>
    keep.text ++ " drops die #" ++ toString index ++ " (" ++ toString value ++ ")"
  | droppedTwin mode value => mode.label ++ " drops " ++ toString value
  | rolledFormula formula mode modifier dice subtotal total =>
    "rolled " ++ formula.text ++ " (" ++ mode.label ++ ", " ++ Total.signed modifier ++ "): " ++
      toString dice ++ " dice, subtotal " ++ toString subtotal ++ ", total " ++ toString total
  | doubledDamage doubled formula =>
    "critical hit: rolling " ++ doubled.text ++ " instead of " ++ formula.text

end Event
end Dicebag
