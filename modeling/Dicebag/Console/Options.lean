import Dicebag.Log
import Dicebag.Text.Blank

/-!
# Options of the console

The command line of the console has options only.  `-a`, `-m` and `-s` have long names too; a value
may follow its option as the next argument, or in the same one, after an equals sign or, for a
short option, at once.  No option may be given twice.

`Invocation.ofArgs` reads the arguments in order.  What it returns is one of the ways to start the
program, and the first argument that settles the matter wins: asking for the version or for help, or
the first mistake.
-/

set_option autoImplicit false

namespace Dicebag
namespace Console

/-- How a console behaves. -/
structure Settings where
  /-- The mode that every formula is rolled in. -/
  mode : Mode
  /-- What is added to every roll. -/
  modifier : Int
  /-- The seed of the generator; without one, every run is different. -/
  seed : Option Nat
  /-- The number of rolls that the history holds. -/
  history : Nat
  /-- Rolls are shown in Markdown. -/
  markdown : Bool
  /-- The level down to which the log is shown, if it is shown at all. -/
  logLevel : Option Level
deriving DecidableEq, Repr

/-- The ways to start the program. -/
inductive Invocation
  /-- Talk to the user. -/
  | run (settings : Settings)
  /-- Say which version this is. -/
  | version
  /-- Explain the options. -/
  | help
  /-- The arguments make no sense. -/
  | misuse
deriving DecidableEq, Repr

/-! ## Numbers and words -/

/-- The number that a text of digits writes, if it is at most `greatest`. -/
def natural? (greatest : Nat) (cs : List Char) : Option Nat :=
  if cs ≠ [] ∧ cs.all Char.isDigit ∧ Digits.value cs ≤ greatest then some (Digits.value cs)
  else none

/-- The largest 64-bit word. -/
def greatestWord : Nat := 18446744073709551615

/-- The unsigned number that a text writes; a plus sign may stand before it. -/
def unsigned? (text : String) : Option Nat :=
  match text.toList with
  | '+' :: cs => natural? greatestWord cs
  | cs => natural? greatestWord cs

/-- The total that a text writes; a sign may stand before it. -/
def total? (text : String) : Option Int :=
  match text.toList with
  | '-' :: cs => (natural? (-Total.least).toNat cs).map fun n => -(n : Int)
  | '+' :: cs => (natural? Total.greatest.toNat cs).map fun n => (n : Int)
  | cs => (natural? Total.greatest.toNat cs).map fun n => (n : Int)

/-- The level that a word names, in either case.  The word `off`, like any word that names no level,
shows nothing. -/
def logLevel? (word : String) : Option Level :=
  let name := String.ofList ((Text.trim word).toList.map Char.toUpper)
  Level.all.find? fun level => level.label == name

/-! ## Options with values -/

/-- The options that take a value. -/
inductive Valued
  /-- The mode. -/
  | mode
  /-- The modifier. -/
  | modifier
  /-- The seed. -/
  | seed
  /-- The size of the history. -/
  | history
  /-- The log level. -/
  | logLevel
deriving DecidableEq, Repr

/-- What the options read so far have set. -/
structure Draft where
  /-- The mode, if given. -/
  mode : Option Mode
  /-- The modifier, if given. -/
  modifier : Option Int
  /-- The seed, if given. -/
  seed : Option Nat
  /-- The size of the history, if given. -/
  history : Option Nat
  /-- Markdown was asked for. -/
  markdown : Bool
  /-- The word for the log level, if given. -/
  logLevel : Option String
deriving DecidableEq, Repr

namespace Draft

/-- Nothing set yet. -/
def empty : Draft := ⟨none, none, none, none, false, none⟩

/-- The settings, with a default for whatever was not given. -/
def settings (d : Draft) : Settings where
  mode := d.mode.getD .normal
  modifier := d.modifier.getD 0
  seed := d.seed
  history := d.history.getD 50
  markdown := d.markdown
  logLevel := logLevel? (d.logLevel.getD "warn")

/-- A value where there was none before. -/
def once {α : Type} (old new : Option α) : Option (Option α) :=
  match old, new with
  | none, some a => some (some a)
  | _, _ => none

/-- Sets an option, unless it was set before or the text is no value for it. -/
def assign? (d : Draft) (option : Valued) (text : String) : Option Draft :=
  match option with
  | .mode => (once d.mode (Mode.ofLabel? text)).map ({ d with mode := · })
  | .modifier => (once d.modifier (total? text)).map ({ d with modifier := · })
  | .seed => (once d.seed (unsigned? text)).map ({ d with seed := · })
  | .history => (once d.history (unsigned? text)).map ({ d with history := · })
  | .logLevel => (once d.logLevel (some text)).map ({ d with logLevel := · })

end Draft

/-! ## Arguments -/

/-- What an argument asks for. -/
inductive Argument
  /-- An option, with its value if that is in the same argument. -/
  | valued (option : Valued) (value : Option String)
  /-- Show rolls in Markdown. -/
  | markdown
  /-- Say which version this is. -/
  | version
  /-- Explain the options. -/
  | help
  /-- No more options follow. -/
  | endOfOptions
  /-- None of these. -/
  | unknown
deriving DecidableEq, Repr

namespace Argument

/-- The option of a short name. -/
def ofShort? : Char → Option Valued
  | 'a' => some .mode
  | 'm' => some .modifier
  | 's' => some .seed
  | _ => none

/-- The option of a long name. -/
def ofLong? : String → Option Valued
  | "advantage" => some .mode
  | "modifier" => some .modifier
  | "seed" => some .seed
  | "history" => some .history
  | "log-level" => some .logLevel
  | _ => none

/-- The value that follows a short option in the same argument. -/
def shortValue : List Char → Option String
  | [] => none
  | '=' :: cs => some (String.ofList cs)
  | cs => some (String.ofList cs)

/-- An argument after one dash. -/
def short (c : Char) (after : List Char) : Argument :=
  match ofShort? c with
  | some option => .valued option (shortValue after)
  | none => if c = 'V' then .version else if c = 'h' then .help else .unknown

/-- An argument after two dashes: a name, and the value after an equals sign. -/
def long (name : String) (value : Option String) : Argument :=
  match ofLong? name, value with
  | some option, _ => .valued option value
  | none, some _ => .unknown
  | none, none =>
    match name with
    | "markdown" => .markdown
    | "version" => .version
    | "help" => .help
    | _ => .unknown

/-- Reads an argument. -/
def read (text : String) : Argument :=
  match text.toList with
  | ['-', '-'] => .endOfOptions
  | '-' :: '-' :: cs =>
    let name := cs.takeWhile (· ≠ '=')
    match cs.dropWhile (· ≠ '=') with
    | [] => long (String.ofList name) none
    | _ :: value => long (String.ofList name) (some (String.ofList value))
  | '-' :: c :: cs => short c cs
  | _ => .unknown

end Argument

/-! ## Values in an argument of their own -/

/-- An argument can be the value of the option before it.  What starts with a dash is an option
itself, save for the dash alone and, after the modifier, for a negative number. -/
def mayBeValue (option : Valued) (text : String) : Bool :=
  match text.toList with
  | '-' :: c :: cs => option == .modifier && (c :: cs).all Char.isDigit
  | _ => true

/-! ## The command line -/

namespace Invocation

/-- Reads the arguments after those that made `draft`. -/
def ofArgsFrom (draft : Draft) (args : List String) : Invocation :=
  match args with
  | [] => .run draft.settings
  | arg :: rest =>
    match Argument.read arg with
    | .valued option (some value) =>
      match draft.assign? option value with
      | none => .misuse
      | some draft => ofArgsFrom draft rest
    | .valued option none =>
      match rest with
      | [] => .misuse
      | value :: rest =>
        if mayBeValue option value then
          match draft.assign? option value with
          | none => .misuse
          | some draft => ofArgsFrom draft rest
        else .misuse
    | .markdown =>
      if draft.markdown then .misuse else ofArgsFrom { draft with markdown := true } rest
    | .version => .version
    | .help => .help
    | .endOfOptions => if rest = [] then .run draft.settings else .misuse
    | .unknown => .misuse
termination_by args.length

/-- Reads a command line. -/
def ofArgs (args : List String) : Invocation := ofArgsFrom .empty args

end Invocation
end Console
end Dicebag
