import Dicebag.Console.History
import Dicebag.Console.Options
import Dicebag.Rendering
import Dicebag.Request

/-!
# The console

A console prompts for a line, answers it, and prompts again.  Blanks around a line do not count, and
what is left is

* `q`, to quit;
* `h`, to list the history;
* nothing or `r`, to roll the last formula again;
* anything else, a formula to roll.

`Console.step` answers one line and `Console.run` a whole input; before that, `Console.session` asks
a memory for the room of the history.  Rolls, listings and prompts go to the standard output; errors
and the log go to the standard error.  Only a roll changes the state of a console: its roller, its
history and, if the formula was typed, the formula to roll again.
-/

set_option autoImplicit false

namespace Dicebag

/-! ## Output -/

/-- What is written to the two outputs. -/
structure Output where
  /-- The standard output. -/
  out : String
  /-- The standard error. -/
  err : String
deriving DecidableEq, Repr

namespace Output

/-- Nothing. -/
def none : Output := ⟨"", ""⟩

/-- One piece of output after the other. -/
instance : Append Output := ⟨fun a b => ⟨a.out ++ b.out, a.err ++ b.err⟩⟩

/-- A line on the standard output. -/
def line (text : String) : Output := ⟨text ++ "\n", ""⟩

/-- A line on the standard error. -/
def errorLine (text : String) : Output := ⟨"", text ++ "\n"⟩

/-- Several pieces of output in order. -/
def concat (pieces : List Output) : Output := pieces.foldr (· ++ ·) none

end Output

/-- A console. -/
structure Console (σ : Type) where
  /-- How it behaves. -/
  settings : Console.Settings
  /-- What it has shown for its latest rolls. -/
  history : History
  /-- What it rolls when no formula is typed. -/
  last : Option Request
  /-- Where its dice come from. -/
  roller : σ

namespace Console

/-- Whether a console goes on. -/
inductive Next (σ : Type)
  /-- It waits for a line. -/
  | more (console : Console σ)
  /-- It ends with an exit code. -/
  | exit (code : Nat)

/-- What a console writes, and whether it goes on. -/
structure Turn (σ : Type) where
  /-- What it writes. -/
  output : Output
  /-- Whether it goes on. -/
  next : Next σ

variable {σ : Type}

/-! ## The log -/

/-- The name of a level in five places. -/
def levelField (level : Level) : String :=
  level.label ++ String.ofList (List.replicate (5 - level.label.length) ' ')

/-- A log record, if its level is shown. -/
def logLine (settings : Settings) (level : Level) (topic : Topic) (message : String) : Output :=
  match settings.logLevel with
  | none => .none
  | some limit =>
    if limit.shows level then
      .errorLine ("[" ++ levelField level ++ " " ++ topic.label ++ "] " ++ message)
    else .none

/-- The records of some events, as far as they are shown. -/
def logLines (settings : Settings) (events : List Event) : Output :=
  .concat (events.map fun e => logLine settings e.level e.topic e.message)

/-! ## Errors -/

/-- The error that a typed formula gives.  If it arose at a place, the formula is repeated with that
place marked below it: as many spaces as there are bytes before it, and a caret for each of its
bytes, at least one. -/
def report (typed : String) (error : ParseError) : Output :=
  .errorLine ("Error: " ++ error.message) ++
    match error.place? with
    | none => .none
    | some place =>
      .errorLine ("  " ++ typed) ++
        .errorLine ("  " ++ String.ofList (List.replicate place.span.start ' ') ++
          String.ofList (List.replicate (max place.span.length 1) '^'))

/-! ## Turns -/

/-- The prompt. -/
def prompt : Output := ⟨"> ", ""⟩

/-- How rolls are shown. -/
def Settings.style (settings : Settings) : Style :=
  if settings.markdown then .markdown else .plain

/-- The exit code where rolling had to stop. -/
def faultCode : Nat := 101

/-- The exit code where the input is not text. -/
def inputCode : Nat := 1

/-- The console goes on, and prompts. -/
def goOn (output : Output) (c : Console σ) : Turn σ := ⟨output ++ prompt, .more c⟩

/-- Rolls a request, which is then the one to roll again, and shows the result. -/
def rollRequest [Roller σ] (c : Console σ) (request : Request) : Turn σ :=
  let after := request.roll.run c.roller
  let log := logLines c.settings after.log
  match after.answer with
  | .error fault => ⟨log ++ .errorLine fault.message, .exit faultCode⟩
  | .ok roll =>
    let text := c.settings.style.render request.formula roll
    goOn (log ++ .line text)
      { c with history := c.history.push text, last := some request, roller := after.roller }

/-- Answers a line. -/
def step [Roller σ] (c : Console σ) (line : String) : Turn σ :=
  let typed := Text.trim line
  if typed = "q" then ⟨.none, .exit 0⟩
  else if typed = "h" then goOn (.concat (c.history.listing.map .line)) c
  else if typed = "" ∨ typed = "r" then
    match c.last with
    | some request => c.rollRequest request
    | none => goOn (logLine c.settings .warn .console "nothing to reroll yet") c
  else
    match Request.parse typed with
    | .error e => goOn (logLines c.settings (parseLog typed) ++ report typed e) c
    | .ok request =>
      let turn := c.rollRequest
        { request with mode := c.settings.mode, modifier := c.settings.modifier }
      ⟨logLines c.settings (parseLog typed) ++ turn.output, turn.next⟩

/-- Starts a console, which prompts for its first line. -/
def start (settings : Settings) (roller : σ) : Turn σ :=
  goOn (logLine settings .info .console ("rolling with " ++ settings.mode.label ++
      " and modifier " ++ Total.signed settings.modifier))
    ⟨settings, .empty settings.history, none, roller⟩

/-! ## Texts of the program -/

/-- What `--version` prints. -/
def versionLine : String := "repl 0.1.0\n"

/-- An option in the help: how it is written, what it is for, and remarks on its values. -/
def helpEntry (usage about : String) (remarks : List String) : String :=
  let margin := String.ofList (List.replicate 10 ' ')
  let below := if remarks = [] then [] else "" :: remarks
  "\n  " ++ usage ++ "\n" ++ String.join ((about :: below).map fun line => margin ++ line ++ "\n")

/-- What `--help` prints.  The summary that `-h` has instead is left out. -/
def helpText : String :=
  "Roll dice formulas such as `2d6+3`, `4d6kh3` or `1d20-1`.\n\n" ++
  "An empty line or `r` rerolls the last formula, `h` prints the history and `q` quits.\n\n" ++
  "Usage: repl [OPTIONS]\n\n" ++
  "Options:" ++
  helpEntry "-a, --advantage <ADVANTAGE>" "Advantage mode for the formula's lone d20"
    ["[default: normal]", "[possible values: normal, advantage, disadvantage]"] ++
  helpEntry "-m, --modifier <MODIFIER>" "Modifier added to every roll on top of the formula's own"
    ["[default: 0]"] ++
  helpEntry "-s, --seed <SEED>" "Seed for a reproducible session" [] ++
  helpEntry "    --history <HISTORY>" "Number of rolls kept in the history" ["[default: 50]"] ++
  helpEntry "    --markdown" "Render results as markdown" [] ++
  helpEntry "    --log-level <LOG_LEVEL>" "Log level (error, warn, info, debug, trace)"
    ["[default: warn]"] ++
  helpEntry "-h, --help" "Print help (see a summary with '-h')" [] ++
  helpEntry "-V, --version" "Print version" []

/-! ## Whole inputs -/

/-- What a console wrote, and the exit code with which it ended. -/
structure Transcript where
  /-- All that was written. -/
  output : Output
  /-- The exit code. -/
  code : Nat
deriving DecidableEq, Repr

/-- What a console says to a line that is not text. -/
def notText : Output :=
  .errorLine "Error: Error \x7b kind: InvalidData, message: \"stream did not contain valid UTF-8\" \x7d"

/-- Answers the lines of an input until one of them, or the end of the input, ends the console.  A
line that is not text ends it with an error. -/
def run [Roller σ] (c : Console σ) : List (Option String) → Transcript
  | [] => ⟨.none, 0⟩
  | none :: _ => ⟨notText, inputCode⟩
  | some line :: rest =>
    let turn := c.step line
    match turn.next with
    | .exit code => ⟨turn.output, code⟩
    | .more after =>
      let others := after.run rest
      ⟨turn.output ++ others.output, others.code⟩

/-- A whole run of a console, from its start to its end. -/
def transcript [Roller σ] (settings : Settings) (roller : σ) (lines : List (Option String)) :
    Transcript :=
  let turn := start settings roller
  match turn.next with
  | .exit code => ⟨turn.output, code⟩
  | .more c =>
    let others := c.run lines
    ⟨turn.output ++ others.output, others.code⟩

/-- A whole session.  First of all the room for the history is set aside, and if the memory refuses
that no console starts. -/
def session [Roller σ] {ρ : Type} (memory : Memory ρ) (settings : Settings) (roller : σ)
    (lines : List (Option String)) : Except ρ Transcript :=
  (memory.roomFor settings.history).map fun _ => transcript settings roller lines

end Console
end Dicebag
