import Dicebag.Console
import Dicebag.Console.Lines
import Dicebag.Keystream

/-!
# The program

The outermost layer: it reads the command line and lines of bytes, hands them to a console, and
writes what the console says.
-/

set_option autoImplicit false

namespace Dicebag
namespace Program

/-- Writes a piece of output. -/
def write (output : Output) : IO Unit := do
  let out ← IO.getStdout
  let err ← IO.getStderr
  err.putStr output.err
  err.flush
  out.putStr output.out
  out.flush

/-- Reads bytes up to and including a line feed, in reverse. -/
partial def readReversed (input : IO.FS.Stream) (reversed : List UInt8) : IO (List UInt8) := do
  let bytes ← input.read 1
  match bytes.toList with
  | [] => return reversed
  | b :: _ =>
    if b = Console.lineFeed then return b :: reversed else readReversed input (b :: reversed)

/-- Answers lines until the console or the input ends. -/
partial def loop (console : Console (Sampler Keystream)) : IO UInt32 := do
  let reversed ← readReversed (← IO.getStdin) []
  match Console.linesOf reversed.reverse with
  | [] => return 0
  | none :: _ =>
    write Console.notText
    return UInt32.ofNat Console.inputCode
  | some line :: _ =>
    let turn := console.step line
    write turn.output
    match turn.next with
    | .exit code => return UInt32.ofNat code
    | .more console => loop console

/-- A seed that nobody chose. -/
def anySeed : IO UInt64 := do
  let bytes ← IO.getRandomBytes 8
  return bytes.toList.foldl (fun seed b => seed * 256 + b.toUInt64) 0

/-- Talks to the user.  No room is set aside for the history: its lines are given theirs one by one,
as they come. -/
def talk (settings : Console.Settings) : IO UInt32 := do
  let seed ← match settings.seed with
    | some n => pure (UInt64.ofNat n)
    | none => anySeed
  let turn := Console.start settings (Sampler.mk (Keystream.ofSeed seed))
  write turn.output
  match turn.next with
  | .exit code => return UInt32.ofNat code
  | .more console => loop console

end Program
end Dicebag

open Dicebag in
/-- Starts the program in the way that its arguments ask for. -/
def main (args : List String) : IO UInt32 :=
  match Console.Invocation.ofArgs args with
  | .run settings => Program.talk settings
  | .version => do
    IO.print Console.versionLine
    return 0
  | .help => do
    IO.print Console.helpText
    return 0
  | .misuse => return 2
