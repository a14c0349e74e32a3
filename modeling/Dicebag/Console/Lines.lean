/-!
# Lines of input

Input is a sequence of bytes, cut into lines.  A line ends at a line feed, which is not part of it,
nor is one carriage return before it; the last line may end with the input instead.  A line that is
not UTF-8 has no text.
-/

set_option autoImplicit false

namespace Dicebag
namespace Console

/-- The line feed. -/
def lineFeed : UInt8 := 10

/-- The carriage return. -/
def carriageReturn : UInt8 := 13

/-- The text of a line, if it is UTF-8. -/
def decode (bytes : List UInt8) : Option String := String.fromUTF8? ⟨bytes.toArray⟩

/-- The bytes of a line whose end was found, given in reverse. -/
def ended (reversed : List UInt8) : List UInt8 :=
  match reversed with
  | [] => []
  | b :: rest => if b = carriageReturn then rest.reverse else reversed.reverse

/-- Cuts bytes into lines; `reversed` are the bytes of the line under way, the last one first. -/
def cutFrom (reversed : List UInt8) : List UInt8 → List (List UInt8)
  | [] => if reversed.isEmpty then [] else [reversed.reverse]
  | b :: rest =>
    if b = lineFeed then ended reversed :: cutFrom [] rest else cutFrom (b :: reversed) rest

/-- The lines of some input. -/
def linesOf (bytes : List UInt8) : List (Option String) := (cutFrom [] bytes).map decode

end Console
end Dicebag
