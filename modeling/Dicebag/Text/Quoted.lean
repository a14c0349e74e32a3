import Dicebag.Text.Blank
import Dicebag.Text.Extending
import Dicebag.Text.Unprintable

/-!
# Quoted text

Messages quote the text they speak of, so that a blank, a control character or a stray combining
mark can be seen.  `Text.quote` puts the text between double quotes and writes

* a double quote and a backslash with a backslash before it;
* tab, carriage return, line feed and NUL as `\t`, `\r`, `\n` and `\0`;
* every other character without a printed form, and every character that extends the one before it,
  as its code point in lower case hexadecimal, such as `\u{301}`;
* all else as it stands, a single quote included.
-/

set_option autoImplicit false

namespace Dicebag
namespace Text

/-- The character is written as its code point: it cannot be printed, or would be drawn over the
character before it. -/
def isHidden (c : Char) : Bool := inRanges extendingRanges c || inRanges unprintableRanges c

/-- A character as its code point, in braces after `\u`. -/
def codePoint (c : Char) : String :=
  "\\u\x7b" ++ String.ofList (Nat.toDigits 16 c.toNat) ++ "\x7d"

/-- One character inside quotes. -/
def escape (c : Char) : String :=
  match c with
  | '"' => "\\\""
  | '\\' => "\\\\"
  | '\t' => "\\t"
  | '\r' => "\\r"
  | '\n' => "\\n"
  | '\x00' => "\\0"
  | _ => if isHidden c then codePoint c else String.singleton c

/-- The text between double quotes, with escapes. -/
def quote (text : String) : String :=
  "\"" ++ String.join (text.toList.map escape) ++ "\""

end Text
end Dicebag
