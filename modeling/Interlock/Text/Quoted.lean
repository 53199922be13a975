import Interlock.Text.Hex
import Interlock.Text.Unprintable

/-!
# Quoted text

A text between double quotes, on one line and readable whatever it holds: quotes and backslashes
are escaped, the common controls have short forms, and every other unprintable character is
written by its number.
-/

namespace Interlock
namespace Quoted

/-- How one character is written between the quotes. -/
def escape (c : Char) : List Char :=
  match c with
  | '\x00' => ['\\', '0']
  | '\t' => ['\\', 't']
  | '\r' => ['\\', 'r']
  | '\n' => ['\\', 'n']
  | '"' => ['\\', '"']
  | '\\' => ['\\', '\\']
  | c =>
    if Unprintable.contains c then
      ['\\', 'u', '\x7b'] ++ Hex.number c.toNat ++ ['\x7d']
    else
      [c]

/-- The text between double quotes. -/
def quote (text : String) : String :=
  "\"" ++ String.ofList (text.toList.flatMap escape) ++ "\""

/-- An optional text, quoted if it is there. -/
def quote? : Option String → String
  | some text => "Some(" ++ quote text ++ ")"
  | none => "None"

end Quoted
end Interlock
