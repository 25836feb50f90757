import ScriptMachine.Text.Digits
import ScriptMachine.Text.GraphemeExtend
import ScriptMachine.Text.NonGraphic

/-!
# Quoted text

Text values are reported between double quotes. Quotes, backslashes and the common control
characters are escaped by a backslash and one character; every other character that has no visible
form of its own is written by its code.
-/

namespace ScriptMachine.Text

/-- Whether a character has a visible form that stands by itself; the space counts as one. -/
def isVisible (c : Char) : Bool :=
  c == ' ' || !(isNonGraphic c || isGraphemeExtend c)

/-- How one character is written between quotes. -/
def quoteChar (c : Char) : List Char :=
  match c.toNat with
  | 0x00 => ['\\', '0']
  | 0x09 => ['\\', 't']
  | 0x0A => ['\\', 'n']
  | 0x0D => ['\\', 'r']
  | 0x22 => ['\\', c]
  | 0x5C => ['\\', c]
  | n => if isVisible c then [c] else ['\\', 'u', '\x7b'] ++ hexDigits n ++ ['\x7d']

/-- A text between double quotes, with escapes. -/
def quote (s : String) : String :=
  String.ofList (['\x22'] ++ s.toList.flatMap quoteChar ++ ['\x22'])

end ScriptMachine.Text
