import ScriptMachine.Text.Blank
import ScriptMachine.Text.Digits

/-!
# Flag sets

A set of flags is a word whose bits have names. It is written as the names of its set bits in the
order of their declaration, with the bits that have no name behind them in base sixteen, and it is
read back from any list of names and numbers.
-/

namespace ScriptMachine

/-- A named flag: one or more bits of a word. -/
structure Flag where
  name : String
  bits : UInt32
  deriving DecidableEq

/-- The flag that is one bit of a word, counted from the lowest. -/
def Flag.bit (name : String) (position : UInt32) : Flag := ⟨name, 1 <<< position⟩

/-- The flags a word may hold, in the order they are reported in. -/
abbrev FlagTable := List Flag

namespace FlagTable

/-- The named flags whose bits are all set in a word. -/
def set (table : FlagTable) (word : UInt32) : List Flag :=
  table.filter fun f => word &&& f.bits == f.bits

/-- The names of the flags set in a word. -/
def names (table : FlagTable) (word : UInt32) : List String :=
  (table.set word).map (·.name)

/-- The set bits of a word that belong to no named flag. -/
def unnamed (table : FlagTable) (word : UInt32) : UInt32 :=
  (table.set word).foldl (fun rest f => rest &&& ~~~f.bits) word

/-- A word as text: names, then the unnamed bits, between vertical bars. -/
def render (table : FlagTable) (word : UInt32) : String :=
  let rest := table.unnamed word
  " | ".intercalate
    (table.names word ++ if rest == 0 then [] else ["0x" ++ Text.hex rest.toNat])

/-- A word as a report shows it; the empty set is written as the number zero. -/
def describe (table : FlagTable) (word : UInt32) : String :=
  if word == 0 then "0x0" else table.render word

/-- Digits of base sixteen behind an optional plus sign, as a 32-bit word. -/
def readBits? (cs : List Char) : Option UInt32 :=
  let digits :=
    match cs with
    | '+' :: rest => rest
    | _ => cs
  (Text.readHex? digits).bind fun n => if n < UInt32.size then some (UInt32.ofNat n) else none

/-- The bits one part of a list of flags stands for: a number or a name. -/
def readPart? (table : FlagTable) (part : List Char) : Option UInt32 :=
  match part with
  | '0' :: 'x' :: digits => readBits? digits
  | _ => (table.find? fun f => f.name == String.ofList part).map (·.bits)

/-- Reads a list of flags between vertical bars. A blank text is the empty set; an empty part, a
number that is none and a name that no flag has are refused. -/
def read? (table : FlagTable) (cs : List Char) : Option UInt32 :=
  if (Text.trim cs).isEmpty then some 0
  else
    (Text.split (· == '|') cs).foldlM
      (fun word part => (table.readPart? (Text.trim part)).map (word ||| ·)) 0

end FlagTable

end ScriptMachine
