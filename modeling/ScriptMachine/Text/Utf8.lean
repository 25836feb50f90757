/-!
# UTF-8

Reading never fails: each maximal piece of an ill-formed sequence becomes one replacement
character. The reader takes one byte at a time and remembers which bytes may continue the character
it is in.
-/

namespace ScriptMachine.Text

/-- The character that stands for what could not be decoded. -/
def replacement : Char := '\uFFFD'

namespace Utf8

/-- A character begun but not complete. -/
structure Pending where
  /-- The bits of the character read so far. -/
  value : Nat
  /-- How many bytes are still owed. -/
  owed : Nat
  /-- The least byte that may come next. -/
  low : UInt8
  /-- The greatest byte that may come next. -/
  high : UInt8

/-- Reads a byte between characters: what is pending after it, and the characters it completes. -/
def start (b : UInt8) : Option Pending × List Char :=
  if b < 0x80 then (none, [Char.ofNat b.toNat])
  else if 0xC2 ≤ b ∧ b ≤ 0xDF then (some ⟨b.toNat - 0xC0, 1, 0x80, 0xBF⟩, [])
  else if 0xE0 ≤ b ∧ b ≤ 0xEF then
    (some ⟨b.toNat - 0xE0, 2, if b = 0xE0 then 0xA0 else 0x80, if b = 0xED then 0x9F else 0xBF⟩, [])
  else if 0xF0 ≤ b ∧ b ≤ 0xF4 then
    (some ⟨b.toNat - 0xF0, 3, if b = 0xF0 then 0x90 else 0x80, if b = 0xF4 then 0x8F else 0xBF⟩, [])
  else (none, [replacement])

/-- Reads a byte in any state. A byte that cannot continue the pending character starts anew. -/
def next (state : Option Pending) (b : UInt8) : Option Pending × List Char :=
  match state with
  | none => start b
  | some p =>
    if p.low ≤ b ∧ b ≤ p.high then
      let value := 64 * p.value + (b.toNat - 0x80)
      if p.owed ≤ 1 then (none, [Char.ofNat value])
      else (some ⟨value, p.owed - 1, 0x80, 0xBF⟩, [])
    else
      let (state', cs) := start b
      (state', replacement :: cs)

/-- Reads the bytes that follow a state. A character left incomplete at the end is replaced. -/
def decodeFrom (state : Option Pending) : List UInt8 → List Char
  | [] => if state.isSome then [replacement] else []
  | b :: bs =>
    let (state', cs) := next state b
    cs ++ decodeFrom state' bs

/-- The text of a list of bytes. -/
def decode (bytes : List UInt8) : List Char :=
  decodeFrom none bytes

/-- The bytes of a text. -/
def encode (cs : List Char) : List UInt8 :=
  cs.flatMap String.utf8EncodeChar

end Utf8

end ScriptMachine.Text
