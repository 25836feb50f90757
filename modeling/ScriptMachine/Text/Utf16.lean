import ScriptMachine.Text.Utf8

/-!
# UTF-16

Reading never fails: each surrogate without its partner becomes one replacement character, and so
does what is left incomplete at the end.
-/

namespace ScriptMachine.Text

/-- Which byte of a unit comes first. -/
inductive ByteOrder where
  | little
  | big
  deriving DecidableEq

namespace Utf16

/-- The unit made of two bytes in the order they are stored. -/
def unit (order : ByteOrder) (a b : UInt8) : Nat :=
  match order with
  | .little => a.toNat + 256 * b.toNat
  | .big => 256 * a.toNat + b.toNat

/-- The character a unit outside a pair stands for. -/
def single (u : Nat) : Char :=
  if 0xD800 ≤ u ∧ u ≤ 0xDFFF then replacement else Char.ofNat u

/-- Reads bytes after a leading surrogate, if one is waiting for its partner. -/
def decodeFrom (order : ByteOrder) (lead : Option Nat) : List UInt8 → List Char
  | a :: b :: rest =>
    let u := unit order a b
    match lead with
    | some l =>
      if 0xDC00 ≤ u ∧ u ≤ 0xDFFF then
        Char.ofNat (0x10000 + 0x400 * (l - 0xD800) + (u - 0xDC00)) :: decodeFrom order none rest
      else if 0xD800 ≤ u ∧ u ≤ 0xDBFF then
        replacement :: decodeFrom order (some u) rest
      else replacement :: single u :: decodeFrom order none rest
    | none =>
      if 0xD800 ≤ u ∧ u ≤ 0xDBFF then decodeFrom order (some u) rest
      else single u :: decodeFrom order none rest
  | [_] => [replacement]
  | [] => if lead.isSome then [replacement] else []

/-- The text of a list of bytes. -/
def decode (order : ByteOrder) (bytes : List UInt8) : List Char :=
  decodeFrom order none bytes

end Utf16

end ScriptMachine.Text
