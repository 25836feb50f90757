import ScriptMachine.Number.Shortest

/-!
# Single-precision numbers

The machine stores and moves binary32 numbers without ever computing with them, so a number is kept
as its bit pattern: payloads of not-a-number and the sign of zero survive.
-/

namespace ScriptMachine

/-- A binary32 number as its bit pattern. -/
structure Single where
  bits : UInt32
  deriving DecidableEq

namespace Single

/-- The number zero, with a positive sign. -/
def zero : Single := ⟨0⟩

/-- Whether the sign bit is set. -/
def isNegative (x : Single) : Bool := x.bits ≥ 0x80000000

/-- The eight bits of the exponent. -/
def exponentField (x : Single) : Nat := ((x.bits >>> 23) &&& 0xFF).toNat

/-- The twenty-three bits of the fraction. -/
def fractionField (x : Single) : Nat := (x.bits &&& 0x7FFFFF).toNat

/-- Whether the pattern is no number. -/
def isNaN (x : Single) : Bool := x.exponentField == 255 && x.fractionField != 0

/-- Whether the pattern is a zero of either sign. -/
def isZero (x : Single) : Bool := (x.bits &&& 0x7FFFFFFF) == 0

/-- Numeric equality: zeros of both signs are equal, and what is no number equals nothing. -/
def equals (x y : Single) : Bool :=
  !x.isNaN && !y.isNaN && (x.bits == y.bits || (x.isZero && y.isZero))

/-- The magnitude of a finite number other than zero. -/
def magnitude (x : Single) : Dyadic :=
  if x.exponentField = 0 then ⟨x.fractionField, -149, false⟩
  else
    ⟨x.fractionField + 0x800000, (x.exponentField : Int) - 150,
      x.fractionField == 0 && x.exponentField > 1⟩

/-- The text of a number: the shortest digits that read back, never with an exponent. -/
def text (x : Single) : String :=
  if x.isNaN then "NaN"
  else
    let sign := if x.isNegative then "-" else ""
    if x.exponentField == 255 then sign ++ "inf"
    else if x.isZero then sign ++ "0"
    else
      match x.magnitude.shortest? with
      | some d => sign ++ String.ofList d.positional
      | none => sign

end Single

end ScriptMachine
