import ScriptMachine.Opcode
import ScriptMachine.Value

/-!
# Operators

What the arithmetic and assigning opcodes compute, apart from where their operands come from and
where their results go. Numbers wrap at 32 bits; an operator has no result where it would divide by
zero.
-/

namespace ScriptMachine

/-- A truth value as a number. -/
def truth (b : Bool) : Int32 := if b then 1 else 0

/-- The quotient rounded toward zero. -/
def quotient? (a b : Int32) : Option Int32 := if b = 0 then none else some (a / b)

/-- The remainder, which has the sign of the dividend. -/
def remainder? (a b : Int32) : Option Int32 := if b = 0 then none else some (a % b)

/-- What an opcode does. -/
inductive Effect where
  /-- Replaces two numbers by one; the first operand is the one popped first. -/
  | binary (f : Int32 → Int32 → Option Int32)
  /-- Replaces a number by another. -/
  | unary (f : Int32 → Int32)
  /-- Stores a value in a variable. -/
  | assign (k : CellKind)
  /-- Combines the number in a variable with another one. -/
  | update (f : Int32 → Int32 → Option Int32)
  | pushImmediate
  | pushReference
  | pushElement
  | pushInstance
  | setContext
  | jump
  | jumpIfZero
  | callBody
  | callExternal
  | leave
  | skip

namespace Opcode

/-- What an opcode does. -/
def effect : Opcode → Effect
  | add => .binary fun a b => some (a + b)
  | sub => .binary fun a b => some (a - b)
  | mul => .binary fun a b => some (a * b)
  | div => .binary quotient?
  | mod => .binary remainder?
  | or => .binary fun a b => some (a ||| b)
  | andb => .binary fun a b => some (a &&& b)
  | orr => .binary fun a b => some (truth (a != 0 || b != 0))
  | and => .binary fun a b => some (truth (a != 0 && b != 0))
  | lsl => .binary fun a b => some (a <<< b)
  | lsr => .binary fun a b => some (a >>> b)
  | lt => .binary fun a b => some (truth (a < b))
  | gt => .binary fun a b => some (truth (a > b))
  | lte => .binary fun a b => some (truth (a ≤ b))
  | gte => .binary fun a b => some (truth (a ≥ b))
  | eq => .binary fun a b => some (truth (a == b))
  | neq => .binary fun a b => some (truth (a != b))
  | plus => .unary fun a => a
  | negate => .unary fun a => -a
  | not => .unary fun a => truth (a == 0)
  | cmpl => .unary fun a => ~~~a
  | movi | movvf => .assign .int
  | movf => .assign .float
  | movs | movss => .assign .string
  | movvi => .assign .inst
  | addmovi => .update fun a b => some (a + b)
  | submovi => .update fun a b => some (a - b)
  | mulmovi => .update fun a b => some (a * b)
  | divmovi => .update quotient?
  | pushi => .pushImmediate
  | pushv => .pushReference
  | pushvv => .pushElement
  | pushvi => .pushInstance
  | gmovi => .setContext
  | b => .jump
  | bz => .jumpIfZero
  | bl => .callBody
  | be => .callExternal
  | rsr => .leave
  | nop => .skip

end Opcode

end ScriptMachine
