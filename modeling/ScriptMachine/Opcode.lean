import ScriptMachine.Enumeration

/-!
# Opcodes

The instructions of the machine: the byte each is stored as, its mnemonic, and the shape of the
operand that follows it. Bytes and opcodes determine each other.
-/

namespace ScriptMachine

/-- The forms an operand takes. -/
inductive OperandShape where
  | none
  /-- A code address. -/
  | address
  /-- A signed number. -/
  | immediate
  /-- The index of a symbol. -/
  | symbol
  /-- The index of a symbol and of an element in it. -/
  | element
  deriving DecidableEq

/-- The bytes an operand of a shape takes. -/
def OperandShape.size : OperandShape → UInt32
  | none => 0
  | address | immediate | symbol => 4
  | element => 5

/-- The instructions of the machine. -/
inductive Opcode where
  | add | sub | mul | div | mod
  /-- Bitwise disjunction. -/
  | or
  /-- Bitwise conjunction. -/
  | andb
  | lt | gt
  /-- Stores an integer. -/
  | movi
  /-- Logical disjunction. -/
  | orr
  /-- Logical conjunction. -/
  | and
  | lsl | lsr | lte | eq | neq | gte
  | addmovi | submovi | mulmovi | divmovi
  | plus | negate
  /-- Logical negation. -/
  | not
  /-- Bitwise complement. -/
  | cmpl
  | nop
  /-- Returns from a body. -/
  | rsr
  /-- Calls the body at an address. -/
  | bl
  /-- Calls an external function. -/
  | be
  | pushi
  /-- Pushes a reference to a variable. -/
  | pushv
  /-- Pushes the instance bound to a symbol. -/
  | pushvi
  | movs | movss
  /-- Stores a function reference. -/
  | movvf
  | movf
  /-- Stores an instance. -/
  | movvi
  | b
  /-- Jumps if the number popped is zero. -/
  | bz
  /-- Makes the instance bound to a symbol the current one. -/
  | gmovi
  /-- Pushes a reference to an element of a variable. -/
  | pushvv
  deriving DecidableEq

namespace Opcode

/-- All opcodes, in the order of their bytes. -/
def all : List Opcode := [
  add, sub, mul, div, mod, or, andb, lt, gt, movi, orr, and, lsl, lsr, lte, eq, neq, gte,
  addmovi, submovi, mulmovi, divmovi, plus, negate, not, cmpl, nop, rsr, bl, be, pushi, pushv,
  pushvi, movs, movss, movvf, movf, movvi, b, bz, gmovi, pushvv]

/-- The byte an opcode is stored as. -/
def toByte : Opcode → UInt8
  | add => 0 | sub => 1 | mul => 2 | div => 3 | mod => 4
  | or => 5 | andb => 6 | lt => 7 | gt => 8 | movi => 9
  | orr => 11 | and => 12 | lsl => 13 | lsr => 14 | lte => 15
  | eq => 16 | neq => 17 | gte => 18
  | addmovi => 19 | submovi => 20 | mulmovi => 21 | divmovi => 22
  | plus => 30 | negate => 31 | not => 32 | cmpl => 33
  | nop => 45 | rsr => 60 | bl => 61 | be => 62
  | pushi => 64 | pushv => 65 | pushvi => 67
  | movs => 70 | movss => 71 | movvf => 72 | movf => 73 | movvi => 74
  | b => 75 | bz => 76 | gmovi => 80 | pushvv => 245

/-- The opcode a byte stands for. -/
def ofByte? : UInt8 → Option Opcode
  | 0 => some add | 1 => some sub | 2 => some mul | 3 => some div | 4 => some mod
  | 5 => some or | 6 => some andb | 7 => some lt | 8 => some gt | 9 => some movi
  | 11 => some orr | 12 => some and | 13 => some lsl | 14 => some lsr | 15 => some lte
  | 16 => some eq | 17 => some neq | 18 => some gte
  | 19 => some addmovi | 20 => some submovi | 21 => some mulmovi | 22 => some divmovi
  | 30 => some plus | 31 => some negate | 32 => some not | 33 => some cmpl
  | 45 => some nop | 60 => some rsr | 61 => some bl | 62 => some be
  | 64 => some pushi | 65 => some pushv | 67 => some pushvi
  | 70 => some movs | 71 => some movss | 72 => some movvf | 73 => some movf | 74 => some movvi
  | 75 => some b | 76 => some bz | 80 => some gmovi | 245 => some pushvv
  | _ => none

@[simp] theorem ofByte?_toByte (op : Opcode) : ofByte? op.toByte = some op := by
  cases op <;> rfl

/-- The name of an opcode in a listing. -/
def mnemonic : Opcode → String
  | add => "add" | sub => "sub" | mul => "mul" | div => "div" | mod => "mod"
  | or => "or" | andb => "andb" | lt => "lt" | gt => "gt" | movi => "movi"
  | orr => "orr" | and => "and" | lsl => "lsl" | lsr => "lsr" | lte => "lte"
  | eq => "eq" | neq => "neq" | gte => "gte"
  | addmovi => "addmovi" | submovi => "submovi" | mulmovi => "mulmovi" | divmovi => "divmovi"
  | plus => "plus" | negate => "negate" | not => "not" | cmpl => "cmpl"
  | nop => "nop" | rsr => "rsr" | bl => "bl" | be => "be"
  | pushi => "pushi" | pushv => "pushv" | pushvi => "pushvi"
  | movs => "movs" | movss => "movss" | movvf => "movvf" | movf => "movf" | movvi => "movvi"
  | b => "b" | bz => "bz" | gmovi => "gmovi" | pushvv => "pushvv"

instance : Enumeration Opcode where
  members := all
  code op := op.toByte.toNat
  label := mnemonic

/-- The shape of the operand behind an opcode. -/
def shape : Opcode → OperandShape
  | bl | b | bz => .address
  | pushi => .immediate
  | be | pushv | pushvi | gmovi => .symbol
  | pushvv => .element
  | _ => .none

/-- The bytes an instruction takes, its opcode included. -/
def size (op : Opcode) : UInt32 :=
  1 + op.shape.size

end Opcode

end ScriptMachine
