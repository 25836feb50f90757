import ScriptMachine.Binary.LittleEndian
import ScriptMachine.Error
import ScriptMachine.Opcode

/-!
# Instructions

An instruction is an opcode with its operand at an address. Encoding lays it out in bytes; decoding
reads the instruction at an address of some code, and fails where the code ends or where the byte
is no opcode.
-/

namespace ScriptMachine

/-- The bytecode of a script. -/
abbrev Code := Array UInt8

/-- The operand of an instruction. -/
inductive Operand where
  | none
  | address (target : UInt32)
  | immediate (n : Int32)
  | symbol (index : UInt32)
  | element (symbol : UInt32) (index : UInt8)
  deriving DecidableEq

namespace Operand

/-- The shape of an operand. -/
def shape : Operand → OperandShape
  | none => .none
  | address _ => .address
  | immediate _ => .immediate
  | symbol _ => .symbol
  | element _ _ => .element

/-- The bytes of an operand. -/
def encode : Operand → List UInt8
  | none => []
  | address w | symbol w => LittleEndian.encode w
  | immediate n => LittleEndian.encode n.toUInt32
  | element s i => LittleEndian.encode s ++ [i]

/-- The word stored at a position of some code. -/
def wordAt? (code : Code) (i : Nat) : Option UInt32 := do
  let a ← code[i]?
  let b ← code[i + 1]?
  let c ← code[i + 2]?
  let d ← code[i + 3]?
  return LittleEndian.decode a b c d

/-- The operand of a given shape at a position of some code. -/
def decode? (shape : OperandShape) (code : Code) (i : Nat) : Option Operand :=
  match shape with
  | .none => some none
  | .address => (wordAt? code i).map address
  | .immediate => (wordAt? code i).map fun w => immediate w.toInt32
  | .symbol => (wordAt? code i).map symbol
  | .element => do
    let s ← wordAt? code i
    let e ← code[i + 4]?
    return element s e

end Operand

/-- An instruction in place. -/
structure Instruction where
  address : UInt32
  opcode : Opcode
  operand : Operand
  deriving DecidableEq

namespace Instruction

/-- The bytes of an instruction. Its operand is written as it is, whatever shape the opcode asks
for. -/
def encode (i : Instruction) : List UInt8 :=
  i.opcode.toByte :: i.operand.encode

/-- The instruction at an address of some code. -/
def decode (code : Code) (address : UInt32) : Except Error Instruction :=
  match code[address.toNat]? with
  | none => .error (.outOfBounds address (UInt32.ofNat code.size))
  | some byte =>
    match Opcode.ofByte? byte with
    | none => .error (.invalidOpcode byte address)
    | some opcode =>
      match Operand.decode? opcode.shape code (address.toNat + 1) with
      | none => .error (.outOfBounds address (UInt32.ofNat code.size))
      | some operand => .ok ⟨address, opcode, operand⟩

/-- The bytes an instruction takes in code. -/
def size (i : Instruction) : UInt32 := i.opcode.size

/-- The address behind an instruction. -/
def next (i : Instruction) : UInt32 := i.address + i.size

/-- One line of a listing: a mnemonic and what it applies to. -/
def line (opcode : Opcode) (operand : String) : String :=
  Text.padRight 8 opcode.mnemonic ++ " " ++ operand

/-- An instruction as text, with symbols and addresses as numbers. -/
def text (i : Instruction) : String :=
  match i.operand with
  | .none => i.opcode.mnemonic
  | .address target => line i.opcode ("0x" ++ Text.hexPadded 8 target.toNat)
  | .immediate n => line i.opcode (toString n.toInt)
  | .symbol s => line i.opcode ("#" ++ toString s.toNat)
  | .element s e => line i.opcode ("#" ++ toString s.toNat ++ "[" ++ toString e.toNat ++ "]")

end Instruction

end ScriptMachine
