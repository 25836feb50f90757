import ScriptMachine.Script.Basic
import ScriptMachine.Text.Encoding

/-!
# Drafts

A script under construction: the symbols declared so far and the code emitted so far. A finished
draft is laid out in the bytes the loader reads.
-/

namespace ScriptMachine.Assembler

/-- A script under construction. -/
structure Draft where
  symbols : Array Symbol
  code : Code
  /-- How many text literals have been named. -/
  literals : Nat

namespace Draft

/-- A draft without symbols and code. -/
def empty : Draft := ⟨#[], #[], 0⟩

/-- The version every draft is written with. -/
def version : UInt8 := 50

variable (d : Draft)

/-- The index the next symbol gets. -/
def nextIndex : UInt32 := UInt32.ofNat d.symbols.size

/-- The address the next instruction gets. -/
def here : UInt32 := UInt32.ofNat d.code.size

/-- Appends a symbol at the next index, its name in upper case. -/
def add (s : Symbol) : Draft :=
  let s := { s with name := Text.upperName s.name, index := d.nextIndex }
  { d with symbols := d.symbols.push s }

/-- Appends bytes to the code. -/
def addCode (bytes : List UInt8) : Draft :=
  { d with code := d.code ++ bytes.toArray }

/-- Appends an instruction to the code. -/
def emit (opcode : Opcode) (operand : Operand) : Draft :=
  d.addCode (Instruction.encode ⟨d.here, opcode, operand⟩)

/-- Overwrites the word at a position of the code. -/
def patch (position : Nat) (w : UInt32) : Draft :=
  { d with
    code := (LittleEndian.encode w).zipIdx.foldl
      (fun code (b, i) => code.setIfInBounds (position + i) b) d.code }

/-- The symbol at an index. -/
def symbolAt? (i : UInt32) : Option Symbol := d.symbols[i.toNat]?

end Draft

/-! ## Layout -/

/-- A text followed by a line feed. -/
def lineBytes (enc : Text.Encoding) (s : String) : List UInt8 :=
  enc.encode s.toList ++ [0x0A]

/-- The payload of a symbol that is no member. Values that are missing are written as zeros. -/
def payloadBytes (enc : Text.Encoding) (s : Symbol) : List UInt8 :=
  match s.type, s.data with
  | .float, .floats values => values.flatMap fun x => LittleEndian.encode x.bits
  | .int, .ints values => values.flatMap fun n => LittleEndian.encode n.toUInt32
  | .string, .strings values => values.flatMap (lineBytes enc)
  | .float, _ | .int, _ => (List.replicate s.count.toNat (LittleEndian.encode 0)).flatten
  | .string, _ => List.replicate s.count.toNat 0x0A
  | .cls, _ => LittleEndian.encode s.classOffset.toUInt32
  | .func, _ | .proto, _ | .inst, _ => LittleEndian.encode s.address
  | .void, _ => []

/-- The word that holds the count, the type and the flags of a symbol. -/
def propertyWord (s : Symbol) : UInt32 :=
  (s.count &&& (0xFFF : UInt32)) ||| (s.type.code <<< (12 : UInt32)) |||
    ((s.flags.bits &&& SymbolFlags.stored) <<< (16 : UInt32))

/-- The bytes of a range of source text. -/
def sourceBytes (r : SourceRange) : List UInt8 :=
  [r.file, r.lineStart, r.lineCount, r.charStart, r.charCount].flatMap LittleEndian.encode

/-- The name of a symbol behind a word that says whether it has one. -/
def nameBytes (enc : Text.Encoding) (s : Symbol) : List UInt8 :=
  if s.name.isEmpty then LittleEndian.encode 0
  else LittleEndian.encode 1 ++ lineBytes enc s.name

/-- The bytes of a symbol. -/
def symbolBytes (enc : Text.Encoding) (s : Symbol) : List UInt8 :=
  nameBytes enc s ++ LittleEndian.encode s.extra ++ LittleEndian.encode (propertyWord s) ++
    sourceBytes s.source ++ (if s.isMember then [] else payloadBytes enc s) ++
    LittleEndian.encode (s.parent.getD 0xFFFFFFFF)

namespace Draft

variable (d : Draft)

/-- The indices of the symbols in the order of their names. -/
def sortTable : List UInt32 :=
  (d.symbols.toList.mergeSort fun a b => a.name ≤ b.name).map (·.index)

/-- The bytes of a compiled script. -/
def bytes (enc : Text.Encoding) : List UInt8 :=
  [version] ++ LittleEndian.encode d.nextIndex ++ d.sortTable.flatMap LittleEndian.encode ++
    d.symbols.toList.flatMap (symbolBytes enc) ++ LittleEndian.encode d.here ++ d.code.toList

end Draft

end ScriptMachine.Assembler
