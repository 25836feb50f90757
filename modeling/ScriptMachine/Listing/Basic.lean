import ScriptMachine.Script.Basic

/-!
# Listings

A script laid open: its symbol table, and the instructions of each body with names in the place of
indices and addresses. Bodies that do not decode are left out and reported.
-/

namespace ScriptMachine

/-- A symbol in a listing. -/
structure SymbolEntry where
  index : UInt32
  name : String
  type : DataType
  flags : List String
  count : UInt32
  parent : Option String
  address : Option UInt32

/-- An instruction in a listing. -/
structure ListedInstruction where
  address : UInt32
  mnemonic : String
  operands : List String

/-- A body in a listing. -/
structure ListedBody where
  name : String
  address : UInt32
  instructions : List ListedInstruction

/-- A script laid open. -/
structure Listing where
  version : UInt8
  symbols : List SymbolEntry
  bodies : List ListedBody

/-- A body that does not decode. -/
structure BodyFault where
  name : String
  address : UInt32
  error : Error

/-- The report of a body that does not decode. -/
def BodyFault.message (f : BodyFault) : String :=
  f.name ++ " @ 0x" ++ Text.hexPadded 8 f.address.toNat ++ ": " ++ f.error.message

namespace Script

variable (p : Script)

/-- A symbol as a listing shows it. Only symbols that may have a body show an address. -/
def symbolEntry (s : Symbol) : SymbolEntry where
  index := s.index
  name := s.name
  type := s.type
  flags := (SymbolFlags.table.names s.flags.bits).map String.toLower
  count := s.count
  parent := (s.parent.bind p.symbolByIndex?).map (·.name)
  address :=
    if (s.type == .func || s.type == .proto || s.type == .inst) && !s.isExternal && !s.isMember then
      some s.address
    else none

/-- An instruction as a listing shows it. -/
def listInstruction (i : Instruction) : ListedInstruction where
  address := i.address
  mnemonic := i.opcode.mnemonic
  operands :=
    match i.operand with
    | .none => []
    | .immediate n => [toString n.toInt]
    | .symbol s => [p.nameOrIndex s]
    | .element s e => [p.nameOrIndex s, toString e.toNat]
    | .address target =>
      let plain := "0x" ++ Text.hexPadded 8 target.toNat
      match p.symbolByAddress? target with
      | some s => if i.opcode = .bl then [s.name] else [plain]
      | none => [plain]

/-- A body as a listing shows it, or why it does not decode. -/
def listBody (b : Body) : Except BodyFault ListedBody :=
  match p.decodeRange b.symbol.address b.stop with
  | .ok is => .ok ⟨b.symbol.name, b.symbol.address, is.map p.listInstruction⟩
  | .error e => .error ⟨b.symbol.name, b.symbol.address, e⟩

/-- The listing of a script. -/
def listing : Listing where
  version := p.version
  symbols := p.symbols.toList.map p.symbolEntry
  bodies := p.bodies.filterMap fun b => (p.listBody b).toOption

/-- The bodies a listing leaves out, by address. -/
def listingFaults : List BodyFault :=
  p.bodies.filterMap fun b =>
    match p.listBody b with
    | .ok _ => none
    | .error f => some f

end Script

end ScriptMachine
