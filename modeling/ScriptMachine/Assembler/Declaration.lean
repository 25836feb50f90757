import ScriptMachine.Assembler.Body

/-!
# Declarations

What a script is assembled from. A function starts with a prologue that moves its arguments from the
stack into its parameters, and an instance starts by running the prototype it derives from.
-/

namespace ScriptMachine.Assembler

/-- A member of a class. -/
structure Member where
  name : String
  type : DataType
  count : UInt32

/-- What a script is assembled from. -/
inductive Declaration where
  | cls (name : String) (members : List Member)
  | var (name : String) (type : DataType) (count : UInt32)
  | instanceVar (name : String) (cls : UInt32)
  | intConst (name : String) (values : List Int32)
  | floatConst (name : String) (values : List Single)
  | stringConst (name text : String)
  | stringLiteral (text : String)
  | external (name : String) (params : List DataType) (result : Option DataType)
  | function (name : String) (params : List DataType) (result : Option DataType)
      (body : List BodyItem)
  | proto (name : String) (parent : UInt32) (body : List BodyItem)
  | inst (name : String) (parent : UInt32) (body : List BodyItem)

/-- The zeros a variable starts with. -/
def zeros (type : DataType) (count : UInt32) : SymbolData :=
  match type with
  | .int => .ints (List.replicate count.toNat 0)
  | .float => .floats (List.replicate count.toNat .zero)
  | .string => .strings (List.replicate count.toNat "")
  | _ => .none

/-- A class and its members, each at the offset where the one before it ends. -/
def classSymbols (name : String) (index : UInt32) (members : List Member) : List Symbol :=
  let offsets := members.scanl (fun offset m => offset + 4 * m.count) (0 : UInt32)
  { Symbol.blank name index .cls none with
      count := UInt32.ofNat members.length
      extra := offsets.getLastD 0 } ::
    (members.zip offsets).map fun (m, offset) =>
      { Symbol.blank (name ++ "." ++ m.name) 0 m.type (some index) with
          flags := .member
          count := m.count
          extra := offset }

/-- A function of the script or of the host. -/
def functionSymbol (name : String) (params : List DataType) (result : Option DataType)
    (address : UInt32) : Symbol :=
  { Symbol.blank name 0 .func none with
      flags := if result.isSome then SymbolFlags.const.union .returns else .const
      count := UInt32.ofNat params.length
      extra := (result.map DataType.code).getD 0
      address }

/-- The parameters of a function. -/
def parameterSymbols (owner : String) (params : List DataType) : List Symbol :=
  params.zipIdx.map fun (type, i) =>
    { Symbol.blank (owner ++ ".PAR" ++ toString i) 0 type none with data := zeros type 1 }

/-- The instruction that moves an argument into a parameter. -/
def storeOpcode : DataType → Opcode
  | .float => .movf
  | .string => .movs
  | .inst => .movvi
  | _ => .movi

/-- The instructions that move the arguments into the parameters from a given index on, the last
argument first. -/
def prologue (params : List DataType) (first : UInt32) : List BodyItem :=
  params.zipIdx.reverse.flatMap fun (type, i) =>
    [BodyItem.pushVar (first + UInt32.ofNat i), BodyItem.op (storeOpcode type)]

/-- The call to the prototype an instance derives from, if it derives from one. -/
def inheritance (d : Draft) (parent : UInt32) : List BodyItem :=
  match d.symbolAt? parent with
  | some p => if p.type = .proto then [.emit .bl (.address p.address)] else []
  | none => []

namespace Draft

/-- Appends symbols. -/
def addAll (d : Draft) (symbols : List Symbol) : Draft :=
  symbols.foldl add d

/-- Adds a declaration to a draft. -/
def declare (d : Draft) : Declaration → Draft
  | .cls name members => d.addAll (classSymbols name d.nextIndex members)
  | .var name type count =>
    d.add { Symbol.blank name 0 type none with count, data := zeros type count }
  | .instanceVar name cls => d.add (Symbol.blank name 0 .inst (some cls))
  | .intConst name values =>
    d.add { Symbol.blank name 0 .int none with
      flags := .const, count := UInt32.ofNat values.length, data := .ints values }
  | .floatConst name values =>
    d.add { Symbol.blank name 0 .float none with
      flags := .const, count := UInt32.ofNat values.length, data := .floats values }
  | .stringConst name text => d.addStringConst name text
  | .stringLiteral text => d.addLiteral text
  | .external name params result =>
    let s := functionSymbol name params result 0
    (d.add { s with flags := s.flags.union .external }).addAll (parameterSymbols name params)
  | .function name params result body =>
    ((d.add (functionSymbol name params result d.here)).addAll
      (parameterSymbols name params)).addBody (prologue params (d.nextIndex + 1) ++ body)
  | .proto name parent body =>
    (d.add { Symbol.blank name 0 .proto (some parent) with
      flags := .const, count := 0, address := d.here }).addBody body
  | .inst name parent body =>
    let d' := d.add { Symbol.blank name 0 .inst (some parent) with
      flags := .const, count := 0, address := d.here }
    d'.addBody (inheritance d' parent ++ body)

end Draft

/-- Assembles declarations in order. -/
def assemble (declarations : List Declaration) : Draft :=
  declarations.foldl Draft.declare .empty

/-- The index of the symbol that each declaration introduces. -/
def declaredIndices (declarations : List Declaration) : List UInt32 :=
  (declarations.foldl (fun (d, indices) decl => (d.declare decl, d.nextIndex :: indices))
    (Draft.empty, [])).2.reverse

end ScriptMachine.Assembler
