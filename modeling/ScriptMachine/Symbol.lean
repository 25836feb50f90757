import ScriptMachine.Flags
import ScriptMachine.Kind
import ScriptMachine.Number.Single
import ScriptMachine.Text.Name

/-!
# Symbols

The entries of a script's symbol table: variables, constants, classes and their members, functions,
prototypes and instances. Symbols do not change once a script is loaded.
-/

namespace ScriptMachine

/-- The flags of a symbol, as the word they are stored in. -/
structure SymbolFlags where
  bits : UInt32
  deriving DecidableEq

namespace SymbolFlags

/-- No flags. -/
def none : SymbolFlags := ⟨0⟩
/-- The symbol cannot be written to, or it owns a body. -/
def const : SymbolFlags := ⟨0x01⟩
/-- The function returns a value. -/
def returns : SymbolFlags := ⟨0x02⟩
/-- The symbol is a member of a class. -/
def member : SymbolFlags := ⟨0x04⟩
/-- The host provides the function. -/
def external : SymbolFlags := ⟨0x08⟩
/-- The symbol comes from a merged script. -/
def merged : SymbolFlags := ⟨0x10⟩
/-- The symbol was added by the loader; this flag is never stored. -/
def generated : SymbolFlags := ⟨0x100⟩

/-- The bits a compiled script may store. -/
def stored : UInt32 := 0x1F

/-- All flags of both sets. -/
def union (a b : SymbolFlags) : SymbolFlags := ⟨a.bits ||| b.bits⟩

/-- Whether all flags of `b` are in `a`. -/
def contains (a b : SymbolFlags) : Bool := a.bits &&& b.bits == b.bits

/-- The names of the flags. -/
def table : FlagTable := [
  ⟨"CONST", const.bits⟩, ⟨"RETURN", returns.bits⟩, ⟨"MEMBER", member.bits⟩,
  ⟨"EXTERNAL", external.bits⟩, ⟨"MERGED", merged.bits⟩, ⟨"GENERATED", generated.bits⟩]

end SymbolFlags

/-- The initial value of a data symbol. -/
inductive SymbolData where
  | none
  | ints (values : List Int32)
  | floats (values : List Single)
  | strings (values : List String)
  deriving DecidableEq

/-- Where in its source text a symbol is declared. -/
structure SourceRange where
  file : UInt32
  lineStart : UInt32
  lineCount : UInt32
  charStart : UInt32
  charCount : UInt32
  deriving DecidableEq

/-- The range of a symbol that has no source text. -/
def SourceRange.none : SourceRange := ⟨0, 0, 0, 0, 0⟩

/-- An entry of the symbol table. -/
structure Symbol where
  name : String
  /-- The position of the symbol in its table. -/
  index : UInt32
  type : DataType
  flags : SymbolFlags
  /-- Elements of a variable, parameters of a function, members of a class. -/
  count : UInt32
  /-- The return type of a function, the size of a class, or the offset of a member. -/
  extra : UInt32
  /-- Where the body of a function, prototype or instance begins. -/
  address : UInt32
  /-- An offset that only classes carry. -/
  classOffset : Int32
  /-- The class of a member, and the class or prototype of an instance. -/
  parent : Option UInt32
  source : SourceRange
  data : SymbolData
  deriving DecidableEq

namespace Symbol

/-- A symbol with nothing but a name, a place, a type and a parent. -/
def blank (name : String) (index : UInt32) (type : DataType) (parent : Option UInt32) : Symbol where
  name
  index
  type
  flags := .none
  count := 1
  extra := 0
  address := 0
  classOffset := 0
  parent
  source := .none
  data := .none

variable (s : Symbol)

/-- Whether the symbol is constant. -/
def isConst : Bool := s.flags.contains .const
/-- Whether the symbol returns a value. -/
def hasReturn : Bool := s.flags.contains .returns
/-- Whether the symbol is a member of a class. -/
def isMember : Bool := s.flags.contains .member
/-- Whether the host provides the function. -/
def isExternal : Bool := s.flags.contains .external
/-- Whether the symbol comes from a merged script. -/
def isMerged : Bool := s.flags.contains .merged
/-- Whether the loader added the symbol. -/
def isGenerated : Bool := s.flags.contains .generated

/-- The declared return type, if there is one and its number is known. -/
def returnType? : Option DataType :=
  if s.hasReturn then DataType.ofCode? s.extra else none

/-- The size of a class. -/
def classSize? : Option UInt32 :=
  if s.type = .cls then some s.extra else none

/-- The offset of a member in its class. -/
def memberOffset? : Option UInt32 :=
  if s.isMember then some s.extra else none

/-- The offset that only classes carry. -/
def classOffset? : Option Int32 :=
  if s.type = .cls then some s.classOffset else none

/-- Whether the symbol is a function that can be called; a variable that holds a function is not
one. -/
def isCallable : Bool := s.type == .func && s.isConst

/-- Whether the symbol is an instance with a body of its own; a variable that holds an instance is
not one. -/
def isInstanceDefinition : Bool := s.type == .inst && s.isConst && !s.isMember

/-- The kind in which a value of the symbol crosses the stack. -/
def kind? : Option Kind := s.type.kind?

/-- The name of a member without its class. -/
def shortName : String := Text.lastComponent s.name

/-- The symbol in a report. -/
def text : String :=
  s.name ++ " (#" ++ toString s.index.toNat ++ ", " ++ s.type.name ++ ")"

end Symbol

/-- The ways to ask for a symbol. -/
inductive SymbolKey where
  | name (s : String)
  | index (i : UInt32)
  | address (a : UInt32)
  deriving DecidableEq

/-- A key in a report. -/
def SymbolKey.text : SymbolKey → String
  | name s => s
  | index i => "#" ++ toString i.toNat
  | address a => "@0x" ++ Text.hexPadded 8 a.toNat

end ScriptMachine
