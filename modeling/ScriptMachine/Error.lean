import ScriptMachine.Symbol
import ScriptMachine.Value

/-!
# Errors

Everything that can go wrong, by cause. Each cause has one message, and some leave the stack and
the frames of a running script in doubt.
-/

namespace ScriptMachine

/-- The parts of a compiled script, as the reader meets them. -/
inductive Field where
  | version | symbolCount | sortTable | nameFlag | name | extra | properties
  | fileIndex | lineStart | lineCount | charStart | charCount
  | floatValue | intValue | stringValue | classOffset | functionAddress | address | parent
  | codeSize | code
  deriving DecidableEq

/-- The name of a part in a message. -/
def Field.text : Field → String
  | version => "version"
  | symbolCount => "symbol count"
  | sortTable => "sort table"
  | nameFlag => "symbol name flag"
  | name => "symbol name"
  | extra => "symbol offset"
  | properties => "symbol properties"
  | fileIndex => "file index"
  | lineStart => "line start"
  | lineCount => "line count"
  | charStart => "char start"
  | charCount => "char count"
  | floatValue => "float value"
  | intValue => "int value"
  | stringValue => "string value"
  | classOffset => "class offset"
  | functionAddress => "function address"
  | address => "address"
  | parent => "parent"
  | codeSize => "code size"
  | code => "bytecode"

/-- Why a list of bytes is no compiled script. -/
inductive LoadFault where
  /-- The bytes end within a part. -/
  | truncated (what : Field) (offset : Nat)
  /-- A symbol has a type with no meaning. -/
  | unknownType (index : UInt32) (name : String) (type : UInt32)
  deriving DecidableEq

/-- The message of a load fault. -/
def LoadFault.message : LoadFault → String
  | truncated what offset =>
    "unexpected end of data reading " ++ what.text ++ " at offset 0x" ++ Text.hexUpper offset
  | unknownType index name type =>
    "symbol " ++ toString index.toNat ++ " (" ++ name ++ ") has unknown type "
      ++ toString type.toNat

/-- What a stack entry is, or was expected to be. -/
inductive EntryKind where
  | value (k : Kind)
  | immediate
  | reference
  | nullInstance
  deriving DecidableEq

/-- The name of an entry kind in a message. -/
def EntryKind.text : EntryKind → String
  | value k => k.name
  | immediate => "immediate"
  | reference => "reference"
  | nullInstance => "null instance"

/-- How two sides of a call disagree. -/
inductive SignatureFault where
  | argumentCount (expected got : Nat)
  | argumentKind (index : Nat) (got expected : Kind)
  | returnKind (declared expected : Kind)
  | parameterType (parameter : String) (type : DataType)
  | returnType (type : DataType)
  | parameterCount (declared taken : Nat)
  | parameterKind (index : Nat) (declared taken : Kind)
  | resultKind (declared given : Kind)
  | callbackResult (got expected : Kind)
  deriving DecidableEq

/-- The message of a signature fault. -/
def SignatureFault.message : SignatureFault → String
  | argumentCount expected got =>
    "expected " ++ toString expected ++ " arguments, got " ++ toString got
  | argumentKind index got expected =>
    "argument " ++ toString index ++ " is " ++ got.name ++ ", expected " ++ expected.name
  | returnKind declared expected =>
    "returns " ++ declared.name ++ ", caller expects " ++ expected.name
  | parameterType parameter type => "parameter " ++ parameter ++ " has type " ++ type.name
  | returnType type => "return type " ++ type.name
  | parameterCount declared taken =>
    "script declares " ++ toString declared ++ " parameters, callback takes " ++ toString taken
  | parameterKind index declared taken =>
    "parameter " ++ toString index ++ " is " ++ declared.name ++ ", callback takes " ++ taken.name
  | resultKind declared given =>
    "script returns " ++ declared.name ++ ", callback returns " ++ given.name
  | callbackResult got expected =>
    "callback returned " ++ got.name ++ ", script expects " ++ expected.name

/-- The causes of failure. -/
inductive Error where
  | load (fault : LoadFault)
  | symbolNotFound (key : SymbolKey)
  | notExternal (name : String)
  | notAFunction (name : String)
  | notAnInstance (name : String)
  | outOfBounds (address length : UInt32)
  | invalidOpcode (byte : UInt8) (address : UInt32)
  | stackUnderflow
  | stackTypeMismatch (expected found : EntryKind)
  | signatureMismatch (name : String) (fault : SignatureFault)
  | instanceTypeMismatch (expected : InstanceTag) (found : String)
  | allocationExhausted (limit : Nat)
  | staleInstance
  | unknownMember (cls member : String)
  | nullInstanceAccess (name : String)
  | illegalMemberAccess (name cls : String)
  | illegalConstAccess (name : String)
  | indexOutOfRange (name : String) (index count : Nat)
  /-- A cell is used as another kind than it has; symbols without storage have no kind. -/
  | symbolTypeMismatch (name : String) (requested : CellKind) (actual : Option CellKind)
  | divisionByZero (address : UInt32)
  | callDepthExceeded (limit : Nat)
  | externalFailed (name reason : String)
  | poisoned
  /-- The distance between two symbols is no number of 32 bits. The program ends with it. -/
  | overflow
  deriving DecidableEq

namespace Error

/-- The message of an error. -/
def message : Error → String
  | load fault => "failed to load script: " ++ fault.message
  | symbolNotFound key => "symbol not found: " ++ key.text
  | notExternal name => "symbol " ++ name ++ " is not an external function"
  | notAFunction name => "symbol " ++ name ++ " is not a callable function"
  | notAnInstance name => "symbol " ++ name ++ " is not an instance"
  | outOfBounds address length =>
    "address out of bounds: address=0x" ++ Text.hexUpper address.toNat ++ ", code_len=0x"
      ++ Text.hexUpper length.toNat
  | invalidOpcode byte address =>
    "invalid opcode: 0x" ++ Text.hexUpperPadded 2 byte.toNat ++ " at address=0x"
      ++ Text.hexUpper address.toNat
  | stackUnderflow => "stack underflow"
  | stackTypeMismatch expected found =>
    "stack type mismatch: expected " ++ expected.text ++ ", found " ++ found.text
  | signatureMismatch name fault => "signature mismatch for " ++ name ++ ": " ++ fault.message
  | instanceTypeMismatch expected found =>
    "instance type mismatch: expected " ++ expected.name ++ ", found " ++ found
  | allocationExhausted limit =>
    "instance allocation exhausted (limit=" ++ toString limit ++ ")"
  | staleInstance => "instance handle is stale or was freed"
  | unknownMember cls member => "class " ++ cls ++ " has no member " ++ member
  | nullInstanceAccess name => "access to member " ++ name ++ " without an instance context"
  | illegalMemberAccess name cls =>
    "illegal access to member " ++ name ++ " through an instance of class " ++ cls
  | illegalConstAccess name => "attempt to modify constant symbol " ++ name
  | indexOutOfRange name index count =>
    "index " ++ toString index ++ " out of range for symbol " ++ name ++ " (count="
      ++ toString count ++ ")"
  | symbolTypeMismatch name requested actual =>
    let found :=
      match actual with
      | some k => k.kind.name
      | none => "nothing"
    "symbol " ++ name ++ " holds " ++ found ++ ", not " ++ requested.kind.name
  | divisionByZero address => "division by zero at address=0x" ++ Text.hexUpper address.toNat
  | callDepthExceeded limit => "call depth exceeded (limit=" ++ toString limit ++ ")"
  | externalFailed name reason => "external " ++ name ++ " failed: " ++ reason
  | poisoned => "vm is poisoned by an earlier fatal error"
  | overflow => "attempt to subtract with overflow"

/-- Whether the stack and the frames can no longer be trusted after an error. -/
def isFatal : Error → Bool
  | load _ | symbolNotFound _ | notExternal _ | notAFunction _ | notAnInstance _
  | instanceTypeMismatch _ _ | allocationExhausted _ | staleInstance | unknownMember _ _
  | signatureMismatch _ _ | poisoned => false
  | outOfBounds _ _ | invalidOpcode _ _ | stackUnderflow | stackTypeMismatch _ _
  | nullInstanceAccess _ | illegalMemberAccess _ _ | illegalConstAccess _ | indexOutOfRange _ _ _
  | symbolTypeMismatch _ _ _ | divisionByZero _ | callDepthExceeded _ | externalFailed _ _
  | overflow => true

/-- Whether the program ends with an outcome, so that no host code is told of it. -/
def ends {α : Type} : Except Error α → Bool
  | .error overflow => true
  | _ => false

end Error

end ScriptMachine
