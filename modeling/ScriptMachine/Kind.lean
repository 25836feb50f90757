import ScriptMachine.Enumeration

/-!
# Types and kinds

A symbol has one of eight data types; a value that crosses the evaluation stack has one of five
kinds. References to functions travel as integers, and classes and prototypes do not travel.
-/

namespace ScriptMachine

/-- The kinds of values that cross the evaluation stack. -/
inductive Kind where
  | int
  | float
  | string
  | inst
  /-- No value at all. -/
  | void
  deriving DecidableEq

namespace Kind

/-- The name a kind is reported under. -/
def name : Kind → String
  | int => "int"
  | float => "float"
  | string => "string"
  | inst => "instance"
  | void => "void"

instance : Enumeration Kind where
  members := [int, float, string, inst, void]
  code
    | int => 0
    | float => 1
    | string => 2
    | inst => 3
    | void => 4
  label := name

end Kind

/-- The declared types of symbols. -/
inductive DataType where
  | void
  | float
  | int
  | string
  | cls
  | func
  | proto
  | inst
  deriving DecidableEq

namespace DataType

/-- The number a compiled script stores for a type. -/
def code : DataType → UInt32
  | void => 0
  | float => 1
  | int => 2
  | string => 3
  | cls => 4
  | func => 5
  | proto => 6
  | inst => 7

/-- The type a stored number stands for. -/
def ofCode? (n : UInt32) : Option DataType :=
  [void, float, int, string, cls, func, proto, inst].find? (·.code == n)

/-- The name a type is reported under. -/
def name : DataType → String
  | void => "void"
  | float => "float"
  | int => "int"
  | string => "string"
  | cls => "class"
  | func => "function"
  | proto => "prototype"
  | inst => "instance"

instance : Enumeration DataType where
  members := [void, float, int, string, cls, func, proto, inst]
  code t := t.code.toNat
  label := name

@[simp] theorem ofCode?_code (t : DataType) : ofCode? t.code = some t := by
  cases t <;> rfl

/-- The kind in which values of a type cross the stack. -/
def kind? : DataType → Option Kind
  | int | func => some .int
  | float => some .float
  | string => some .string
  | inst => some .inst
  | void => some .void
  | cls | proto => none

end DataType

end ScriptMachine
