import ScriptMachine.Error

/-!
# Typed arguments

The types in which host code takes and gives values. A truth value travels as a number, and a handle
either may or may not be null. Argument lists are converted from the front, value by value.
-/

namespace ScriptMachine

/-- The types host code may use for a value. -/
inductive ArgType where
  | int
  | bool
  | float
  | string
  /-- An instance that is not null. -/
  | handle
  /-- An instance or null. -/
  | optHandle
  deriving DecidableEq

namespace ArgType

/-- What a type contains. -/
abbrev Carrier : ArgType → Type
  | int => Int32
  | bool => Bool
  | float => Single
  | string => String
  | handle => Handle
  | optHandle => Option Handle

/-- The kind in which a type crosses the stack. -/
def kind : ArgType → Kind
  | int | bool => .int
  | float => .float
  | string => .string
  | handle | optHandle => .inst

/-- The failure to take a value of the wrong kind. -/
def mismatch {α : Type} (t : ArgType) (v : Value) : Except Error α :=
  .error (.stackTypeMismatch (.value t.kind) (.value v.kind))

/-- A value taken at a type. Every number but zero is true. -/
def ofValue : (t : ArgType) → Value → Except Error t.Carrier
  | int, .int n => .ok n
  | bool, .int n => .ok (n != 0)
  | float, .float x => .ok x
  | string, .string s => .ok s
  | handle, .inst (some h) => .ok h
  | handle, .inst none => .error (.stackTypeMismatch (.value .inst) .nullInstance)
  | optHandle, .inst h => .ok h
  | t, v => t.mismatch v

/-- Something of a type as a value. -/
def toValue : (t : ArgType) → t.Carrier → Value
  | int, n => .int n
  | bool, b => .ofBool b
  | float, x => .float x
  | string, s => .string s
  | handle, h => .inst (some h)
  | optHandle, h => .inst h

@[simp] theorem kind_toValue (t : ArgType) (x : t.Carrier) : (t.toValue x).kind = t.kind := by
  cases t <;> rfl

@[simp] theorem ofValue_toValue (t : ArgType) (x : t.Carrier) :
    t.ofValue (t.toValue x) = .ok x := by
  cases t
  case bool => cases x <;> rfl
  all_goals rfl

end ArgType

/-- A tuple with a component of each type of a list. -/
abbrev Args : List ArgType → Type
  | [] => Unit
  | t :: ts => t.Carrier × Args ts

namespace Args

/-- The kinds of the components. -/
def kinds (ts : List ArgType) : List Kind := ts.map ArgType.kind

/-- A tuple taken from the front of a list of values. -/
def ofValues : (ts : List ArgType) → List Value → Except Error (Args ts)
  | [], _ => .ok ()
  | _ :: _, [] => .error .stackUnderflow
  | t :: ts, v :: vs => do
    let x ← t.ofValue v
    let xs ← ofValues ts vs
    return (x, xs)

/-- A tuple as a list of values. -/
def toValues : (ts : List ArgType) → Args ts → List Value
  | [], _ => []
  | t :: ts, (x, xs) => t.toValue x :: toValues ts xs

end Args

/-- The types host code may use for a result. -/
inductive ResultType where
  /-- No result; a result that comes nevertheless is dropped. -/
  | nothing
  | value (t : ArgType)
  deriving DecidableEq

namespace ResultType

/-- What a result type contains. -/
abbrev Carrier : ResultType → Type
  | nothing => Unit
  | value t => t.Carrier

/-- The kind a callback with a result type returns. -/
def kind : ResultType → Kind
  | nothing => .void
  | value t => t.kind

/-- The kind a caller with a result type expects. -/
def expected : ResultType → Option Kind
  | nothing => none
  | value t => some t.kind

/-- A value taken at a result type. -/
def ofValue : (r : ResultType) → Value → Except Error r.Carrier
  | nothing, _ => .ok ()
  | value t, v => t.ofValue v

/-- A result as a value. -/
def toValue : (r : ResultType) → r.Carrier → Value
  | nothing, _ => .void
  | value t, x => t.toValue x

end ResultType

end ScriptMachine
