import ScriptMachine.Instance.Handle
import ScriptMachine.Kind
import ScriptMachine.Number.Single
import ScriptMachine.Text.Quoted

/-!
# Values

What crosses the evaluation stack and what a storage cell holds. A cell has one of four kinds; a
value may besides be no value at all.
-/

namespace ScriptMachine

/-- A value of the script language. An instance may be null. -/
inductive Value where
  | int (n : Int32)
  | float (x : Single)
  | string (s : String)
  | inst (h : Option Handle)
  | void
  deriving DecidableEq

namespace Value

/-- The kind of a value. -/
def kind : Value → Kind
  | int _ => .int
  | float _ => .float
  | string _ => .string
  | inst _ => .inst
  | void => .void

/-- A truth value is a number: one or zero. -/
def ofBool (b : Bool) : Value :=
  int (if b then 1 else 0)

/-- The zero value of a kind, which stands in for a value nobody supplied. -/
def default : Kind → Value
  | .int => int 0
  | .float => float .zero
  | .string => string ""
  | .inst => inst none
  | .void => void

@[simp] theorem kind_default (k : Kind) : (default k).kind = k := by
  cases k <;> rfl

/-- Equality of values, with numbers compared as numbers. -/
def equals : Value → Value → Bool
  | float x, float y => x.equals y
  | v, w => v == w

/-- The text of a value in a report. -/
def text : Value → String
  | int n => toString n.toInt
  | float x => x.text
  | string s => Text.quote s
  | inst (some h) => "instance(#" ++ toString h.symbol.toNat ++ ")"
  | inst none => "null"
  | void => "void"

end Value

/-- The kinds of storage cells. -/
inductive CellKind where
  | int
  | float
  | string
  | inst
  deriving DecidableEq

namespace CellKind

/-- The kind in which the content of a cell crosses the stack. -/
def kind : CellKind → Kind
  | int => .int
  | float => .float
  | string => .string
  | inst => .inst

/-- What a cell of a kind holds. -/
abbrev Content : CellKind → Type
  | int => Int32
  | float => Single
  | string => String
  | inst => Option Handle

/-- What a cell holds before anything is stored in it. -/
def zero : (k : CellKind) → k.Content
  | int => 0
  | float => .zero
  | string => ""
  | inst => none

/-- The content of a cell as a value. -/
def toValue : (k : CellKind) → k.Content → Value
  | int, n => .int n
  | float, x => .float x
  | string, s => .string s
  | inst, h => .inst h

/-- The cell kind for values of a kind; `void` has none. -/
def ofKind? : Kind → Option CellKind
  | .int => some int
  | .float => some float
  | .string => some string
  | .inst => some inst
  | .void => none

@[simp] theorem kind_toValue (k : CellKind) (c : k.Content) : (k.toValue c).kind = k.kind := by
  cases k <;> rfl

@[simp] theorem toValue_zero (k : CellKind) : k.toValue k.zero = Value.default k.kind := by
  cases k <;> rfl

end CellKind

/-- A value together with the kind of cell that can hold it. -/
abbrev CellValue := (k : CellKind) × k.Content

/-- The form in which a value is stored in a cell; `void` cannot be stored. -/
def Value.cell? : Value → Option CellValue
  | .int n => some ⟨.int, n⟩
  | .float x => some ⟨.float, x⟩
  | .string s => some ⟨.string, s⟩
  | .inst h => some ⟨.inst, h⟩
  | .void => none

end ScriptMachine
