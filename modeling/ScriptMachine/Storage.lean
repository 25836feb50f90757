import ScriptMachine.Symbol
import ScriptMachine.Value

/-!
# Storage

The cells behind a data symbol: a global variable, or a member of an instance. All cells of a
storage have one kind. Reading and writing name the kind they expect, and fail on another kind or
past the last cell; nothing else can change the kind or the number of cells.
-/

namespace ScriptMachine

/-- The cells behind a data symbol. -/
inductive Storage where
  /-- Symbols without data have no cells, not even of some kind. -/
  | empty
  | ints (cells : Array Int32)
  | floats (cells : Array Single)
  | strings (cells : Array String)
  | insts (cells : Array (Option Handle))
  deriving DecidableEq

/-- Why a cell cannot be read or written. -/
inductive CellFault where
  | wrongKind (actual : Option CellKind)
  | outOfRange (count : Nat)
  deriving DecidableEq

namespace Storage

/-- The kind of the cells. -/
def kind? : Storage → Option CellKind
  | empty => none
  | ints _ => some .int
  | floats _ => some .float
  | strings _ => some .string
  | insts _ => some .inst

/-- The number of cells. -/
def size : Storage → Nat
  | empty => 0
  | ints cells => cells.size
  | floats cells => cells.size
  | strings cells => cells.size
  | insts cells => cells.size

/-- A storage with cells of a kind. -/
def ofCells : (k : CellKind) → Array k.Content → Storage
  | .int, cells => ints cells
  | .float, cells => floats cells
  | .string, cells => strings cells
  | .inst, cells => insts cells

/-- The cells of a storage, if they have a given kind. -/
def cells? : (k : CellKind) → Storage → Option (Array k.Content)
  | .int, ints cells => some cells
  | .float, floats cells => some cells
  | .string, strings cells => some cells
  | .inst, insts cells => some cells
  | _, _ => none

@[simp] theorem cells?_ofCells (k : CellKind) (cells : Array k.Content) :
    (ofCells k cells).cells? k = some cells := by
  cases k <;> rfl

@[simp] theorem kind?_ofCells (k : CellKind) (cells : Array k.Content) :
    (ofCells k cells).kind? = some k := by
  cases k <;> rfl

@[simp] theorem size_ofCells (k : CellKind) (cells : Array k.Content) :
    (ofCells k cells).size = cells.size := by
  cases k <;> rfl

/-- The content of a cell. -/
def get (k : CellKind) (s : Storage) (i : Nat) : Except CellFault k.Content :=
  match s.cells? k with
  | none => .error (.wrongKind s.kind?)
  | some cells =>
    match cells[i]? with
    | some c => .ok c
    | none => .error (.outOfRange cells.size)

/-- The storage after a cell is written. -/
def set (s : Storage) (i : Nat) (v : CellValue) : Except CellFault Storage :=
  match s.cells? v.1 with
  | none => .error (.wrongKind s.kind?)
  | some cells =>
    if i < cells.size then .ok (ofCells v.1 (cells.setIfInBounds i v.2))
    else .error (.outOfRange cells.size)

/-- The storage of `n` zero cells of a kind. -/
def zeros (k : CellKind) (n : Nat) : Storage :=
  ofCells k (Array.replicate n k.zero)

/-- The storage a symbol starts with: its initial value, or else zeros of its type, at least one. -/
def ofSymbol (s : Symbol) : Storage :=
  let n := max s.count.toNat 1
  match s.data with
  | .ints (v :: vs) => ints (v :: vs).toArray
  | .floats (v :: vs) => floats (v :: vs).toArray
  | .strings (v :: vs) => strings (v :: vs).toArray
  | _ =>
    match s.type with
    | .int | .func => zeros .int n
    | .float => zeros .float n
    | .string => zeros .string n
    | .inst => zeros .inst n
    | .void | .cls | .proto => empty

/-- The storage with every reference to an instance replaced by null. -/
def forget (h : Handle) : Storage → Storage
  | insts cells => insts (cells.map fun c => if c = some h then none else c)
  | s => s

end Storage

end ScriptMachine
