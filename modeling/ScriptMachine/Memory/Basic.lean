import ScriptMachine.Config.Basic
import ScriptMachine.Instance.Registry
import ScriptMachine.Script.Basic

/-!
# Memory

The global variables of a script and the fields of its live instances. A reference names a symbol,
an element, and the instance to look in if the symbol is a member of a class. Reading and writing
first locate the storage a reference leads to; a member is found in an instance of its own class
only, at the place where the class declares it, which is its distance from the class. The distance
is a number of 32 bits, so the member must have the larger index.
-/

namespace ScriptMachine

/-- The memory of a machine. -/
structure Memory where
  /-- The storage of each symbol of the script. -/
  globals : Array Storage
  instances : Registry
  deriving DecidableEq

/-- A reference to an element of a variable. -/
structure Reference where
  symbol : UInt32
  index : Nat
  /-- The instance to look in if the symbol is a member. -/
  context : Option Handle
  deriving DecidableEq

/-- What is wrong with an access to a cell of the variable `name`. -/
def CellFault.toError (name : String) (requested : CellKind) (index : Nat) : CellFault → Error
  | wrongKind actual => .symbolTypeMismatch name requested actual
  | outOfRange count => .indexOutOfRange name index count

namespace Memory

/-- The storage a symbol starts with; members have none outside of instances. -/
def initialStorage (s : Symbol) : Storage :=
  if s.isMember then .empty else .ofSymbol s

/-- The memory a script starts with. -/
def ofScript (p : Script) (limit : Nat) : Memory :=
  ⟨p.symbols.map initialStorage, .empty limit⟩

/-- A place in memory that holds a storage. -/
inductive Place where
  | global (symbol : UInt32)
  | field (h : Handle) (x : Instance) (ordinal : Nat)
  deriving DecidableEq

/-- The position of a member among the members of its class: how far behind its class it is. -/
def ordinal (cls member : UInt32) : Except Error Nat :=
  if cls < member then .ok (member.toNat - (cls.toNat + 1)) else .error .overflow

theorem ordinal_eq_ok {cls member : UInt32} {n : Nat} :
    ordinal cls member = .ok n ↔ cls.toNat + 1 + n = member.toNat := by
  rw [ordinal]
  split
  · next hlt =>
    rw [UInt32.lt_iff_toNat_lt] at hlt
    rw [Except.ok.injEq]
    omega
  · next hlt =>
    rw [UInt32.lt_iff_toNat_lt] at hlt
    simp only [reduceCtorEq, false_iff]
    omega

/-- A member that is not behind its class has no position. -/
theorem ordinal_eq_error {cls member : UInt32} {e : Error} :
    ordinal cls member = .error e ↔ member ≤ cls ∧ e = .overflow := by
  rw [ordinal]
  split
  · next hlt => simp [UInt32.not_le.2 hlt]
  · next hlt => simp [UInt32.not_lt.1 hlt, eq_comm]

variable (m : Memory) (p : Script) (flags : ExecutionFlags)

/-! ## Places -/

/-- The place the symbol `s` at index `i` stands for. There is none when a member is used without
an instance and that is allowed. -/
def locate (s : Symbol) (i : UInt32) (context : Option Handle) : Except Error (Option Place) :=
  if s.isMember then
    match context with
    | none =>
      if flags.contains .allowNullInstance then .ok none
      else .error (.nullInstanceAccess s.name)
    | some h =>
      match m.instances.get h with
      | .error e => .error e
      | .ok x =>
        if s.parent = some x.cls then (ordinal x.cls i).map fun n => some (.field h x n)
        else .error (.illegalMemberAccess s.name (p.nameOrIndex x.cls))
  else .ok (some (.global i))

/-- The storage at a place. -/
def storageAt? : Place → Option Storage
  | .global i => m.globals[i.toNat]?
  | .field _ x n => x.fields[n]?

/-- The memory with another storage at a place. -/
def putAt (st : Storage) : Place → Memory
  | .global i => { m with globals := m.globals.setIfInBounds i.toNat st }
  | .field h x n =>
    { m with instances := m.instances.put h { x with fields := x.fields.setIfInBounds n st } }

/-! ## Reading and writing -/

/-- What a reference leads to, as a cell of kind `k`. -/
def read (k : CellKind) (r : Reference) : Except Error k.Content := do
  let s ← p.find (.index r.symbol)
  match ← m.locate p flags s r.symbol r.context with
  | none => return k.zero
  | some place =>
    match m.storageAt? place, place with
    | some st, _ => (st.get k r.index).mapError (CellFault.toError s.name k r.index)
    | none, .global _ => return k.zero
    | none, .field _ x _ => .error (.illegalMemberAccess s.name (p.nameOrIndex x.cls))

/-- The memory after a cell is written. Constants refuse it, unless that is relaxed; a write to a
member without an instance is dropped where reading one is allowed. -/
def write (r : Reference) (v : CellValue) : Except Error Memory := do
  let s ← p.find (.index r.symbol)
  if s.isConst && !flags.contains .ignoreConst then
    throw (.illegalConstAccess s.name)
  match ← m.locate p flags s r.symbol r.context with
  | none => return m
  | some place =>
    match m.storageAt? place, place with
    | some st, _ =>
      match st.set r.index v with
      | .ok st => return m.putAt st place
      | .error fault => throw (fault.toError s.name v.1 r.index)
    | none, .global _ => return m
    | none, .field _ _ _ => throw (.illegalMemberAccess s.name "")

/-- The reference a key stands for. -/
def reference (key : SymbolKey) (index : Nat) (context : Option Handle) :
    Except Error Reference := do
  return ⟨(← p.find key).index, index, context⟩

/-! ## Instances bound to symbols -/

/-- The instance bound to a symbol. -/
def bound (i : UInt32) : Option Handle :=
  match m.globals[i.toNat]? with
  | none => none
  | some st => (st.get .inst 0).toOption.join

/-- The storage that holds an instance in its first cell; storage of another kind gives way. -/
def bindCell (h : Option Handle) (st : Storage) : Storage :=
  match st.set 0 ⟨.inst, h⟩ with
  | .ok st => st
  | .error _ => .insts #[h]

/-- The memory with an instance bound to a symbol. -/
def bind (i : UInt32) (h : Option Handle) : Memory :=
  { m with globals := m.globals.modify i.toNat (bindCell h) }

end Memory

end ScriptMachine
