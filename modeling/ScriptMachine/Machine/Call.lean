import ScriptMachine.Machine.Allocation
import ScriptMachine.Machine.Registration
import ScriptMachine.Machine.Stack

/-!
# Calls

What happens around the execution of a body: a call is checked before anything changes, arguments
are popped from the stack for a callback, and results are pushed or popped at the declared kind.
-/

namespace ScriptMachine

namespace Machine

variable {σ : Type}

/-! ## Calls by the host -/

/-- The function that a call runs, and the kind of its result. -/
def checkCall (m : Machine σ) (key : SymbolKey) (args : List Value) (expected : Option Kind) :
    Except Error (Symbol × Kind) := do
  m.ensureUsable
  let f ← m.script.find key
  if !f.isCallable then
    throw (.notAFunction f.name)
  let declared ← m.script.declaredSignature f
  if args.length ≠ declared.params.length then
    throw (.signatureMismatch f.name (.argumentCount declared.params.length args.length))
  if let some (i, got, k) := Script.firstDifference (args.map Value.kind) declared.params 0 then
    throw (.signatureMismatch f.name (.argumentKind i got k))
  match expected with
  | none => return (f, declared.result)
  | some k =>
    if k = declared.result then return (f, declared.result)
    else throw (.signatureMismatch f.name (.returnKind declared.result k))

/-- Reports a call and pushes its arguments. -/
def beginCall (m : Machine σ) (f : Symbol) (args : List Value) : Machine σ :=
  (m.report (.called f.name)).pushAll args

/-- Pops the result of a function that was called with `depth` entries on the stack. A body that
left nothing behind has returned the zero of its kind. -/
def takeResult (f : Symbol) (kind : Kind) (depth : Nat) : MachineM σ Value := do
  if kind = .void then return .void
  let m ← get
  if m.stack.length ≤ depth then
    set (m.report (.returnedNothing f.name))
    return .default kind
  popValue kind

/-! ## Callbacks of the host -/

/-- Pops the arguments of a callback. -/
def takeArguments (f : Symbol) (b : Binding σ) : MachineM σ (List Value) := do
  let args ← popAll b.params
  modify (report · (.dispatched f.name args))
  return args

/-- Pushes what a callback returned, if it is of the kind the script expects. -/
def giveResult (f : Symbol) (b : Binding σ) (v : Value) : MachineM σ Unit := do
  (← get).ensureUsable
  if v.kind = b.result then modify (pushResult · v)
  else throw (.signatureMismatch f.name (.callbackResult v.kind b.result))

/-- Pops entries of any kind. -/
def dropEntries : Nat → MachineM σ Unit
  | 0 => return ()
  | n + 1 => do
    let _ ← popEntry
    dropEntries n

/-- Does to the stack what a callback of an external function would do: its declared arguments go,
and a zero of its declared kind comes. -/
def balance (f : Symbol) : MachineM σ Unit := do
  dropEntries ((← get).script.parametersOf f).length
  match f.returnType?.bind DataType.kind? with
  | some k => modify (pushResult · (.default k))
  | none => return ()

/-- Reports that an external function has no callback, once for each function. -/
def reportUnregistered (m : Machine σ) (f : Symbol) : Machine σ :=
  if f.index ∈ m.registrations.reported then m
  else
    { m with
      registrations.reported := f.index :: m.registrations.reported
      log := .notRegistered f.name :: m.log }

/-! ## Bodies of instances -/

/-- What the body of an instance displaces while it runs. -/
structure Displaced where
  context : Option Handle
  self : Option Handle

/-- The symbol whose body an instance has. -/
def checkBody (m : Machine σ) (h : Handle) : Except Error Symbol := do
  m.ensureUsable
  let _ ← m.memory.instances.get h
  let s ← m.script.find (.index h.symbol)
  if s.isInstanceDefinition then return s else throw (.notAnInstance s.name)

/-- Makes an instance the current one and binds `SELF` to it. -/
def beginBody (m : Machine σ) (s : Symbol) (h : Handle) : Machine σ :=
  (({ m with context := some h }).setSlot .self (some h)).report (.initializing s.name)

/-- What is displaced when the body of an instance starts. -/
def displaced (m : Machine σ) : Displaced := ⟨m.context, m.slot .self⟩

/-- Puts back what the body of an instance displaced. -/
def restore (m : Machine σ) (d : Displaced) : Machine σ :=
  ({ m with context := d.context }).setSlot .self d.self

/-- Marks an instance as initialized. -/
def markInitialized (h : Handle) : MachineM σ Unit := do
  let m ← get
  let memory ← m.memory.markInitialized h
  set { m with memory }

end Machine

end ScriptMachine
