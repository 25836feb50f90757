import ScriptMachine.Machine.Operator
import ScriptMachine.Machine.Registration
import ScriptMachine.Machine.Stack

/-!
# Executing an instruction

One instruction changes the machine and says how execution goes on: with the instruction at `pc`, in
the caller, or after a callback of the host has run.
-/

namespace ScriptMachine

/-- How execution goes on after an instruction. -/
inductive Flow where
  /-- With the instruction at `pc`. -/
  | next
  /-- Where the body was entered. -/
  | leave
  /-- After the external function at an index has run. -/
  | external (function : UInt32)
  /-- After the callback that replaces the function at an index has run. -/
  | override (function : UInt32)
  deriving DecidableEq

namespace Machine

variable {σ : Type}

/-- Enters the body at an address. -/
def enter (function : Option UInt32) (target : UInt32) (hostEntry : Bool) : MachineM σ Unit := do
  let m ← get
  if m.config.maxCallDepth ≤ m.frames.length then
    throw (.callDepthExceeded m.config.maxCallDepth)
  set { m with
    frames := ⟨function, m.pc, m.context, hostEntry⟩ :: m.frames
    pc := target }

/-- Leaves the innermost body. Control returns to the host if the host entered it. -/
def leave (m : Machine σ) : Bool × Machine σ :=
  match m.frames with
  | [] => (true, m)
  | f :: rest => (f.hostEntry, { m with frames := rest, pc := f.returnPc, context := f.context })

/-- Leaves every body that was entered since `base` bodies were active. -/
def unwind (m : Machine σ) (base : Nat) : Machine σ :=
  if base < m.frames.length then
    match m.frames.drop (m.frames.length - base - 1) with
    | [] => m
    | f :: rest => { m with frames := rest, pc := f.returnPc, context := f.context }
  else m

/-- Writes a cell. -/
def write (r : Reference) (v : CellValue) : MachineM σ Unit := do
  let m ← get
  let memory ← m.memory.write m.script m.config.flags r v
  set { m with memory }

/-- The result of an operator. -/
def result (address : UInt32) : Option Int32 → MachineM σ Int32
  | some n => return n
  | none => throw (.divisionByZero address)

/-- Executes an instruction whose opcode has a given effect. Decoding gives each opcode an operand
of its own shape; an operand of another shape is refused. -/
def perform (i : Instruction) : Effect → Operand → MachineM σ Flow
  | .binary f, _ => do
    let a ← pop .int
    let b ← pop .int
    let n ← result i.address (f a b)
    modify (push · (.int n))
    return .next
  | .unary f, _ => do
    let a ← pop .int
    modify (push · (.int (f a)))
    return .next
  | .assign k, _ => do
    let r ← popReference
    let c ← pop k
    write r ⟨k, c⟩
    return .next
  | .update f, _ => do
    let r ← popReference
    let n ← pop .int
    let current ← (← get).read .int r
    write r ⟨.int, ← result i.address (f current n)⟩
    return .next
  | .pushImmediate, .immediate n => do
    modify (pushEntry · (.immediate n))
    return .next
  | .pushReference, .symbol s => do
    modify fun m => m.pushEntry (.reference ⟨s, 0, m.context⟩)
    return .next
  | .pushElement, .element s e => do
    modify fun m => m.pushEntry (.reference ⟨s, e.toNat, m.context⟩)
    return .next
  | .pushInstance, .symbol s => do
    modify fun m => m.push (.inst (m.memory.bound s))
    return .next
  | .setContext, .symbol s => do
    modify fun m => { m with context := m.memory.bound s }
    return .next
  | .jump, .address target => do
    modify fun m => { m with pc := target }
    return .next
  | .jumpIfZero, .address target => do
    if (← pop .int) = 0 then
      modify fun m => { m with pc := target }
    return .next
  | .callBody, .address target => do
    let m ← get
    let function := (m.script.symbolByAddress? target).map (·.index)
    match function.filter m.hasOverride with
    | some f => return .override f
    | none => do
      enter function target false
      return .next
  | .callExternal, .symbol s => return .external s
  | .leave, _ => return .leave
  | .skip, _ => return .next
  | _, _ => throw (.invalidOpcode i.opcode.toByte i.address)

/-- Executes an instruction. -/
def execute (i : Instruction) : MachineM σ Flow := perform i i.opcode.effect i.operand

/-- The instruction at `pc`, which is moved behind it. -/
def fetch : MachineM σ Instruction := do
  let m ← get
  let i ← m.script.decode m.pc
  set { m.report (.executed i) with pc := i.next }
  return i

end Machine

end ScriptMachine
