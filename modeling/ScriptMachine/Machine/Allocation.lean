import ScriptMachine.Machine.Basic
import ScriptMachine.Memory.Instances

/-!
# Instances of a machine

Allocating and freeing instances as operations of a machine. A freed instance is no longer bound to
any symbol, and it is no longer the current one.
-/

namespace ScriptMachine

namespace Machine

variable {σ : Type}

/-- Allocates an instance for the symbol a key stands for. -/
def alloc (key : SymbolKey) (tag : InstanceTag) : MachineM σ Handle := do
  let m ← get
  let s ← m.script.find key
  let (h, memory) ← m.memory.alloc m.script s tag
  set (({ m with memory }).report (.allocated s.name tag h.slot))
  return h

/-- Frees an instance. -/
def free (h : Handle) : MachineM σ Unit := do
  let m ← get
  let memory ← m.memory.free h
  let context := if m.context = some h then none else m.context
  set (({ m with memory, context }).report (.freed h.symbol h.slot))

/-- The index of the symbol bound to a slot. -/
def slotIndex (m : Machine σ) (slot : GlobalSlot) : UInt32 := m.script.slotIndex slot.symbolName

/-- The instance bound to a slot. -/
def slot (m : Machine σ) (slot : GlobalSlot) : Option Handle := m.memory.bound (m.slotIndex slot)

/-- Binds an instance to a slot. -/
def setSlot (m : Machine σ) (slot : GlobalSlot) (h : Option Handle) : Machine σ :=
  { m with memory := m.memory.bind (m.slotIndex slot) h }

end Machine

end ScriptMachine
