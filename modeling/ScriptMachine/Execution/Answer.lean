import ScriptMachine.Machine.Call
import ScriptMachine.Memory.Members

/-!
# Answering queries

What a machine answers to each query of its host, and the machine afterwards.
-/

namespace ScriptMachine

namespace Query

variable {σ : Type}

/-- An answer computed from the machine, which stays as it is. -/
def observe {α : Type} (m : Machine σ) (a : α) : α × Machine σ := (a, m)

/-- The answer to a write: either the machine has the new memory, or it stays as it is. -/
def store (m : Machine σ) : Except Error Memory → Except Error Unit × Machine σ
  | .ok memory => (.ok (), { m with memory })
  | .error e => (.error e, m)

/-- The answer to a query, and the machine afterwards. -/
def answer (m : Machine σ) : (q : Query) → q.Reply × Machine σ
  | push v => ((), m.push v)
  | pop k => Machine.popValue k m
  | stackLength => observe m m.stack.length
  | isPoisoned => observe m m.isPoisoned
  | stackTrace => observe m m.stackTrace
  | printStackTrace => ((), m.report (.stackTrace m.stackTrace))
  | hasExternal key => observe m (m.hasExternal key)
  | alloc key tag => Machine.alloc key tag m
  | free h => Machine.free h m
  | state h => observe m ((m.memory.instances.get h).map (·.state))
  | className h => observe m (m.memory.className m.script h)
  | instanceCount => observe m m.memory.instances.live
  | bound key => observe m ((m.script.find key).map fun s => m.memory.bound s.index)
  | current => observe m m.context
  | global slot => observe m (m.slot slot)
  | setGlobal slot h => ((), m.setSlot slot h)
  | read k key index context =>
    observe m do m.read k (← Memory.reference m.script key index context)
  | write v key index context =>
    store m do
      m.memory.write m.script m.config.flags (← Memory.reference m.script key index context) v
  | openView tag h => observe m (m.memory.checkTag tag h)
  | readField k h member index => observe m (m.memory.readField m.script k h member index)
  | writeField v h member index => store m (m.memory.writeField m.script v h member index)

end Query

end ScriptMachine
