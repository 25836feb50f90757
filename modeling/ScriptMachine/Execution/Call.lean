import ScriptMachine.Execution.Loop

/-!
# Calls and bodies of instances

The ways for a host to run script code. What can be checked is checked first, and such an error
leaves the machine as it was; an error after that makes the machine unusable.
-/

namespace ScriptMachine

namespace RunM

variable {σ : Type} (b : Budget σ)

/-- Runs a function: the callback that replaces it, the callback of an external function, or its
body. -/
def invoke (f : Symbol) : RunM σ Unit := do
  if (← machine).hasOverride f.index then callOverride b f.index
  else if f.isExternal then callExternal b f.index
  else runFunction b f.index f.address

/-- Calls a function with arguments. Without an expected kind the result is dropped. -/
def call (key : SymbolKey) (args : List Value) (expected : Option Kind) : RunM σ Value := do
  let m ← machine
  let (f, kind) ← m.checkCall key args expected
  modifyMachine fun m => m.beginCall f args
  let v ← onError
    (do invoke b f; onMachine (Machine.takeResult f kind m.stack.length))
    fun e m => m.poisonWith e
  return if expected.isSome then v else .void

/-- Runs the body of an instance, with the instance as the current one and bound to `SELF`. -/
def runBody (h : Handle) : RunM σ Unit := do
  let m ← machine
  let s ← m.checkBody h
  modifyMachine fun m => m.beginBody s h
  andThen (runFunction b s.index s.address) fun _ m' => m'.restore m.displaced
  onMachine (Machine.markInitialized h)

/-- Allocates an instance and runs its body. -/
def create (key : SymbolKey) (tag : InstanceTag) : RunM σ Handle := do
  (← machine).ensureUsable
  let h ← onMachine (Machine.alloc key tag)
  runBody b h
  return h

end RunM

end ScriptMachine
