import ScriptMachine.Execution.Basic
import ScriptMachine.Machine.Call

/-!
# Dispatching to callbacks

A function that is external or replaced is run by a callback. An external function without one is
run by the default callback, which finds the stack as it will be left: the arguments are gone and a
zero stands for the result.
-/

namespace ScriptMachine

namespace RunM

variable {σ : Type} (b : Budget σ)

/-- Runs the callback bound to a function. -/
def dispatch (f : Symbol) (x : Binding σ) : RunM σ Unit := do
  let args ← onMachine (Machine.takeArguments f x)
  let v ← callback b f (x.callback args)
  onMachine (Machine.giveResult f x v)

/-- Runs an external function that has no callback of its own. -/
def dispatchDefault (f : Symbol) : RunM σ Unit := do
  onMachine (Machine.balance f)
  match (← machine).registrations.fallback with
  | some g =>
    let _ ← callback b f (g f)
  | none => modifyMachine fun m => m.reportUnregistered f
  (← machine).ensureUsable

/-- Runs the external function at an index. -/
def callExternal (i : UInt32) : RunM σ Unit := do
  let m ← machine
  let f ← m.script.find (.index i)
  if !f.isExternal then
    throw (.notExternal f.name)
  match m.registrations.externals i with
  | some x => dispatch b f x
  | none => dispatchDefault b f

/-- Runs the callback that replaces the function at an index. -/
def callOverride (i : UInt32) : RunM σ Unit := do
  let m ← machine
  let f ← m.script.find (.index i)
  match m.registrations.overrides i with
  | some x => dispatch b f x
  | none => throw (.notAFunction f.name)

end RunM

end ScriptMachine
