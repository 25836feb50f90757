import ScriptMachine.Execution.Dispatch
import ScriptMachine.Machine.Execute

/-!
# The execution loop

Instructions are executed one after the other until the body that the host entered is left. An
error makes the machine unusable and leaves every body that was entered since.
-/

namespace ScriptMachine

namespace RunM

variable {σ : Type} (b : Budget σ)

/-- Executes the instruction at `pc`, and says whether control returns to the host. -/
def step : RunM σ Bool := do
  let i ← onMachine Machine.fetch
  match ← onMachine (Machine.execute i) with
  | .next => return false
  | .leave => onMachine fun m => let (toHost, m) := m.leave; (.ok toHost, m)
  | .external f => callExternal b f; return false
  | .override f => callOverride b f; return false

/-- Repeats a step until it says to stop, at most `n` times. -/
def repeatStep (x : RunM σ Bool) : Nat → World σ → Option (Except Error Unit × World σ)
  | 0, _ => none
  | n + 1, w =>
    match x w with
    | none => none
    | some (.error e, w) => some (.error e, w)
    | some (.ok true, w) => some (.ok (), w)
    | some (.ok false, w) => repeatStep x n w

/-- Executes instructions until control returns to the host. -/
def loop : RunM σ Unit := repeatStep (step b) b.steps

/-- Runs the body at an address on behalf of a function. -/
def runFunction (function address : UInt32) : RunM σ Unit := do
  let base := (← machine).frames.length
  onError (do onMachine (Machine.enter (some function) address true); loop b)
    fun e m => (m.poisonWith e).unwind base

end RunM

end ScriptMachine
