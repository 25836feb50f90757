import ScriptMachine.Host.Argument
import ScriptMachine.Host.Routine

/-!
# Typed host code

Callbacks and calls whose arguments and results have types of the host. The types determine the
signature that a callback is registered under.
-/

namespace ScriptMachine

namespace HostAction

variable {σ : Type}

/-- The untyped callback that takes its arguments at given types and returns a typed result. -/
def typedCallback (ts : List ArgType) (r : ResultType)
    (f : Args ts → HostAction σ (Except HostFailure r.Carrier)) (vs : List Value) : Routine σ :=
  match Args.ofValues ts vs with
  | .error e => .finish (.error (.raised e))
  | .ok args => f args fun result => .finish (result.map r.toValue)

/-- Binds a typed callback to an external function. -/
def registerTyped (key : SymbolKey) (ts : List ArgType) (r : ResultType)
    (f : Args ts → HostAction σ (Except HostFailure r.Carrier)) :
    HostAction σ (Except Error Unit) :=
  Routine.registerExternal key (Args.kinds ts) r.kind (typedCallback ts r f)

/-- Binds an untyped callback to an external function. -/
def registerRaw (key : SymbolKey) (params : List Kind) (result : Kind)
    (callback : List Value → HostAction σ (Except HostFailure Value)) :
    HostAction σ (Except Error Unit) :=
  Routine.registerExternal key params result fun vs => (callback vs).toRoutine

/-- Replaces a script function by a typed callback. -/
def overrideTyped (key : SymbolKey) (ts : List ArgType) (r : ResultType)
    (f : Args ts → HostAction σ (Except HostFailure r.Carrier)) :
    HostAction σ (Except Error Unit) :=
  Routine.overrideFunction key (Args.kinds ts) r.kind (typedCallback ts r f)

/-- Sets the callback for external functions that have none of their own. -/
def registerDefault (callback : Symbol → HostAction σ (Except HostFailure Value)) :
    HostAction σ Unit := fun next =>
  Routine.registerDefault (fun s => (callback s).toRoutine) (next ())

/-- Calls a function with typed arguments and takes its result at a type. -/
def callTyped (key : SymbolKey) (ts : List ArgType) (args : Args ts) (r : ResultType) :
    HostAction σ (Except Error r.Carrier) := do
  return (← call key (Args.toValues ts args) r.expected).bind r.ofValue

end HostAction

end ScriptMachine
