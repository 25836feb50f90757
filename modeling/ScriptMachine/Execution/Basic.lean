import ScriptMachine.Machine.Basic

/-!
# Running a machine under its host

Running script code may run callbacks of the host, which may run script code in turn. A run
therefore changes a world: a host and its machine. Scripts need not terminate, so a run has a budget
and no outcome once that is spent.
-/

namespace ScriptMachine

/-- A host together with its machine. -/
structure World (σ : Type) where
  host : σ
  machine : Machine σ

/-- Runs in a world. No outcome means that the budget was spent. -/
abbrev RunM (σ : Type) := ExceptT Error (StateT (World σ) Option)

/-- How host code runs. -/
abbrev RoutineRunner (σ : Type) :=
  Routine σ → World σ → Option (Except HostFailure Value × World σ)

/-- What a run may use. -/
structure Budget (σ : Type) where
  /-- How callbacks run. -/
  callback : RoutineRunner σ
  /-- How many instructions may be executed between entering a body and leaving it. -/
  steps : Nat

namespace RunM

variable {σ α : Type}

/-- Performs an operation on the machine. -/
def onMachine (x : MachineM σ α) : RunM σ α := fun w =>
  match x w.machine with
  | (r, m) => some (r, { w with machine := m })

/-- Changes the machine. -/
def modifyMachine (f : Machine σ → Machine σ) : RunM σ Unit := fun w =>
  some (.ok (), { w with machine := f w.machine })

/-- The machine as it is. -/
def machine : RunM σ (Machine σ) := fun w => some (.ok w.machine, w)

/-- Changes the machine after a run, whatever its outcome. -/
def andThen (x : RunM σ α) (f : Except Error α → Machine σ → Machine σ) : RunM σ α :=
  fun w =>
  match x w with
  | none => none
  | some (r, w) => some (r, { w with machine := f r w.machine })

/-- Changes the machine after a run that failed. -/
def onError (x : RunM σ α) (f : Error → Machine σ → Machine σ) : RunM σ α :=
  x.andThen fun r m =>
    match r with
    | .ok _ => m
    | .error e => f e m

/-- Runs a callback of a function. -/
def callback (b : Budget σ) (f : Symbol) (r : Routine σ) : RunM σ Value := fun w =>
  match b.callback r w with
  | none => none
  | some (.ok v, w) => some (.ok v, w)
  | some (.error failure, w) => some (.error (failure.toError f.name), w)

end RunM

end ScriptMachine
