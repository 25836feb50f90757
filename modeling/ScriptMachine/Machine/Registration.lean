import ScriptMachine.Machine.Basic

/-!
# Registration

The host binds callbacks to functions of the script. A callback is accepted only if it takes and
returns the kinds that the script declares.
-/

namespace ScriptMachine

/-- The kinds a function takes and returns. -/
structure Signature where
  params : List Kind
  result : Kind
  deriving DecidableEq

namespace Script

variable (p : Script)

/-- The kind of a declared parameter of the function `f`. -/
def parameterKind (f : Symbol) (s : Symbol) : Except Error Kind :=
  match s.kind? with
  | some k => .ok k
  | none => .error (.signatureMismatch f.name (.parameterType s.name s.type))

/-- The kind of the declared result of a function. -/
def resultKind (f : Symbol) : Except Error Kind :=
  match f.returnType? with
  | none => .ok .void
  | some t =>
    match t.kind? with
    | some k => .ok k
    | none => .error (.signatureMismatch f.name (.returnType t))

/-- The signature a script declares for a function. -/
def declaredSignature (f : Symbol) : Except Error Signature := do
  let params ← (p.parametersOf f).mapM (parameterKind f)
  return ⟨params, ← resultKind f⟩

/-- The first position at which two lists of kinds differ. -/
def firstDifference : List Kind → List Kind → Nat → Option (Nat × Kind × Kind)
  | a :: as, b :: bs, i => if a = b then firstDifference as bs (i + 1) else some (i, a, b)
  | _, _, _ => none

/-- Fails if a callback does not have the signature that the script declares for a function. -/
def checkSignature (f : Symbol) (taken : Signature) : Except Error Unit := do
  let declared ← p.declaredSignature f
  if declared.params.length ≠ taken.params.length then
    throw (.signatureMismatch f.name (.parameterCount declared.params.length taken.params.length))
  match firstDifference declared.params taken.params 0 with
  | some (i, d, t) => throw (.signatureMismatch f.name (.parameterKind i d t))
  | none =>
    if declared.result = taken.result then return ()
    else throw (.signatureMismatch f.name (.resultKind declared.result taken.result))

/-- The external function a key stands for. -/
def externalFunction (key : SymbolKey) : Except Error Symbol := do
  let f ← p.find key
  if f.isExternal then return f else throw (.notExternal f.name)

/-- The script function a key stands for. -/
def scriptFunction (key : SymbolKey) : Except Error Symbol := do
  let f ← p.find key
  if f.isCallable && !f.isExternal then return f else throw (.notAFunction f.name)

end Script

/-- The signature a callback was bound under. -/
def Binding.signature {σ : Type} (b : Binding σ) : Signature := ⟨b.params, b.result⟩

namespace Machine

variable {σ : Type} (m : Machine σ)

/-- Binds a callback to an external function. -/
def registerExternal (key : SymbolKey) (b : Binding σ) : Except Error (Machine σ) := do
  let f ← m.script.externalFunction key
  m.script.checkSignature f b.signature
  let known := (m.registrations.externals f.index).isSome
  let m := { m with
    registrations.externals := m.registrations.externals.insert f.index b }
  return if known then m.report (.registeredAgain f.name) else m

/-- Replaces a script function by a callback. -/
def overrideFunction (key : SymbolKey) (b : Binding σ) : Except Error (Machine σ) := do
  let f ← m.script.scriptFunction key
  m.script.checkSignature f b.signature
  let m := { m with
    registrations.overrides := m.registrations.overrides.insert f.index b }
  return m.report (.overridden f.name)

/-- Sets the callback for external functions that have none of their own. -/
def registerDefault (callback : Symbol → Routine σ) : Machine σ :=
  { m with registrations.fallback := some callback }

/-- Whether the external function a key stands for has a callback of its own. -/
def hasExternal (key : SymbolKey) : Bool :=
  (m.script.resolve? key).any fun f => (m.registrations.externals f.index).isSome

/-- Whether a script function is replaced by a callback. -/
def hasOverride (i : UInt32) : Bool := (m.registrations.overrides i).isSome

end Machine

end ScriptMachine
