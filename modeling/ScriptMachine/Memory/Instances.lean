import ScriptMachine.Memory.Basic

/-!
# Allocating and freeing instances

An instance is allocated for a symbol that defines one. Its class is found along the chain of
parents, its fields start with zeros, and the symbol is bound to it. Freeing an instance clears
every global cell that refers to it.
-/

namespace ScriptMachine

namespace Memory

variable (m : Memory) (p : Script)

/-- An instance of a class before its body has run. -/
def freshInstance (cls : Symbol) : Instance where
  cls := cls.index
  state := .allocated
  fields := ((p.membersOf cls).map Storage.ofSymbol).toArray

/-- The class an instance of the symbol `s` has under a tag. -/
def classFor (s : Symbol) (tag : InstanceTag) : Except Error Symbol :=
  if s.isInstanceDefinition then
    match p.classOf? s with
    | none => .error (.notAnInstance s.name)
    | some cls =>
      if tag.acceptsClass cls.name then .ok cls
      else .error (.instanceTypeMismatch tag cls.name)
  else .error (.notAnInstance s.name)

/-- Allocates an instance of the symbol `s` and binds the symbol to it. -/
def alloc (s : Symbol) (tag : InstanceTag) : Except Error (Handle × Memory) := do
  let cls ← classFor p s tag
  let (h, instances) ← m.instances.insert s.index tag (freshInstance p cls)
  return (h, ({ m with instances }).bind s.index (some h))

/-- Frees an instance. -/
def free (h : Handle) : Except Error Memory := do
  let instances ← m.instances.remove h
  return ⟨m.globals.map (Storage.forget h), instances⟩

/-- Marks an instance as initialized. -/
def markInitialized (h : Handle) : Except Error Memory := do
  let x ← m.instances.get h
  return { m with instances := m.instances.put h { x with state := .initialized } }

/-- The name of the class of an instance. -/
def className (h : Handle) : Except Error String := do
  let x ← m.instances.get h
  return (← p.find (.index x.cls)).name

end Memory

end ScriptMachine
