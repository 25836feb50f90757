import ScriptMachine.Memory.Basic

/-!
# Fields by name

Host code reaches the fields of an instance by the unqualified names of the members of its class.
Scripts of different games declare different members, so reading a member that is not declared gives
zero; writing one fails.
-/

namespace ScriptMachine

namespace Memory

variable (m : Memory) (p : Script)

/-- Whether the fields of an instance may be used under a tag. The tag `unknown` fits every
instance. -/
def checkTag (tag : InstanceTag) (h : Handle) : Except Error Unit := do
  let _ ← m.instances.get h
  if tag = .unknown ∨ h.tag = tag then return ()
  else throw (.instanceTypeMismatch tag h.tag.name)

/-- The place of the member with a given unqualified name. -/
def memberPlace (h : Handle) (member : String) : Except Error Place := do
  let x ← m.instances.get h
  let cls ← p.find (.index x.cls)
  match p.findMember? cls member with
  | none => throw (.unknownMember cls.name member)
  | some s => return .field h x (← ordinal cls.index s.index)

/-- The storage of a member, with its place. -/
def memberStorage (h : Handle) (member : String) : Except Error (Place × Storage) := do
  let place ← m.memberPlace p h member
  match m.storageAt? place with
  | some st => return (place, st)
  | none => throw .staleInstance

/-- The content of a field. -/
def readField (k : CellKind) (h : Handle) (member : String) (index : Nat) :
    Except Error k.Content :=
  match m.memberStorage p h member with
  | .ok (_, st) => (st.get k index).mapError (CellFault.toError member k index)
  | .error (.unknownMember _ _) => .ok k.zero
  | .error e => .error e

/-- The memory after a field is written. -/
def writeField (v : CellValue) (h : Handle) (member : String) (index : Nat) :
    Except Error Memory := do
  let (place, st) ← m.memberStorage p h member
  match st.set index v with
  | .ok st => return m.putAt st place
  | .error fault => throw (fault.toError member v.1 index)

end Memory

end ScriptMachine
