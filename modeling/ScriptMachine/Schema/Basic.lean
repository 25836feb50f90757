import ScriptMachine.Schema.Enumeration
import ScriptMachine.Value
import ScriptMachine.Instance.Tag

/-!
# Schemas

A schema lists the fields the engine uses of the instances allocated under a tag. Each field stands
for a member of the class, or for one of its elements.
-/

namespace ScriptMachine

/-- How an element of a field is chosen. -/
inductive FieldIndex where
  /-- The field has one element only. -/
  | single
  /-- By its position. -/
  | element
  /-- By an attribute of a character. -/
  | npcAttribute
  /-- By a kind of damage. -/
  | damage
  /-- By a talent of a character. -/
  | talent
  deriving DecidableEq

/-- The position that a number stands for; `none` if it stands for nothing. -/
def FieldIndex.position? (i : FieldIndex) (n : Nat) : Option Nat :=
  let among (α : Type) [Enumeration α] : Option Nat :=
    (Enumeration.ofCode? (α := α) n).map fun _ => n
  match i with
  | single => some 0
  | element => some n
  | npcAttribute => among NpcAttribute
  | damage => among DamageType
  | talent => among NpcTalent

/-- A field of a schema. -/
structure SchemaField where
  name : String
  kind : CellKind
  index : FieldIndex
  /-- The unqualified name of the member. -/
  member : String
  deriving DecidableEq

/-- The fields the engine uses of the instances allocated under a tag. -/
structure Schema where
  tag : InstanceTag
  fields : List SchemaField

namespace Schema

/-- The field with a given name. -/
def field? (s : Schema) (name : String) : Option SchemaField :=
  s.fields.find? (·.name == name)

/-- The schema of any instance at all. -/
def any : Schema := ⟨.unknown, []⟩

end Schema

end ScriptMachine
