import ScriptMachine.Host.Routine
import ScriptMachine.Schema.All

/-!
# Views

Access of the host to the fields of an instance under a schema. An instance that was allocated under
another tag is refused before anything else is looked at.
-/

namespace ScriptMachine

namespace HostAction

variable {σ : Type}

/-- Continues if an instance may be used under a tag. -/
def view {α : Type} (tag : InstanceTag) (h : Handle) (x : HostAction σ (Except Error α)) :
    HostAction σ (Except Error α) := do
  match ← ask (.openView tag h) with
  | .error e => return .error e
  | .ok _ => x

/-- Reads an element of a member. -/
def readMember (tag : InstanceTag) (h : Handle) (k : CellKind) (member : String) (index : Nat) :
    HostAction σ (Except Error k.Content) :=
  view tag h (ask (.readField k h member index))

/-- Writes an element of a member. -/
def writeMember (tag : InstanceTag) (h : Handle) (v : CellValue) (member : String) (index : Nat) :
    HostAction σ (Except Error Unit) :=
  view tag h (ask (.writeField v h member index))

/-- Reads a field of a schema. There is no content for a number that stands for no element. -/
def readField (s : Schema) (h : Handle) (f : SchemaField) (n : Nat) :
    HostAction σ (Except Error (Option f.kind.Content)) :=
  view s.tag h do
    match f.index.position? n with
    | none => return .ok none
    | some i => return (← ask (.readField f.kind h f.member i)).map some

/-- Writes a field of a schema, and says whether the number stands for an element. -/
def writeField (s : Schema) (h : Handle) (f : SchemaField) (n : Nat) (v : CellValue) :
    HostAction σ (Except Error Bool) :=
  view s.tag h do
    match f.index.position? n with
    | none => return .ok false
    | some i => return (← ask (.writeField v h f.member i)).map fun _ => true

/-- Reads a number that stands for a member of an enumeration. -/
def readEnumerated (α : Type) [Enumeration α] (tag : InstanceTag) (h : Handle) (member : String)
    (index : Nat) : HostAction σ (Except Error (Option α)) := do
  return (← readMember tag h .int member index).map fun n => Enumeration.ofCode? n.toInt

/-- The flags of a character. -/
def npcFlags (h : Handle) : HostAction σ (Except Error Int32) := readMember .npc h .int "FLAGS" 0

/-- Replaces the flags of a character. -/
def setNpcFlags (h : Handle) (flags : Int32) : HostAction σ (Except Error Unit) :=
  writeMember .npc h ⟨.int, flags⟩ "FLAGS" 0

/-- The flags of an item. -/
def itemFlags (h : Handle) : HostAction σ (Except Error Int32) := readMember .item h .int "FLAGS" 0

/-- How a music segment passes into the next. -/
def musicTransition (h : Handle) : HostAction σ (Except Error (Option MusicTransitionEffect)) :=
  readEnumerated MusicTransitionEffect .musicTheme h "TRANSTYPE" 0

/-- A move of a combat table. -/
def fightMove (h : Handle) (index : Nat) : HostAction σ (Except Error (Option FightAiMove)) :=
  readEnumerated FightAiMove .fightAi h "MOVE" index

/-- What a menu entry is. -/
def menuItemType (h : Handle) : HostAction σ (Except Error (Option MenuItemType)) :=
  readEnumerated MenuItemType .menuItem h "TYPE" 0

end HostAction

end ScriptMachine
