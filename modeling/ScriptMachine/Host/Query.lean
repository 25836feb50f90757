import ScriptMachine.Instance.Registry
import ScriptMachine.Machine.Log

/-!
# Queries

What host code may ask of a machine without running script code, and the form of each answer.
-/

namespace ScriptMachine

/-- The five instance variables the engine binds. -/
inductive GlobalSlot where
  | self
  | other
  | victim
  | hero
  | item
  deriving DecidableEq

namespace GlobalSlot

/-- The name of the symbol bound to a slot. -/
def symbolName : GlobalSlot → String
  | self => "SELF"
  | other => "OTHER"
  | victim => "VICTIM"
  | hero => "HERO"
  | item => "ITEM"

end GlobalSlot

/-- What host code may ask of a machine without running script code. -/
inductive Query where
  | push (v : Value)
  | pop (k : Kind)
  | stackLength
  | isPoisoned
  | stackTrace
  | printStackTrace
  | hasExternal (key : SymbolKey)
  | alloc (key : SymbolKey) (tag : InstanceTag)
  | free (h : Handle)
  | state (h : Handle)
  | className (h : Handle)
  | instanceCount
  | bound (key : SymbolKey)
  | current
  | global (slot : GlobalSlot)
  | setGlobal (slot : GlobalSlot) (h : Option Handle)
  | read (k : CellKind) (key : SymbolKey) (index : Nat) (context : Option Handle)
  | write (v : CellValue) (key : SymbolKey) (index : Nat) (context : Option Handle)
  /-- Asks for access to the fields of an instance under a tag. -/
  | openView (tag : InstanceTag) (h : Handle)
  | readField (k : CellKind) (h : Handle) (member : String) (index : Nat)
  | writeField (v : CellValue) (h : Handle) (member : String) (index : Nat)

/-- The form of the answer to a query. -/
abbrev Query.Reply : Query → Type
  | push _ => Unit
  | pop _ => Except Error Value
  | stackLength => Nat
  | isPoisoned => Bool
  | stackTrace => List TraceLine
  | printStackTrace => Unit
  | hasExternal _ => Bool
  | alloc _ _ => Except Error Handle
  | free _ => Except Error Unit
  | state _ => Except Error InstanceState
  | className _ => Except Error String
  | instanceCount => Nat
  | bound _ => Except Error (Option Handle)
  | current => Option Handle
  | global _ => Option Handle
  | setGlobal _ _ => Unit
  | read k _ _ _ => Except Error k.Content
  | write _ _ _ _ => Except Error Unit
  | openView _ _ => Except Error Unit
  | readField k _ _ _ => Except Error k.Content
  | writeField _ _ _ _ => Except Error Unit

/-- Whether the program ends with the answer to a query. Only memory that is looked up can do
that. -/
def Query.ends : (q : Query) → q.Reply → Bool
  | pop _, r => Error.ends r
  | read _ _ _ _, r => Error.ends r
  | write _ _ _ _, r => Error.ends r
  | readField _ _ _ _, r => Error.ends r
  | writeField _ _ _ _, r => Error.ends r
  | _, _ => false

end ScriptMachine
