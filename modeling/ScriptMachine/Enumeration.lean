/-!
# Enumerations

Scripts store the members of an enumeration as numbers. An enumeration lists its members, and gives
each a number and the name it is reported under.
-/

namespace ScriptMachine

/-- A finite type whose members scripts write as numbers. -/
class Enumeration (α : Type) where
  /-- All members, in the order of their numbers. -/
  members : List α
  /-- The number of a member. -/
  code : α → Int
  /-- The name a member is reported under. -/
  label : α → String

namespace Enumeration

variable {α : Type} [Enumeration α]

/-- The member with number `n`. -/
def ofCode? (n : Int) : Option α :=
  (members (α := α)).find? fun a => code a == n

/-- The member reported under the name `s`. -/
def ofLabel? (s : String) : Option α :=
  (members (α := α)).find? fun a => label a == s

end Enumeration

end ScriptMachine
