import ScriptMachine.Text.Blank

/-!
# Trace categories

Which kinds of events a machine reports. The choice is made by variables of the environment: one
lists categories, and each category has a switch of its own.
-/

namespace ScriptMachine

/-- The categories of traced events. -/
inductive TraceCategory where
  | vm
  | external
  | inst
  deriving DecidableEq

namespace TraceCategory

/-- The bit of a category in a mask. -/
def bit : TraceCategory → UInt32
  | vm => 1
  | external => 2
  | inst => 4

/-- The variable that switches a category on. -/
def variableName : TraceCategory → String
  | vm => "DAEDALUS_TRACE_VM"
  | external => "DAEDALUS_TRACE_EXTERNAL"
  | inst => "DAEDALUS_TRACE_INSTANCE"

end TraceCategory

/-- A set of trace categories, a bit for each. -/
structure TraceMask where
  bits : UInt32
  deriving DecidableEq

namespace TraceMask

/-- No category. -/
def empty : TraceMask := ⟨0⟩

/-- The mask with a category added. -/
def insert (m : TraceMask) (c : TraceCategory) : TraceMask := ⟨m.bits ||| c.bit⟩

/-- A mask with categories added. -/
def insertAll (m : TraceMask) (cs : List TraceCategory) : TraceMask := cs.foldl insert m

/-- Every category. -/
def full : TraceMask := empty.insertAll [.vm, .external, .inst]

/-- Whether a mask has a category. -/
def contains (m : TraceMask) (c : TraceCategory) : Bool := m.bits &&& c.bit != 0

/-- A list of characters in lower case. -/
def lower (cs : List Char) : String := String.ofList (cs.map Char.toLower)

/-- The categories a word of a list stands for; words without a meaning stand for none. -/
def categories : String → List TraceCategory
  | "all" => [.vm, .external, .inst]
  | "vm" => [.vm]
  | "external" | "ext" => [.external]
  | "instance" | "inst" => [.inst]
  | _ => []

/-- The mask a list stands for. Its words are separated by commas, semicolons and blanks. -/
def ofList (list : String) : TraceMask :=
  let words := Text.split (fun c => c == ',' || c == ';' || Text.isBlank c) list.toList
  empty.insertAll (words.flatMap fun w => categories (lower (Text.trim w)))

/-- Whether the value of a switch turns it on. -/
def isOn (value : String) : Bool :=
  !(["", "0", "false", "no", "off"].contains (lower (Text.trim value.toList)))

/-- The variable that lists categories. -/
def listVariable : String := "DAEDALUS_TRACE"

/-- The mask that an environment asks for. -/
def ofEnvironment (valueOf : String → Option String) : TraceMask :=
  let listed := (valueOf listVariable).elim empty ofList
  listed.insertAll ([TraceCategory.vm, .external, .inst].filter fun c =>
    (valueOf c.variableName).any isOn)

end TraceMask

end ScriptMachine
