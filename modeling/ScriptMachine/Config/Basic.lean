import ScriptMachine.Flags

/-!
# Configuration

The limits of a machine and the checks it is told to relax. A configuration has a text, in which it
is kept beside the scripts.
-/

namespace ScriptMachine

/-- The checks a machine relaxes, for scripts that rely on leniency. -/
structure ExecutionFlags where
  bits : UInt32
  deriving DecidableEq

namespace ExecutionFlags

/-- Members read without a current instance have zero values, and writes to them are dropped. -/
def allowNullInstance : ExecutionFlags := ⟨1⟩

/-- Constant symbols can be written to. -/
def ignoreConst : ExecutionFlags := ⟨2⟩

/-- No relaxation. -/
def none : ExecutionFlags := ⟨0⟩

/-- Whether all flags of `b` are in `a`. -/
def contains (a b : ExecutionFlags) : Bool := a.bits &&& b.bits == b.bits

/-- The names of the flags. -/
def table : FlagTable := [
  ⟨"ALLOW_NULL_INSTANCE_ACCESS", allowNullInstance.bits⟩,
  ⟨"IGNORE_CONST_SPECIFIER", ignoreConst.bits⟩]

end ExecutionFlags

/-- The configuration of a machine. -/
structure Config where
  flags : ExecutionFlags
  /-- How many instances may be live at once. -/
  maxInstances : Nat
  /-- How many frames may be nested. -/
  maxCallDepth : Nat
  deriving DecidableEq

namespace Config

/-- The configuration used where none is given. -/
def default : Config := ⟨.none, 65536, 1024⟩

/-- The entries of a configuration: a key, and its value in JSON. -/
def entries (c : Config) : List (String × String) := [
  ("flags", "\x22" ++ ExecutionFlags.table.render c.flags.bits ++ "\x22"),
  ("max_instances", toString c.maxInstances),
  ("max_call_depth", toString c.maxCallDepth)]

/-- A configuration in JSON, without white space. -/
def compactText (c : Config) : String :=
  "\x7b" ++ ",".intercalate (c.entries.map fun (k, v) => "\x22" ++ k ++ "\x22:" ++ v) ++ "\x7d"

/-- A configuration in JSON, an entry a line. -/
def prettyText (c : Config) : String :=
  "\x7b\n" ++ ",\n".intercalate (c.entries.map fun (k, v) => "  \x22" ++ k ++ "\x22: " ++ v) ++
    "\n\x7d"

end Config

end ScriptMachine
