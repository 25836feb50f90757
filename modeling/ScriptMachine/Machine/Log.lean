import ScriptMachine.Config.Basic
import ScriptMachine.Script.Basic

/-!
# The log

What a machine reports while it runs, as events with a severity. An event keeps the data it reports
and is turned into text only where it is shown.
-/

namespace ScriptMachine

/-- One line of a stack trace. -/
structure TraceLine where
  function : String
  address : UInt32
  deriving DecidableEq

/-- A line of a stack trace as text. -/
def TraceLine.text (l : TraceLine) : String :=
  l.function ++ " @ 0x" ++ Text.hexPadded 8 l.address.toNat

/-- The severity of an event, the gravest first. -/
inductive Severity where
  | error
  | warning
  | info
  | debug
  deriving DecidableEq

namespace Severity

/-- The place of a severity, counted from the gravest. -/
def rank : Severity → Nat
  | error => 0
  | warning => 1
  | info => 2
  | debug => 3

/-- The name of a severity in front of a line. -/
def name : Severity → String
  | error => "ERROR"
  | warning => "WARN"
  | info => "INFO"
  | debug => "DEBUG"

end Severity

/-- What a machine reports. -/
inductive LogEvent where
  | fatal (e : Error)
  | stackTrace (lines : List TraceLine)
  | returnedNothing (function : String)
  | notRegistered (function : String)
  | executed (i : Instruction)
  | called (function : String)
  | dispatched (function : String) (args : List Value)
  | allocated (symbol : String) (tag : InstanceTag) (slot : UInt32)
  | initializing (symbol : String)
  | freed (symbol slot : UInt32)
  | registeredAgain (function : String)
  | overridden (function : String)
  | scriptLoaded (version : UInt8) (symbols bytes : Nat)
  | machineReady (symbols bytes : Nat) (flags : ExecutionFlags)
  deriving DecidableEq

namespace LogEvent

/-- The severity of an event. -/
def severity : LogEvent → Severity
  | fatal _ | stackTrace _ => .error
  | returnedNothing _ | notRegistered _ => .warning
  | executed _ | called _ | dispatched _ _ | allocated _ _ _ | initializing _ | freed _ _ => .info
  | registeredAgain _ | overridden _ | scriptLoaded _ _ _ | machineReady _ _ _ => .debug

/-- The text of a stack trace. -/
def traceText : List TraceLine → String
  | [] => "stack trace: <no script frames>"
  | lines =>
    "stack trace:\n" ++ "\n".intercalate
      (lines.zipIdx.map fun (l, i) => "  #" ++ Text.decimalPadded 2 i ++ " " ++ l.text)

/-- The text of an event of a machine that runs a given script. -/
def text (script : Script) : LogEvent → String
  | fatal e => "fatal script error: " ++ e.message
  | stackTrace lines => traceText lines
  | returnedNothing function => function ++ " returned without a value"
  | notRegistered function => "external " ++ function ++ " is not registered"
  | executed i => Text.hexPadded 8 i.address.toNat ++ ": " ++ script.describe i
  | called function => "call " ++ function
  | dispatched function args =>
    function ++ "(" ++ ", ".intercalate (args.map Value.text) ++ ")"
  | allocated symbol tag slot =>
    "alloc " ++ symbol ++ " as " ++ tag.name ++ " (slot " ++ toString slot.toNat ++ ")"
  | initializing symbol => "init " ++ symbol
  | freed symbol slot =>
    "free #" ++ toString symbol.toNat ++ " (slot " ++ toString slot.toNat ++ ")"
  | registeredAgain function => "external " ++ function ++ " re-registered"
  | overridden function => "function " ++ function ++ " overridden"
  | scriptLoaded version symbols bytes =>
    "loaded script v" ++ toString version.toNat ++ ": " ++ toString symbols ++ " symbols, "
      ++ toString bytes ++ " bytes of code"
  | machineReady symbols bytes flags =>
    "vm ready: " ++ toString symbols ++ " symbols, " ++ toString bytes ++
      " bytes of code, flags=ExecutionFlags(" ++ ExecutionFlags.table.describe flags.bits ++ ")"

end LogEvent

/-- What is reported when a script is loaded; symbols the loader added do not count. -/
def Script.loadedEvent (p : Script) : LogEvent :=
  .scriptLoaded p.version (p.symbols.toList.countP fun s => !s.isGenerated) p.code.size

end ScriptMachine
