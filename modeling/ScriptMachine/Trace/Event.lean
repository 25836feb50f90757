import ScriptMachine.Machine.Log
import ScriptMachine.Trace.Mask

/-!
# Traced events

What a machine reports of its ordinary work belongs to a trace category and is shown only while that
category is switched on. Everything else is always shown.
-/

namespace ScriptMachine

/-- The trace category of an event, if it has one. -/
def LogEvent.category? : LogEvent → Option TraceCategory
  | executed _ | called _ => some .vm
  | dispatched _ _ => some .external
  | allocated _ _ _ | initializing _ | freed _ _ => some .inst
  | fatal _ | stackTrace _ | returnedNothing _ | notRegistered _ | registeredAgain _
  | overridden _ | scriptLoaded _ _ _ | machineReady _ _ _ => none

/-- Whether an event is shown under a mask. -/
def TraceMask.shows (m : TraceMask) (e : LogEvent) : Bool := e.category?.all m.contains

end ScriptMachine
