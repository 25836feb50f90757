import ScriptMachine.Execution.Answer
import ScriptMachine.Execution.Call

/-!
# Running host code

A routine runs by following its tree: each request is answered by the machine, and the answer
chooses the subtree that follows. A distance that overflows ends the program, so host code is not
told of it: it ends where it is, and so does the host code that called it. Callbacks run under what
is left of a budget; more budget never changes an outcome.
-/

namespace ScriptMachine

namespace Routine

variable {σ : Type}

/-- The answer to an attempt to register a callback, and the machine afterwards. -/
def registered (m : Machine σ) : Except Error (Machine σ) → Except Error Unit × Machine σ
  | .ok m => (.ok (), m)
  | .error e => (.error e, m)

/-- How host code ends when the program does. -/
def ended : Except HostFailure Value := .error (.raised .overflow)

/-- The host code that follows an answer, unless the program ends with it. -/
def resume (ends : Bool) (next : Routine σ) : Routine σ := if ends then .finish ended else next

/-- Runs a routine under a budget. -/
def run (b : Budget σ) : RoutineRunner σ
  | finish outcome, w => some (outcome, w)
  | getHost next, w => run b (next w.host) w
  | setHost s next, w => run b next { w with host := s }
  | ask q next, w =>
    match q.answer w.machine with
    | (r, m) =>
      if q.ends r then some (ended, { w with machine := m })
      else run b (next r) { w with machine := m }
  | call key args expected next, w =>
    match RunM.call b key args expected w with
    | none => none
    | some (r, w) => if Error.ends r then some (ended, w) else run b (next r) w
  | create key tag next, w =>
    match RunM.create b key tag w with
    | none => none
    | some (r, w) => if Error.ends r then some (ended, w) else run b (next r) w
  | runBody h next, w =>
    match RunM.runBody b h w with
    | none => none
    | some (r, w) => if Error.ends r then some (ended, w) else run b (next r) w
  | registerExternal key params result callback next, w =>
    match registered w.machine (w.machine.registerExternal key ⟨callback, params, result⟩) with
    | (r, m) => run b (next r) { w with machine := m }
  | overrideFunction key params result callback next, w =>
    match registered w.machine (w.machine.overrideFunction key ⟨callback, params, result⟩) with
    | (r, m) => run b (next r) { w with machine := m }
  | registerDefault callback next, w =>
    run b next { w with machine := w.machine.registerDefault callback }

/-- Runs a routine in which callbacks nest less than `n` deep and no body executes `n`
instructions or more. -/
def runWithin : Nat → RoutineRunner σ
  | 0 => fun _ _ => none
  | n + 1 => run ⟨runWithin n, n⟩

end Routine

end ScriptMachine
