import ScriptMachine.Host.Query

/-!
# Host routines

Host code acts on a machine only through requests, so a routine is a tree: each node is a request,
and the subtree that follows is chosen by the answer. Callbacks that the host registers are routines
too. The host keeps a state of its own, of type `σ`, which the machine never looks at.
-/

namespace ScriptMachine

/-- Why a callback failed. -/
inductive HostFailure where
  /-- An error of the machine, handed on. -/
  | raised (e : Error)
  /-- A reason of the host's own. -/
  | reason (text : String)
  deriving DecidableEq

/-- The error a failed callback of a function causes. An error of the machine stays what it is. -/
def HostFailure.toError (function : String) : HostFailure → Error
  | raised e => e
  | reason text => .externalFailed function text

/-- Host code, as the tree of requests it makes of a machine. -/
inductive Routine (σ : Type) : Type where
  | finish (outcome : Except HostFailure Value)
  /-- Looks at the state of the host. -/
  | getHost (next : σ → Routine σ)
  /-- Changes the state of the host. -/
  | setHost (s : σ) (next : Routine σ)
  | ask (q : Query) (next : q.Reply → Routine σ)
  /-- Calls a function, which may run callbacks of the host in turn. -/
  | call (key : SymbolKey) (args : List Value) (expected : Option Kind)
      (next : Except Error Value → Routine σ)
  /-- Allocates an instance and runs its body. -/
  | create (key : SymbolKey) (tag : InstanceTag) (next : Except Error Handle → Routine σ)
  /-- Runs the body of an instance. -/
  | runBody (h : Handle) (next : Except Error Unit → Routine σ)
  /-- Binds a callback to an external function. -/
  | registerExternal (key : SymbolKey) (params : List Kind) (result : Kind)
      (callback : List Value → Routine σ) (next : Except Error Unit → Routine σ)
  /-- Replaces a script function by a callback. -/
  | overrideFunction (key : SymbolKey) (params : List Kind) (result : Kind)
      (callback : List Value → Routine σ) (next : Except Error Unit → Routine σ)
  /-- Sets the callback for external functions that have none. -/
  | registerDefault (callback : Symbol → Routine σ) (next : Routine σ)

/-- Host code that is to be followed by more, and hands a value on to it. -/
def HostAction (σ α : Type) := (α → Routine σ) → Routine σ

namespace HostAction

variable {σ α β : Type}

instance : Monad (HostAction σ) where
  pure a := fun next => next a
  bind x f := fun next => x fun a => f a next

/-- Ends the routine. -/
def finish (outcome : Except HostFailure Value) : HostAction σ α := fun _ => .finish outcome

/-- The state of the host. -/
def getHost : HostAction σ σ := Routine.getHost

/-- Changes the state of the host. -/
def modifyHost (f : σ → σ) : HostAction σ Unit :=
  fun next => .getHost fun s => .setHost (f s) (next ())

/-- Asks a machine. -/
def ask (q : Query) : HostAction σ q.Reply := Routine.ask q

/-- Calls a function. -/
def call (key : SymbolKey) (args : List Value) (expected : Option Kind) :
    HostAction σ (Except Error Value) :=
  Routine.call key args expected

/-- Allocates an instance and runs its body. -/
def create (key : SymbolKey) (tag : InstanceTag) : HostAction σ (Except Error Handle) :=
  Routine.create key tag

/-- Runs the body of an instance. -/
def runBody (h : Handle) : HostAction σ (Except Error Unit) := Routine.runBody h

/-- The routine that runs an action and ends with the outcome it hands on. -/
def toRoutine (x : HostAction σ (Except HostFailure Value)) : Routine σ := x Routine.finish

end HostAction

end ScriptMachine
