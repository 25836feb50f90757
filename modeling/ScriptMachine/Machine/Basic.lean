import ScriptMachine.Host.Routine
import ScriptMachine.Memory.Basic

/-!
# Machines

The state of a machine that runs one script. Operations on a machine may fail; whatever they did
before they failed stays done.
-/

namespace ScriptMachine

/-- An entry of the evaluation stack. -/
inductive Entry where
  /-- A value with its kind. -/
  | value (v : Value)
  /-- A literal number. Code holds floats as their bit patterns, so it serves as either. -/
  | immediate (n : Int32)
  /-- A variable that is read when the entry is popped. -/
  | reference (r : Reference)
  deriving DecidableEq

/-- The kind of an entry in a report. -/
def Entry.kind : Entry → EntryKind
  | value v => .value v.kind
  | immediate _ => .immediate
  | reference _ => .reference

/-- An activation of a body. -/
structure Frame where
  /-- The symbol that names the body, if there is one. -/
  function : Option UInt32
  /-- Where the caller goes on. -/
  returnPc : UInt32
  /-- The current instance of the caller. -/
  context : Option Handle
  /-- Whether the host entered the body, so that control returns to it. -/
  hostEntry : Bool
  deriving DecidableEq

/-- A callback bound to a function, with the kinds it was declared to take and to return. -/
structure Binding (σ : Type) where
  callback : List Value → Routine σ
  params : List Kind
  result : Kind

/-- The callbacks bound to functions, by the index of the function. -/
abbrev Bindings (σ : Type) := UInt32 → Option (Binding σ)

namespace Bindings

variable {σ : Type}

/-- No callbacks. -/
def empty : Bindings σ := fun _ => none

/-- The bindings with the one of a function replaced. -/
def insert (b : Bindings σ) (i : UInt32) (x : Binding σ) : Bindings σ :=
  fun j => if j = i then some x else b j

@[simp] theorem insert_self (b : Bindings σ) (i : UInt32) (x : Binding σ) :
    b.insert i x i = some x := by
  simp [insert]

theorem insert_of_ne (b : Bindings σ) {i j : UInt32} (h : j ≠ i) (x : Binding σ) :
    b.insert i x j = b j := by
  simp [insert, h]

end Bindings

/-- What the host has registered. -/
structure Registrations (σ : Type) where
  /-- The callbacks of external functions. -/
  externals : Bindings σ
  /-- The callbacks that replace script functions. -/
  overrides : Bindings σ
  /-- The callback for external functions that have none of their own. -/
  fallback : Option (Symbol → Routine σ)
  /-- The external functions without a callback that were reported already. -/
  reported : List UInt32

/-- Nothing registered. -/
def Registrations.none {σ : Type} : Registrations σ := ⟨.empty, .empty, .none, []⟩

/-- A machine with callbacks of a host whose state has type `σ`. -/
structure Machine (σ : Type) where
  script : Script
  config : Config
  /-- The evaluation stack, its top first. -/
  stack : List Entry
  memory : Memory
  registrations : Registrations σ
  /-- The active bodies, the innermost first. -/
  frames : List Frame
  pc : UInt32
  /-- The current instance, in which members are looked up. -/
  context : Option Handle
  /-- The bodies that were active at the error that made the machine unusable. -/
  poison : Option (List TraceLine)
  /-- What the machine reported, the latest first. -/
  log : List LogEvent

/-- Operations on a machine. -/
abbrev MachineM (σ : Type) := ExceptT Error (StateM (Machine σ))

namespace Machine

variable {σ : Type}

/-- A machine that has not run yet. -/
def new (p : Script) (c : Config) : Machine σ where
  script := p
  config := c
  stack := []
  memory := .ofScript p c.maxInstances
  registrations := .none
  frames := []
  pc := 0
  context := none
  poison := none
  log := [.machineReady p.symbols.size p.code.size c.flags]

/-- Adds an event to the log. -/
def report (m : Machine σ) (e : LogEvent) : Machine σ := { m with log := e :: m.log }

/-! ## The active bodies -/

/-- The name of the body of a frame. -/
def frameName (m : Machine σ) (f : Frame) : String :=
  match f.function.bind m.script.symbolByIndex? with
  | some s => s.name
  | none => "<anonymous>"

/-- Each frame with the address at which it stands: the innermost one at `pc`, each other one where
the frame it entered returns to. -/
def traceFrom (m : Machine σ) (pc : UInt32) : List Frame → List TraceLine
  | [] => []
  | f :: rest => ⟨m.frameName f, pc⟩ :: m.traceFrom f.returnPc rest

/-- The bodies that are active now, the innermost first. -/
def liveTrace (m : Machine σ) : List TraceLine := m.traceFrom m.pc m.frames

/-- The active bodies, or those that were active when the machine became unusable. -/
def stackTrace (m : Machine σ) : List TraceLine := m.poison.getD m.liveTrace

/-- Whether the machine has become unusable. -/
def isPoisoned (m : Machine σ) : Bool := m.poison.isSome

/-- Makes the machine unusable because of an error. A machine that is unusable stays as it is. -/
def poisonWith (m : Machine σ) (e : Error) : Machine σ :=
  match m.poison with
  | some _ => m
  | none =>
    { m with
      poison := some m.liveTrace
      stack := []
      log := .stackTrace m.liveTrace :: .fatal e :: m.log }

/-- Fails if the machine is unusable. -/
def ensureUsable (m : Machine σ) : Except Error Unit :=
  if m.isPoisoned then .error .poisoned else .ok ()

end Machine

end ScriptMachine
