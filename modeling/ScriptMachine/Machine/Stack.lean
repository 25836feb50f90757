import ScriptMachine.Machine.Basic

/-!
# The evaluation stack

Entries are popped at a kind. A typed value serves its own kind only, a literal number serves as an
integer or as the bit pattern of a float, and a reference is read at the moment it is popped.
Popping an entry at a kind it cannot serve makes the machine unusable, even if the error is
dropped.
-/

namespace ScriptMachine

/-- The content a value has as a cell of kind `k`. -/
def Value.content? : (k : CellKind) → Value → Option k.Content
  | .int, int n => some n
  | .float, float x => some x
  | .string, string s => some s
  | .inst, inst h => some h
  | _, _ => none

@[simp] theorem Value.content?_toValue (k : CellKind) (c : k.Content) :
    (k.toValue c).content? k = some c := by
  cases k <;> rfl

/-- The content a literal number has as a cell of kind `k`. -/
def CellKind.ofImmediate? : (k : CellKind) → Int32 → Option k.Content
  | int, n => some n
  | float, n => some ⟨n.toUInt32⟩
  | _, _ => none

namespace Machine

variable {σ : Type} (m : Machine σ)

/-- Pushes an entry. -/
def pushEntry (e : Entry) : Machine σ := { m with stack := e :: m.stack }

/-- Pushes a value. -/
def push (v : Value) : Machine σ := m.pushEntry (.value v)

/-- Pushes values, the last one on top. -/
def pushAll (vs : List Value) : Machine σ := vs.foldl push m

/-- Pushes a value produced for a script; no value takes no room. -/
def pushResult (v : Value) : Machine σ :=
  if v = .void then m else m.push v

/-- What a reference leads to. -/
def read (k : CellKind) (r : Reference) : Except Error k.Content :=
  m.memory.read m.script m.config.flags k r

/-- The content an entry has as a cell of kind `k`; `none` if it cannot serve that kind. -/
def content? (k : CellKind) : Entry → Option (Except Error k.Content)
  | .value v => (v.content? k).map .ok
  | .immediate n => (k.ofImmediate? n).map .ok
  | .reference r => some (m.read k r)

/-- The machine once an entry turned out not to be what was expected, and the error. -/
def mismatch (expected : EntryKind) (e : Entry) : Error × Machine σ :=
  let error := .stackTypeMismatch expected e.kind
  (error, m.poisonWith error)

/-- Pops an entry at kind `k`. -/
def pop (k : CellKind) : MachineM σ k.Content := fun m =>
  match m.stack with
  | [] => (.error .stackUnderflow, m)
  | e :: rest =>
    let m := { m with stack := rest }
    match m.content? k e with
    | some r => (r, m)
    | none =>
      let (error, m) := m.mismatch (.value k.kind) e
      (.error error, m)

/-- Pops an entry of any kind. -/
def popEntry : MachineM σ Entry := fun m =>
  match m.stack with
  | [] => (.error .stackUnderflow, m)
  | e :: rest => (.ok e, { m with stack := rest })

/-- Pops a reference. -/
def popReference : MachineM σ Reference := fun m =>
  match m.stack with
  | [] => (.error .stackUnderflow, m)
  | e :: rest =>
    let m := { m with stack := rest }
    match e with
    | .reference r => (.ok r, m)
    | _ =>
      let (error, m) := m.mismatch .reference e
      (.error error, m)

/-- Pops a value of a kind; `void` pops nothing. -/
def popValue (k : Kind) : MachineM σ Value :=
  match CellKind.ofKind? k with
  | some k => return k.toValue (← pop k)
  | none => return .void

/-- Pops values whose kinds are given in reverse, so the top one first, and hands them on in order
in front of others. -/
def popOnto (vs : List Value) : List Kind → MachineM σ (List Value)
  | [] => return vs
  | k :: ks => do popOnto ((← popValue k) :: vs) ks

/-- Pops values of the given kinds, the last one from the top. -/
def popAll (ks : List Kind) : MachineM σ (List Value) := popOnto [] ks.reverse

end Machine

end ScriptMachine
