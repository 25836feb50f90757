import ScriptMachine.Assembler.Draft

/-!
# Bodies

The items a body of code is assembled from. Jumps go to labels, which may be bound later: each jump
leaves a place to be filled, and finishing the body fills all of them.
-/

namespace ScriptMachine.Assembler

/-- What a body is assembled from. -/
inductive BodyItem where
  /-- An instruction. -/
  | emit (opcode : Opcode) (operand : Operand)
  /-- Pushes a reference to a fresh text literal. -/
  | pushText (text : String)
  /-- Calls the body of a symbol. -/
  | branch (symbol : UInt32)
  /-- Calls a symbol: through the host if the host provides it, else its body. -/
  | call (symbol : UInt32)
  /-- Introduces the next label, which is not bound yet. -/
  | newLabel
  /-- Binds a label to the current address. -/
  | bind (label : Nat)
  /-- Jumps to a label. -/
  | jump (label : Nat)
  /-- Jumps to a label if the number popped is zero. -/
  | jumpIfZero (label : Nat)
  /-- Appends bytes as they are. -/
  | raw (bytes : List UInt8)
  /-- Ends the body with a return and fills its jumps. Finishing again has no effect. -/
  | finish

namespace BodyItem

/-! ## Common items -/

/-- An instruction without an operand. -/
def op (opcode : Opcode) : BodyItem := .emit opcode .none
/-- Pushes a number. -/
def pushInt (n : Int32) : BodyItem := .emit .pushi (.immediate n)
/-- Pushes a floating-point number, which travels as its bit pattern. -/
def pushFloat (x : Single) : BodyItem := .pushInt x.bits.toInt32
/-- Pushes a reference to a variable. -/
def pushVar (symbol : UInt32) : BodyItem := .emit .pushv (.symbol symbol)
/-- Pushes a reference to an element of a variable. -/
def pushElement (symbol : UInt32) (index : UInt8) : BodyItem :=
  .emit .pushvv (.element symbol index)
/-- Pushes the instance bound to a symbol. -/
def pushInstance (symbol : UInt32) : BodyItem := .emit .pushvi (.symbol symbol)
/-- Makes the instance bound to a symbol the current one. -/
def setContext (symbol : UInt32) : BodyItem := .emit .gmovi (.symbol symbol)
/-- Calls an external function. -/
def callExternal (symbol : UInt32) : BodyItem := .emit .be (.symbol symbol)

/-- Stores a number in a variable. -/
def setInt (symbol : UInt32) (n : Int32) : List BodyItem := [pushInt n, pushVar symbol, op .movi]
/-- Stores a number in an element of a variable. -/
def setIntAt (symbol : UInt32) (index : UInt8) (n : Int32) : List BodyItem :=
  [pushInt n, pushElement symbol index, op .movi]
/-- Stores a floating-point number in a variable. -/
def setFloat (symbol : UInt32) (x : Single) : List BodyItem :=
  [pushFloat x, pushVar symbol, op .movf]
/-- Stores a text in a variable. -/
def setString (symbol : UInt32) (text : String) : List BodyItem :=
  [pushText text, pushVar symbol, op .movs]

end BodyItem

/-- A body under construction. -/
structure OpenBody where
  draft : Draft
  /-- The address of each label introduced so far, if it is bound. -/
  labels : Array (Option UInt32)
  /-- The positions in the code that await the address of a label. -/
  fixups : List (Nat × Nat)
  finished : Bool

namespace Draft

/-- Appends a constant text. -/
def addStringConst (d : Draft) (name text : String) : Draft :=
  d.add { Symbol.blank name 0 .string none with flags := .const, data := .strings [text] }

/-- Appends a text literal under the next literal name. -/
def addLiteral (d : Draft) (text : String) : Draft :=
  let n := d.literals + 1
  { d with literals := n }.addStringConst ("\u00FF" ++ toString (10000 + n)) text

/-- The address a call to a symbol goes to. -/
def targetOf (d : Draft) (symbol : UInt32) : UInt32 :=
  match d.symbolAt? symbol with
  | some s => s.address
  | none => 0xFFFFFFFF

/-- Opens a body at the current address. -/
def openBody (d : Draft) : OpenBody := ⟨d, #[], [], false⟩

end Draft

namespace OpenBody

variable (o : OpenBody)

/-- Emits an instruction. -/
def emit (opcode : Opcode) (operand : Operand) : OpenBody :=
  { o with draft := o.draft.emit opcode operand }

/-- Emits a jump whose target is filled in when the body is finished. -/
def emitJump (opcode : Opcode) (label : Nat) : OpenBody :=
  { o with fixups := o.fixups ++ [(o.draft.code.size + 1, label)] }.emit opcode (.address 0)

/-- The address a label stands for. -/
def addressOf (label : Nat) : UInt32 :=
  match o.labels[label]? with
  | some (some a) => a
  | _ => 0xFFFFFFFF

/-- Emits the closing return and fills the jumps. -/
def finish : OpenBody :=
  if o.finished then o
  else
    let closed := o.emit .rsr .none
    { closed with
      draft := o.fixups.foldl (fun d (position, label) => d.patch position (o.addressOf label))
        closed.draft
      fixups := []
      finished := true }

/-- Assembles one item. -/
def step : BodyItem → OpenBody
  | .emit opcode operand => o.emit opcode operand
  | .pushText text =>
    let literal := o.draft.nextIndex
    { o with draft := o.draft.addLiteral text }.emit .pushv (.symbol literal)
  | .branch symbol => o.emit .bl (.address (o.draft.targetOf symbol))
  | .call symbol =>
    if (o.draft.symbolAt? symbol).any (·.isExternal) then o.emit .be (.symbol symbol)
    else o.emit .bl (.address (o.draft.targetOf symbol))
  | .newLabel => { o with labels := o.labels.push none }
  | .bind label => { o with labels := o.labels.setIfInBounds label (some o.draft.here) }
  | .jump label => o.emitJump .b label
  | .jumpIfZero label => o.emitJump .bz label
  | .raw bytes => { o with draft := o.draft.addCode bytes }
  | .finish => o.finish

end OpenBody

/-- Appends a body to a draft. -/
def Draft.addBody (d : Draft) (items : List BodyItem) : Draft :=
  (items.foldl OpenBody.step d.openBody).draft

end ScriptMachine.Assembler
