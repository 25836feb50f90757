import ScriptMachine.Instruction

/-!
# Scripts

A loaded script: its symbol table and the bytecode the table points into. Symbols are found by
index, by name up to case, and by the address of their body; the queries below follow the links
between symbols.
-/

namespace ScriptMachine

/-- A loaded script. -/
structure Script where
  version : UInt8
  symbols : Array Symbol
  code : Code

namespace Script

/-- The names of the instance variables that the engine binds, in their fixed order. -/
def slotNames : List String := ["SELF", "OTHER", "VICTIM", "HERO", "ITEM"]

/-- The instance variable the loader adds under a slot name that no symbol has. -/
def slotSymbol (name : String) (index : Nat) : Symbol :=
  { Symbol.blank name (UInt32.ofNat index) .inst none with flags := .generated }

/-- The slot names that no symbol of a table has. -/
def missingSlots (symbols : List Symbol) : List String :=
  slotNames.filter fun name => !symbols.any fun s => Text.sameName s.name name

/-- A script with the given table, completed by the missing slots. -/
def ofParts (version : UInt8) (symbols : List Symbol) (code : Code) : Script where
  version
  symbols :=
    (symbols ++ (missingSlots symbols).zipIdx.map fun (name, i) =>
      slotSymbol name (symbols.length + i)).toArray
  code

variable (p : Script)

/-! ## Finding symbols -/

/-- The symbol at an index. -/
def symbolByIndex? (i : UInt32) : Option Symbol :=
  p.symbols[i.toNat]?

/-- The first symbol with a name, up to case. -/
def symbolByName? (name : String) : Option Symbol :=
  p.symbols.find? fun s => Text.sameName s.name name

/-- Whether a symbol owns the body at an address: constant functions, prototypes and instances do,
unless the host provides them or they are members. -/
def ownsBody (a : UInt32) (s : Symbol) : Bool :=
  s.address == a && !s.isExternal && !s.isMember && !s.isGenerated && s.isConst &&
    (s.type == .func || s.type == .proto || s.type == .inst)

/-- Whether a symbol may name the body at an address that no symbol owns. -/
def mayNameBody (a : UInt32) (s : Symbol) : Bool :=
  s.address == a && !s.isExternal && !s.isMember && !s.isGenerated && !s.isConst &&
    (s.type == .proto || s.type == .inst)

/-- The symbol whose body begins at an address. -/
def symbolByAddress? (a : UInt32) : Option Symbol :=
  (p.symbols.find? (ownsBody a)).or (p.symbols.find? (mayNameBody a))

/-- The symbol a key asks for. -/
def resolve? : SymbolKey → Option Symbol
  | .name s => p.symbolByName? s
  | .index i => p.symbolByIndex? i
  | .address a => p.symbolByAddress? a

/-- The symbol a key asks for; it is an error if there is none. -/
def find (key : SymbolKey) : Except Error Symbol :=
  match p.resolve? key with
  | some s => .ok s
  | none => .error (.symbolNotFound key)

/-- The name of the symbol at an index, or the index itself if there is none. -/
def nameOrIndex (i : UInt32) : String :=
  match p.symbolByIndex? i with
  | some s => s.name
  | none => (SymbolKey.index i).text

/-! ## Following links -/

/-- The symbols that belong to one that declares a count: they follow it in the table. -/
def following (s : Symbol) : List Symbol :=
  (p.symbols.extract (s.index.toNat + 1) (s.index.toNat + 1 + s.count.toNat)).toList

/-- The parameters of a function, in order of declaration. -/
def parametersOf (s : Symbol) : List Symbol :=
  if s.type = .func then p.following s else []

/-- The members of a class, in order of declaration. -/
def membersOf (s : Symbol) : List Symbol :=
  if s.type = .cls then p.following s else []

/-- The member of a class with a given unqualified name, up to case. -/
def findMember? (cls : Symbol) (member : String) : Option Symbol :=
  (p.membersOf cls).find? fun m => Text.sameName m.shortName member

/-- The first class met within a number of steps along the chain of parents. -/
def classWithin : Nat → Symbol → Option Symbol
  | 0, _ => none
  | n + 1, s =>
    if s.type = .cls then some s
    else s.parent.bind fun i => (p.symbolByIndex? i).bind (classWithin n)

/-- The class at the end of the chain of parents. A chain longer than the table runs in a circle,
so it is not followed further. -/
def classOf? (s : Symbol) : Option Symbol :=
  p.classWithin p.symbols.size s

/-- The index of the symbol bound to a slot. -/
def slotIndex (name : String) : UInt32 :=
  match p.symbolByName? name with
  | some s => s.index
  | none => 0xFFFFFFFF

/-! ## Code -/

/-- The instruction at an address. -/
def decode (a : UInt32) : Except Error Instruction :=
  Instruction.decode p.code a

/-- A body: the symbol that names it, and where it ends. -/
structure Body where
  symbol : Symbol
  stop : UInt32

/-- The symbols that their own address resolves to, by address. -/
def bodySymbols : List Symbol :=
  (p.symbols.toList.filter fun s =>
    (ownsBody s.address s || mayNameBody s.address s) &&
      (p.symbolByAddress? s.address).any (·.index == s.index)).mergeSort
    fun a b => a.address ≤ b.address

/-- Each symbol of a list with the address of the next one, the last with `stop`. -/
def withStops (stop : UInt32) : List Symbol → List Body
  | [] => []
  | [s] => [⟨s, stop⟩]
  | s :: t :: rest => ⟨s, t.address⟩ :: withStops stop (t :: rest)

/-- The bodies of a script by address. Each ends where the next begins, the last with the code. -/
def bodies : List Body :=
  withStops (UInt32.ofNat p.code.size) p.bodySymbols

/-- The instructions from `pc` up to `stop`, at most `n` of them. -/
def decodeWithin (stop : UInt32) : Nat → UInt32 → Except Error (List Instruction)
  | 0, _ => .ok []
  | n + 1, pc =>
    if pc < stop then do
      let i ← p.decode pc
      let rest ← decodeWithin stop n i.next
      return i :: rest
    else .ok []

/-- The instructions from `start` up to `stop`, each beginning where the one before it ends. The
code cannot hold more instructions than bytes. -/
def decodeRange (start stop : UInt32) : Except Error (List Instruction) :=
  p.decodeWithin stop (p.code.size + 1) start

/-- The name of the symbol at an index, or a mark that there is none. -/
def nameAt (i : UInt32) : String :=
  match p.symbolByIndex? i with
  | some s => s.name
  | none => "?"

/-- An instruction as text, with names for symbols and for the bodies that calls go to. -/
def describe (i : Instruction) : String :=
  match i.operand with
  | .symbol s => Instruction.line i.opcode (p.nameAt s)
  | .element s e =>
    Instruction.line i.opcode (p.nameAt s ++ "[" ++ toString e.toNat ++ "]")
  | .address target =>
    match p.symbolByAddress? target with
    | some s => if i.opcode = .bl then Instruction.line i.opcode s.name else i.text
    | none => i.text
  | _ => i.text

end Script

end ScriptMachine
