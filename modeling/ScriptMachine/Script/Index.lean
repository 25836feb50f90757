import ScriptMachine.Script.Basic

/-!
# The index of a script

Symbols are looked up in two indexes that the loader builds once: one from names in upper case, the
other from addresses of bodies, each to the index of a symbol. The first symbol under a key stays.
The slots that no symbol has the name of are added to the table while the names are entered.
-/

namespace ScriptMachine.Script

/-- The entries of an index: keys that differ, with the indices of symbols. -/
abbrev Entries (κ : Type) := List (κ × UInt32)

namespace Entries

variable {κ : Type} [BEq κ]

/-- The entries with one more, unless there is one under the same key. -/
def enter (es : Entries κ) (k : κ) (i : UInt32) : Entries κ :=
  if (es.lookup k).isSome then es else es ++ [(k, i)]

/-- The entries with those of some symbols, one after the other. -/
def enterAll (key : Symbol → κ) (es : Entries κ) (symbols : List Symbol) : Entries κ :=
  symbols.foldl (fun es s => es.enter (key s) s.index) es

end Entries

/-- A symbol table with its indexes. -/
structure Index where
  symbols : List Symbol
  names : Entries String
  addresses : Entries UInt32

namespace Index

/-! ## Building the index -/

/-- The index of a table by names. -/
def ofNames (symbols : List Symbol) : Index where
  symbols
  names := Entries.enterAll (fun s => Text.upperName s.name) [] symbols
  addresses := []

/-- The index with a slot, unless there is a symbol with its name. -/
def addSlot (x : Index) (name : String) : Index :=
  if (x.names.lookup name).isSome then x
  else { x with
    symbols := x.symbols ++ [slotSymbol name x.symbols.length]
    names := x.names ++ [(name, UInt32.ofNat x.symbols.length)] }

/-- Whether the address of a symbol may be that of a body. -/
def bearsCode (s : Symbol) : Bool :=
  !s.isExternal && !s.isMember && !s.isGenerated

/-- Whether a symbol claims its address. -/
def claims (s : Symbol) : Bool :=
  bearsCode s && s.isConst && (s.type == .func || s.type == .proto || s.type == .inst)

/-- Whether a symbol fills its address if nothing claims it. -/
def fills (s : Symbol) : Bool :=
  bearsCode s && !s.isConst && (s.type == .proto || s.type == .inst)

/-- The index with the addresses of bodies: first those that are claimed, then those that are only
filled. -/
def addAddresses (x : Index) : Index :=
  { x with
    addresses :=
      (x.addresses.enterAll (·.address) (x.symbols.filter claims)).enterAll (·.address)
        (x.symbols.filter fills) }

/-- The index of the symbols that are read, with the slots that are missing among them. -/
def ofSymbols (symbols : List Symbol) : Index :=
  (slotNames.foldl addSlot (ofNames symbols)).addAddresses

variable (x : Index)

/-! ## Looking up -/

/-- The symbol at an index. -/
def symbolByIndex? (i : UInt32) : Option Symbol :=
  x.symbols[i.toNat]?

/-- The index under a name, as it is spelled or else in upper case. -/
def indexOf? (name : String) : Option UInt32 :=
  match x.names.lookup name with
  | some i => some i
  | none => x.names.lookup (Text.upperName name)

/-- The symbol under a name. -/
def symbolByName? (name : String) : Option Symbol :=
  (x.indexOf? name).bind x.symbolByIndex?

/-- The symbol under an address. -/
def symbolByAddress? (a : UInt32) : Option Symbol :=
  (x.addresses.lookup a).bind x.symbolByIndex?

/-- The bodies of the symbols that some entries lead to, by address. Each ends where the next
begins, the last at `stop`. -/
def ranges (stop : UInt32) (es : Entries UInt32) : List Body :=
  withStops stop
    ((es.filterMap fun e => x.symbolByIndex? e.2).mergeSort fun a b => a.address ≤ b.address)

end Index

/-- The index that the loader builds: from the symbols it reads, which are those it does not add. -/
def index (p : Script) : Index :=
  .ofSymbols (p.symbols.toList.filter fun s => !s.isGenerated)

end ScriptMachine.Script
