import ScriptMachine.Listing.Basic
import ScriptMachine.Text.YamlScalar

/-!
# Listings in YAML

A listing as a YAML document in block style. The lines of a sequence start where its key starts, and
a sequence without items is written in flow style.
-/

namespace ScriptMachine

namespace Yaml

/-- The lines of a key with a scalar. -/
def entry (key value : String) : List String :=
  [key ++ ": " ++ value]

/-- The lines of an item of a sequence. -/
def item : List String → List String
  | [] => []
  | first :: rest => ("- " ++ first) :: rest.map ("  " ++ ·)

/-- The lines of a key with a sequence, whose items are given by their lines. -/
def sequence (key : String) : List (List String) → List String
  | [] => [key ++ ": []"]
  | items => (key ++ ":") :: items.flatMap item

/-- A text in a mapping whose keys stand in column `column`; its further lines start two columns
behind the keys. -/
def text (column : Nat) (s : String) : String :=
  Text.YamlScalar.render (column + 2) s

/-- The lines of a key in column `column` with a sequence of texts. -/
def texts (column : Nat) (key : String) (values : List String) : List String :=
  sequence key (values.map fun s => [text column s])

/-- The column of the keys of a symbol or a body. -/
def entryColumn : Nat := 2

/-- The column of the keys of an instruction. -/
def instructionColumn : Nat := 4

end Yaml

/-- The lines of a symbol. -/
def SymbolEntry.yamlLines (s : SymbolEntry) : List String :=
  Yaml.entry "index" (toString s.index.toNat) ++
  Yaml.entry "name" (Yaml.text Yaml.entryColumn s.name) ++
  Yaml.entry "kind" (Yaml.text Yaml.entryColumn s.type.name) ++
  Yaml.texts Yaml.entryColumn "flags" s.flags ++
  Yaml.entry "count" (toString s.count.toNat) ++
  (s.parent.elim [] fun name => Yaml.entry "parent" (Yaml.text Yaml.entryColumn name)) ++
  (s.address.elim [] fun a => Yaml.entry "address" (toString a.toNat))

/-- The lines of an instruction. -/
def ListedInstruction.yamlLines (i : ListedInstruction) : List String :=
  Yaml.entry "address" (toString i.address.toNat) ++
  Yaml.entry "mnemonic" (Yaml.text Yaml.instructionColumn i.mnemonic) ++
  Yaml.texts Yaml.instructionColumn "operands" i.operands

/-- The lines of a body. -/
def ListedBody.yamlLines (b : ListedBody) : List String :=
  Yaml.entry "name" (Yaml.text Yaml.entryColumn b.name) ++
  Yaml.entry "address" (toString b.address.toNat) ++
  Yaml.sequence "insts" (b.instructions.map (·.yamlLines))

/-- The YAML document of a listing. -/
def Listing.yaml (l : Listing) : String :=
  let lines :=
    Yaml.entry "version" (toString l.version.toNat) ++
    Yaml.sequence "symbols" (l.symbols.map (·.yamlLines)) ++
    Yaml.sequence "functions" (l.bodies.map (·.yamlLines))
  String.join (lines.map (· ++ "\n"))

end ScriptMachine
