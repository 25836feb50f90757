/-!
# Sets of characters

A set of characters as the ranges of their codes.
-/

namespace ScriptMachine.Text

/-- A set of characters: ranges of codes with both ends in them. -/
abbrev CharSet := List (Nat × Nat)

/-- Whether a character is in a set. -/
def CharSet.contains (set : CharSet) (c : Char) : Bool :=
  set.any fun (first, last) => first ≤ c.toNat && c.toNat ≤ last

end ScriptMachine.Text
