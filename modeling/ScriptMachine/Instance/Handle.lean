import ScriptMachine.Instance.Tag

/-!
# Instance handles

A handle refers to an instance without owning it. It names a slot and the generation of the slot it
was issued for, so that a handle to an instance that was freed is recognised while the slot is used
again. Both are numbers of 32 bits: a slot that was freed 2 ^ 32 times is in the first generation
once more, and handles to its first instances are good again.
-/

namespace ScriptMachine

/-- A reference to an instance. -/
structure Handle where
  slot : UInt32
  generation : UInt32
  /-- The index of the symbol that defines the instance. -/
  symbol : UInt32
  /-- The tag the instance was allocated under. -/
  tag : InstanceTag
  deriving DecidableEq

end ScriptMachine
