/-!
# Little-endian words

A 32-bit word is stored as four bytes, the lowest first. Reading takes the bytes written back to
the word, and every four bytes are the stored form of the word they read as.
-/

namespace ScriptMachine.LittleEndian

/-- The four bytes of a word, lowest first. -/
def encode (w : UInt32) : List UInt8 :=
  [w.toUInt8, (w >>> 8).toUInt8, (w >>> 16).toUInt8, (w >>> 24).toUInt8]

/-- The word stored in four bytes, lowest first. -/
def decode (a b c d : UInt8) : UInt32 :=
  a.toUInt32 ||| (b.toUInt32 <<< 8) ||| (c.toUInt32 <<< 16) ||| (d.toUInt32 <<< 24)

@[simp] theorem length_encode (w : UInt32) : (encode w).length = 4 := rfl

end ScriptMachine.LittleEndian
