import ScriptMachine.Binary.LittleEndian
import ScriptMachine.Error
import ScriptMachine.Text.Encoding

/-!
# Reading bytes

A reader takes bytes off the front of a list. It fails only where the bytes end too early or where
what it has read makes no sense, and the failure names the part of the script it was reading.
-/

namespace ScriptMachine

/-- Why a reader stopped. -/
inductive ReadFault where
  /-- The bytes end within a part. -/
  | endOfBytes (what : Field)
  /-- A symbol has a type with no meaning. -/
  | unknownType (index : UInt32) (name : String) (type : UInt32)
  deriving DecidableEq

/-- A computation that takes bytes off the front of a list. -/
abbrev Reader := StateT (List UInt8) (Except ReadFault)

namespace Reader

/-- Takes one byte. -/
def byte (what : Field) : Reader UInt8
  | b :: rest => .ok (b, rest)
  | [] => .error (.endOfBytes what)

/-- Takes a word of four bytes. -/
def word (what : Field) : Reader UInt32
  | a :: b :: c :: d :: rest => .ok (LittleEndian.decode a b c d, rest)
  | _ => .error (.endOfBytes what)

/-- Takes a signed word of four bytes. -/
def signedWord (what : Field) : Reader Int32 :=
  UInt32.toInt32 <$> word what

/-- Takes `n` bytes. -/
def bytes (n : Nat) (what : Field) : Reader (List UInt8) := fun bs =>
  if n ≤ bs.length then .ok (bs.take n, bs.drop n) else .error (.endOfBytes what)

/-- Passes over `n` bytes. -/
def skip (n : Nat) (what : Field) : Reader Unit :=
  (fun _ => ()) <$> bytes n what

/-- A list of bytes cut at its first line feed, which is in neither part. -/
def cutLine : List UInt8 → Option (List UInt8 × List UInt8)
  | [] => none
  | b :: bs =>
    if b = 0x0A then some ([], bs)
    else (cutLine bs).map fun (line, rest) => (b :: line, rest)

/-- Takes a line of text. -/
def line (enc : Text.Encoding) (what : Field) : Reader String := fun bs =>
  match cutLine bs with
  | some (raw, rest) => .ok (String.ofList (enc.decode raw), rest)
  | none => .error (.endOfBytes what)

/-- Runs a reader `n` times. -/
def times {α : Type} (r : Reader α) : Nat → Reader (List α)
  | 0 => pure []
  | n + 1 => do
    let a ← r
    let rest ← times r n
    return a :: rest

end Reader

end ScriptMachine
