import ScriptMachine.Script.Basic
import ScriptMachine.Script.Reader

/-!
# Loading scripts

A compiled script is a version, a table of symbols in two orders, and bytecode. The order by name is
passed over; what follows the bytecode is not looked at.
-/

namespace ScriptMachine

open Reader (word signedWord line times)

namespace Symbol

/-- What a symbol stores behind its properties. -/
structure Payload where
  address : UInt32
  classOffset : Int32
  data : SymbolData

/-- The payload of a symbol that stores nothing. -/
def Payload.none : Payload := ⟨0, 0, .none⟩

/-- Reads the payload of a symbol that is no member. A variable that holds a function stores the
function in the place of an address. -/
def readPayload (enc : Text.Encoding) (type : DataType) (flags : SymbolFlags) (count : UInt32) :
    Reader Payload :=
  match type with
  | .float => do
    let values ← times (Single.mk <$> word .floatValue) count.toNat
    return { Payload.none with data := .floats values }
  | .int => do
    let values ← times (signedWord .intValue) count.toNat
    return { Payload.none with data := .ints values }
  | .string => do
    let values ← times (line enc .stringValue) count.toNat
    return { Payload.none with data := .strings values }
  | .cls => do
    let offset ← signedWord .classOffset
    return { Payload.none with classOffset := offset }
  | .func => do
    let address ← word .functionAddress
    let data := if flags.contains .const then SymbolData.none else .ints [address.toInt32]
    return { Payload.none with address, data }
  | .proto | .inst => do
    let address ← word .address
    return { Payload.none with address }
  | .void => pure .none

/-- Reads where a symbol is declared. -/
def readSource : Reader SourceRange := do
  let file ← word .fileIndex
  let lineStart ← word .lineStart
  let lineCount ← word .lineCount
  let charStart ← word .charStart
  let charCount ← word .charCount
  return ⟨file, lineStart, lineCount, charStart, charCount⟩

/-- The index a stored parent stands for; a negative number stands for none. -/
def parentOfWord (w : UInt32) : Option UInt32 :=
  if w < 0x80000000 then some w else none

/-- Reads the symbol with a given index. -/
def read (enc : Text.Encoding) (index : UInt32) : Reader Symbol := do
  let named ← word .nameFlag
  let name ← if named = 0 then pure "" else line enc .name
  let extra ← word .extra
  let properties ← word .properties
  let count := properties &&& 0xFFF
  let typeCode := (properties >>> 12) &&& 0xF
  let flags : SymbolFlags := ⟨(properties >>> 16) &&& SymbolFlags.stored⟩
  match DataType.ofCode? typeCode with
  | none => throw (.unknownType index name typeCode)
  | some type =>
    let source ← readSource
    let payload ←
      if flags.contains .member then pure Payload.none else readPayload enc type flags count
    let parent ← word .parent
    return {
      name, index, type, flags, count, extra
      address := payload.address
      classOffset := payload.classOffset
      parent := parentOfWord parent
      source
      data := payload.data }

/-- Reads `n` symbols, the first with a given index. -/
def readTable (enc : Text.Encoding) : Nat → UInt32 → Reader (List Symbol)
  | 0, _ => pure []
  | n + 1, index => do
    let s ← read enc index
    let rest ← readTable enc n (index + 1)
    return s :: rest

end Symbol

namespace Script

/-- Reads a script. -/
def read (enc : Text.Encoding) : Reader Script := do
  let version ← Reader.byte .version
  let count ← word .symbolCount
  Reader.skip (4 * count.toNat) .sortTable
  let symbols ← Symbol.readTable enc count.toNat 0
  let codeSize ← word .codeSize
  let code ← Reader.bytes codeSize.toNat .code
  return ofParts version symbols code.toArray

/-- Where a failed read is reported. The reader has used up the bytes by then, except that a sort
table that is too long is noticed before any of it is read. -/
def faultOffset (length : Nat) : Field → Nat
  | .sortTable => 5
  | _ => length

/-- The script that a list of bytes stores. -/
def load (enc : Text.Encoding) (bytes : List UInt8) : Except Error Script :=
  match (read enc).run bytes with
  | .ok (script, _) => .ok script
  | .error (.endOfBytes what) => .error (.load (.truncated what (faultOffset bytes.length what)))
  | .error (.unknownType index name type) => .error (.load (.unknownType index name type))

end Script

end ScriptMachine
