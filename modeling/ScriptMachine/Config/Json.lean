import ScriptMachine.Config.Basic
import ScriptMachine.Text.Utf8

/-!
# Reading a configuration

A configuration is read from JSON in one pass: an object with its three keys, each once and in any
order among others, or an array of the three values. The reader stops at the first fault, and tells
a text that ends too early from one that is wrong.
-/

namespace ScriptMachine

/-- Why a text is no configuration. -/
inductive ConfigFault where
  /-- There is no text. -/
  | missing
  /-- The text ends too early. -/
  | endOfText
  /-- The text is wrong. -/
  | invalid
  deriving DecidableEq

namespace Config

/-! ## Characters -/

/-- The byte of an ASCII character. -/
def ascii (c : Char) : UInt8 := UInt8.ofNat c.toNat

/-- Whether a byte is a decimal digit. -/
def isDigit (b : UInt8) : Bool := ascii '0' ≤ b && b ≤ ascii '9'

/-- A text without white space in front. -/
def dropSpace (bs : List UInt8) : List UInt8 :=
  bs.dropWhile fun b => b == 0x20 || b == 0x0A || b == 0x09 || b == 0x0D

/-- Takes a character, after white space. -/
def expect (c : Char) (bs : List UInt8) : Except ConfigFault (List UInt8) :=
  match dropSpace bs with
  | [] => .error .endOfText
  | b :: rest => if b == ascii c then .ok rest else .error .invalid

/-! ## Texts -/

/-- The value of four digits of base sixteen. -/
def hexWord? (a b c d : UInt8) : Option Nat :=
  Text.readHex? ([a, b, c, d].map fun b => Char.ofNat b.toNat)

/-- The character an escape of one letter stands for. -/
def simpleEscape? (b : UInt8) : Option UInt8 :=
  ([('\x22', 0x22), ('\\', 0x5C), ('/', 0x2F), ('b', 0x08), ('f', 0x0C), ('n', 0x0A), ('r', 0x0D),
    ('t', 0x09)].find? fun e => ascii e.1 == b).map (·.2)

/-- Puts bytes in front of a text that was read. -/
def prepend (bs : List UInt8) (r : Except ConfigFault (List UInt8 × List UInt8)) :
    Except ConfigFault (List UInt8 × List UInt8) :=
  r.map fun (text, rest) => (bs ++ text, rest)

/-- Reads a text behind its opening quote, up to the closing one. Surrogates come in pairs. -/
def readText : List UInt8 → Except ConfigFault (List UInt8 × List UInt8)
  | [] => .error .endOfText
  | b :: rest =>
    if b == ascii '\x22' then .ok ([], rest)
    else if b < 0x20 then .error .invalid
    else if b != ascii '\\' then prepend [b] (readText rest)
    else
      match rest with
      | [] => .error .endOfText
      | e :: rest =>
        if e != ascii 'u' then
          match simpleEscape? e with
          | some c => prepend [c] (readText rest)
          | none => .error .invalid
        else
          match rest with
          | a :: b :: c :: d :: rest =>
            match hexWord? a b c d with
            | none => .error .invalid
            | some u =>
              if 0xDC00 ≤ u ∧ u ≤ 0xDFFF then .error .invalid
              else if u < 0xD800 ∨ 0xDBFF < u then
                prepend (Text.Utf8.encode [Char.ofNat u]) (readText rest)
              else
                match rest with
                | [] => .error .endOfText
                | [x] => .error (if x == ascii '\\' then .endOfText else .invalid)
                | x :: y :: rest =>
                  if x != ascii '\\' || y != ascii 'u' then .error .invalid
                  else
                    match rest with
                    | a :: b :: c :: d :: rest =>
                      match hexWord? a b c d with
                      | none => .error .invalid
                      | some v =>
                        if v < 0xDC00 ∨ 0xDFFF < v then .error .invalid
                        else
                          let n := 0x10000 + 0x400 * (u - 0xD800) + (v - 0xDC00)
                          prepend (Text.Utf8.encode [Char.ofNat n]) (readText rest)
                    | _ => .error .endOfText
          | _ => .error .endOfText

/-- Passes over a text behind its opening quote. Surrogates may stand alone. -/
def skipText : List UInt8 → Except ConfigFault (List UInt8)
  | [] => .error .endOfText
  | b :: rest =>
    if b == ascii '\x22' then .ok rest
    else if b < 0x20 then .error .invalid
    else if b != ascii '\\' then skipText rest
    else
      match rest with
      | [] => .error .endOfText
      | e :: rest =>
        if e != ascii 'u' then
          if (simpleEscape? e).isSome then skipText rest else .error .invalid
        else
          match rest with
          | a :: b :: c :: d :: rest =>
            if (hexWord? a b c d).isSome then skipText rest else .error .invalid
          | _ => .error .endOfText

/-! ## Words and numbers -/

/-- Takes the rest of a word whose first letter is known. -/
def skipWord : List Char → List UInt8 → Except ConfigFault (List UInt8)
  | [], bs => .ok bs
  | _ :: _, [] => .error .endOfText
  | c :: cs, b :: bs => if b == ascii c then skipWord cs bs else .error .invalid

/-- Why a number with an exponent is no count, from the exponent on. -/
def exponentFault (bs : List UInt8) : ConfigFault :=
  let digits :=
    match bs with
    | b :: rest => if b == ascii '+' || b == ascii '-' then rest else bs
    | [] => []
  if digits.isEmpty then .endOfText else .invalid

/-- Why a number with a fraction is no count, from the fraction on. -/
def fractionFault (bs : List UInt8) : ConfigFault :=
  match bs.takeWhile isDigit, bs.dropWhile isDigit with
  | [], [] => .endOfText
  | [], _ => .invalid
  | _, b :: rest => if b == ascii 'e' || b == ascii 'E' then exponentFault rest else .invalid
  | _, [] => .invalid

/-- The value of decimal digits. -/
def digitsValue (ds : List UInt8) : Nat :=
  ds.foldl (fun n b => 10 * n + (b - ascii '0').toNat) 0

/-- Reads an integer without a sign that fits in 64 bits. -/
def readDigits (bs : List UInt8) : Except ConfigFault (Nat × List UInt8) :=
  let ds := bs.takeWhile isDigit
  match ds, bs.dropWhile isDigit with
  | [], [] => .error .endOfText
  | [], _ => .error .invalid
  | d :: more, rest =>
    if d == ascii '0' && !more.isEmpty then .error .invalid
    else
      match rest with
      | b :: behind =>
        if b == ascii '.' then .error (fractionFault behind)
        else if b == ascii 'e' || b == ascii 'E' then .error (exponentFault behind)
        else if digitsValue ds < UInt64.size then .ok (digitsValue ds, rest)
        else .error .invalid
      | [] => if digitsValue ds < UInt64.size then .ok (digitsValue ds, []) else .error .invalid

/-- The fault of a reader that should have failed. -/
def faultOf {α : Type} : Except ConfigFault α → ConfigFault
  | .ok _ => .invalid
  | .error e => e

/-- Why a value of another type than expected is refused: its own faults come first. -/
def mismatch : List UInt8 → ConfigFault
  | [] => .endOfText
  | b :: rest =>
    if b == ascii 'n' then faultOf (skipWord ['u', 'l', 'l'] rest)
    else if b == ascii 't' then faultOf (skipWord ['r', 'u', 'e'] rest)
    else if b == ascii 'f' then faultOf (skipWord ['a', 'l', 's', 'e'] rest)
    else if b == ascii '-' then faultOf (readDigits rest)
    else if isDigit b then faultOf (readDigits (b :: rest))
    else if b == ascii '\x22' then faultOf (readText rest)
    else .invalid

/-- Passes over a number in a value that is not looked at. -/
def skipNumber (bs : List UInt8) : Except ConfigFault (List UInt8) :=
  let exponent (rest : List UInt8) : Except ConfigFault (List UInt8) :=
    let digits :=
      match rest with
      | b :: more => if b == ascii '+' || b == ascii '-' then more else rest
      | [] => []
    if (digits.takeWhile isDigit).isEmpty then .error .invalid else .ok (digits.dropWhile isDigit)
  let tail (rest : List UInt8) : Except ConfigFault (List UInt8) :=
    match rest with
    | b :: more => if b == ascii 'e' || b == ascii 'E' then exponent more else .ok rest
    | [] => .ok []
  match bs.takeWhile isDigit, bs.dropWhile isDigit with
  | [], _ => .error .invalid
  | d :: more, rest =>
    if d == ascii '0' && !more.isEmpty then .error .invalid
    else
      match rest with
      | b :: behind =>
        if b == ascii '.' then
          if (behind.takeWhile isDigit).isEmpty then .error .invalid
          else tail (behind.dropWhile isDigit)
        else tail rest
      | [] => .ok []

/-! ## Values that are not looked at -/

/-- The brackets that are open around a place. -/
inductive Bracket where
  | list
  | object
  deriving DecidableEq

/-- The character that closes a bracket. -/
def Bracket.close : Bracket → Char
  | list => ']'
  | object => '\x7d'

/-- What comes next in a value that is passed over. -/
inductive Expectation where
  | value
  /-- An item of the innermost bracket. -/
  | item
  /-- An item of the innermost bracket, which was just opened, or its end. -/
  | first
  /-- What follows a complete value. -/
  | separator

/-- Passes over a value, in at most `n` moves. -/
def skipWithin : Nat → Expectation → List Bracket → List UInt8 →
    Except ConfigFault (List UInt8)
  | 0, _, _, _ => .error .invalid
  | _ + 1, .separator, [], bs => .ok bs
  | n + 1, .separator, k :: ks, bs =>
    match dropSpace bs with
    | [] => .error .endOfText
    | b :: rest =>
      if b == ascii ',' then skipWithin n .item (k :: ks) rest
      else if b == ascii k.close then skipWithin n .separator ks rest
      else .error .invalid
  | n + 1, .first, ks, bs =>
    match ks, dropSpace bs with
    | _, [] => .error .endOfText
    | k :: outer, b :: rest =>
      if b == ascii k.close then skipWithin n .separator outer rest
      else skipWithin n .item ks (b :: rest)
    | [], _ => .error .invalid
  | n + 1, .item, ks, bs =>
    match ks with
    | .object :: _ => do
      let key ← expect '\x22' bs
      let colon ← skipText key
      let rest ← expect ':' colon
      skipWithin n .value ks rest
    | _ => skipWithin n .value ks bs
  | n + 1, .value, ks, bs =>
    match dropSpace bs with
    | [] => .error .endOfText
    | b :: rest =>
      if b == ascii '[' then skipWithin n .first (.list :: ks) rest
      else if b == ascii '\x7b' then skipWithin n .first (.object :: ks) rest
      else do
        let rest ←
          if b == ascii 'n' then skipWord ['u', 'l', 'l'] rest
          else if b == ascii 't' then skipWord ['r', 'u', 'e'] rest
          else if b == ascii 'f' then skipWord ['a', 'l', 's', 'e'] rest
          else if b == ascii '-' then skipNumber rest
          else if isDigit b then skipNumber (b :: rest)
          else if b == ascii '\x22' then skipText rest
          else .error .invalid
        skipWithin n .separator ks rest

/-- Passes over a value. Every third move takes a character. -/
def skipValue (bs : List UInt8) : Except ConfigFault (List UInt8) :=
  skipWithin (3 * bs.length + 3) .value [] bs

/-! ## The entries -/

/-- Reads a set of flags. -/
def readFlags (bs : List UInt8) : Except ConfigFault (ExecutionFlags × List UInt8) :=
  match dropSpace bs with
  | [] => .error .endOfText
  | b :: rest =>
    if b == ascii '\x22' then do
      let (text, rest) ← readText rest
      match ExecutionFlags.table.read? (Text.Utf8.decode text) with
      | some bits => .ok (⟨bits⟩, rest)
      | none => .error .invalid
    else .error (mismatch (b :: rest))

/-- Reads a count. -/
def readCount (bs : List UInt8) : Except ConfigFault (Nat × List UInt8) :=
  match dropSpace bs with
  | [] => .error .endOfText
  | b :: rest =>
    if isDigit b then readDigits (b :: rest) else .error (mismatch (b :: rest))

/-- The entries of an object read so far. -/
structure Entries where
  flags : Option ExecutionFlags
  maxInstances : Option Nat
  maxCallDepth : Option Nat

/-- The configuration that entries make up, if none is missing. -/
def Entries.complete (e : Entries) : Except ConfigFault Config :=
  match e.flags, e.maxInstances, e.maxCallDepth with
  | some flags, some maxInstances, some maxCallDepth => .ok ⟨flags, maxInstances, maxCallDepth⟩
  | _, _, _ => .error .invalid

/-- Reads the value of a key. A key that is known must not come twice. -/
def readEntry (key : String) (e : Entries) (bs : List UInt8) :
    Except ConfigFault (Entries × List UInt8) :=
  if key = "flags" then
    if e.flags.isSome then .error .invalid
    else do
      let (flags, rest) ← (expect ':' bs) >>= readFlags
      return ({ e with flags := some flags }, rest)
  else if key = "max_instances" then
    if e.maxInstances.isSome then .error .invalid
    else do
      let (n, rest) ← (expect ':' bs) >>= readCount
      return ({ e with maxInstances := some n }, rest)
  else if key = "max_call_depth" then
    if e.maxCallDepth.isSome then .error .invalid
    else do
      let (n, rest) ← (expect ':' bs) >>= readCount
      return ({ e with maxCallDepth := some n }, rest)
  else do
    let rest ← (expect ':' bs) >>= skipValue
    return (e, rest)

/-- Reads the entries of an object up to its closing bracket, at most `n` of them. -/
def readEntries :
    Nat → Bool → Entries → List UInt8 → Except ConfigFault (Entries × List UInt8)
  | 0, _, _, _ => .error .invalid
  | n + 1, isFirst, e, bs =>
    match dropSpace bs with
    | [] => .error .endOfText
    | b :: rest =>
      if b == ascii '\x7d' then .ok (e, rest)
      else do
        let key ←
          if isFirst then expect '\x22' (b :: rest)
          else if b == ascii ',' then expect '\x22' rest
          else .error .invalid
        let (name, rest) ← readText key
        let (e, rest) ← readEntry (String.ofList (Text.Utf8.decode name)) e rest
        readEntries n false e rest

/-- Goes on to the next item of an array. -/
def nextItem (bs : List UInt8) : Except ConfigFault (List UInt8) := do
  let rest ← expect ',' bs
  match dropSpace rest with
  | [] => .error .endOfText
  | b :: _ => if b == ascii ']' then .error .invalid else .ok rest

/-- Reads the three values of an array. -/
def readItems (bs : List UInt8) : Except ConfigFault (Config × List UInt8) := do
  let (flags, rest) ← readFlags bs
  let (maxInstances, rest) ← nextItem rest >>= readCount
  let (maxCallDepth, rest) ← nextItem rest >>= readCount
  let rest ← expect ']' rest
  return (⟨flags, maxInstances, maxCallDepth⟩, rest)

/-- Reads a configuration in front of a text. -/
def readValue (bs : List UInt8) : Except ConfigFault (Config × List UInt8) :=
  match dropSpace bs with
  | [] => .error .endOfText
  | b :: rest =>
    if b == ascii '\x7b' then do
      let (e, rest) ← readEntries (rest.length + 1) true ⟨none, none, none⟩ rest
      let c ← e.complete
      return (c, rest)
    else if b == ascii '[' then readItems rest
    else .error (mismatch (b :: rest))

/-- The configuration a text stands for. -/
def ofJson (text : String) : Except ConfigFault Config := do
  let (c, rest) ← readValue (Text.Utf8.encode text.toList)
  if (dropSpace rest).isEmpty then return c else .error .invalid

/-- The configuration in a file, given by its text if it exists. -/
def ofFile : Option String → Except ConfigFault Config
  | none => .error .missing
  | some text => ofJson text

/-- The configuration in a file, and the text of the file afterwards: a file that does not exist is
written with the default. -/
def ofFileOrDefault : Option String → Except ConfigFault (Config × String)
  | none => .ok (default, default.prettyText)
  | some text => (ofJson text).map fun c => (c, text)

end Config

end ScriptMachine
