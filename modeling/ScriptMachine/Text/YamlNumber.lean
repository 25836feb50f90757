import ScriptMachine.Text.Digits

/-!
# Numbers in YAML

The texts that read as a number in YAML: integers behind a mark of their base, and decimal numbers
with or without a fraction and an exponent. A number that its type cannot hold reads as a text: an
integer behind a mark has 128 bits, and a decimal number has to be finite in binary64.
-/

namespace ScriptMachine.Text.YamlNumber

/-- A list of characters without a sign in front. -/
def unsigned : List Char → List Char
  | '+' :: cs | '-' :: cs => cs
  | cs => cs

/-! ## Integers behind a mark -/

/-- The base that a letter behind a zero marks. -/
def markedBase? : Char → Option Nat
  | 'x' => some 16
  | 'o' => some 8
  | 'b' => some 2
  | _ => none

/-- The value of an integer behind a mark of its base. -/
def marked? : List Char → Option Nat
  | '0' :: mark :: digits => (markedBase? mark).bind fun base => readDigits? base digits
  | _ => none

/-- Whether a list is an integer behind a mark of its base. A negative one has to fit the signed
numbers of 128 bits and any other the unsigned ones. -/
def isMarkedInteger (cs : List Char) : Bool :=
  match cs with
  | '-' :: _ => (marked? (unsigned cs)).any (· ≤ Nat.pow 2 127)
  | _ => (marked? (unsigned cs)).any (· < Nat.pow 2 128)

/-! ## Decimal numbers -/

/-- The decimal number `significand * 10 ^ exponent`. -/
structure Decimal where
  /-- All digits of the number, read as an integer. -/
  significand : Nat
  /-- The power of ten that the last digit counts. -/
  exponent : Int

/-- The value of an exponent; an absent one is zero. -/
def exponent? : List Char → Option Int
  | [] => some 0
  | c :: cs =>
    if c == 'e' || c == 'E' then
      (readDigits? 10 (unsigned cs)).map fun (n : Nat) => if cs.head? == some '-' then -n else n
    else none

/-- The decimal number that a list without a sign writes. A point needs digits on one side only. -/
def decimal? (cs : List Char) : Option Decimal :=
  let whole := cs.takeWhile Char.isDigit
  let rest := cs.dropWhile Char.isDigit
  let fraction := if rest.head? == some '.' then rest.tail.takeWhile Char.isDigit else []
  let rest := if rest.head? == some '.' then rest.tail.dropWhile Char.isDigit else rest
  (readDigits? 10 (whole ++ fraction)).bind fun n =>
    (exponent? rest).map fun e => ⟨n, e - fraction.length⟩

/-- The least number that rounds to infinity in binary64: it lies halfway between the largest
finite number and the next power of two. -/
def overflowBound : Nat :=
  Nat.pow 2 1024 - Nat.pow 2 970

/-- Whether a decimal number is finite in binary64. The bound has 309 digits, so the number of
digits alone decides unless it is the same. -/
def Decimal.isFinite (d : Decimal) : Bool :=
  let digits : Int := (Nat.toDigits 10 d.significand).length + d.exponent
  d.significand == 0 || digits < 309 ||
    (digits == 309 &&
      d.significand * Nat.pow 10 d.exponent.toNat < overflowBound * Nat.pow 10 (-d.exponent).toNat)

/-- Whether a list without a sign is a zero with further digits behind it. Such a list reads as a
text, but looks like a number. -/
def isZeroLed : List Char → Bool
  | '0' :: cs => !cs.isEmpty && cs.all Char.isDigit
  | _ => false

/-- Whether a list reads as a number in some base, or looks like one. -/
def isNumber (cs : List Char) : Bool :=
  isMarkedInteger cs || isZeroLed (unsigned cs) || (decimal? (unsigned cs)).any (·.isFinite)

end ScriptMachine.Text.YamlNumber
