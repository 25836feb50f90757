/-!
# Digits

Numbers as lists of digits, read and written, and texts padded to a width.
-/

namespace ScriptMachine.Text

/-- The digits of `n` in base sixteen, in lower case. -/
def hexDigits (n : Nat) : List Char :=
  Nat.toDigits 16 n

/-- The list `cs` with copies of `fill` in front, up to `width` characters. -/
def padLeft (fill : Char) (width : Nat) (cs : List Char) : List Char :=
  List.replicate (width - cs.length) fill ++ cs

/-- The text `s` with spaces behind it, up to `width` characters. -/
def padRight (width : Nat) (s : String) : String :=
  s ++ String.ofList (List.replicate (width - s.length) ' ')

/-- `n` in base sixteen, lower case, without leading zeros. -/
def hex (n : Nat) : String :=
  String.ofList (hexDigits n)

/-- `n` in base sixteen, upper case, without leading zeros. -/
def hexUpper (n : Nat) : String :=
  String.ofList ((hexDigits n).map Char.toUpper)

/-- `n` in base sixteen, lower case, with zeros in front up to `width` digits. -/
def hexPadded (width n : Nat) : String :=
  String.ofList (padLeft '0' width (hexDigits n))

/-- `n` in base sixteen, upper case, with zeros in front up to `width` digits. -/
def hexUpperPadded (width n : Nat) : String :=
  String.ofList (padLeft '0' width ((hexDigits n).map Char.toUpper))

/-- `n` in base ten with zeros in front up to `width` digits. -/
def decimalPadded (width n : Nat) : String :=
  String.ofList (padLeft '0' width (Nat.toDigits 10 n))

/-- The value of one digit of base sixteen, in either case. -/
def hexDigit? (c : Char) : Option Nat :=
  if '0' ≤ c ∧ c ≤ '9' then some (c.toNat - '0'.toNat)
  else if 'a' ≤ c ∧ c ≤ 'f' then some (c.toNat - 'a'.toNat + 10)
  else if 'A' ≤ c ∧ c ≤ 'F' then some (c.toNat - 'A'.toNat + 10)
  else none

/-- The number that a list of digits below `base` continues, from the value read so far. -/
def readDigitsFrom (base n : Nat) : List Char → Option Nat
  | [] => some n
  | c :: cs =>
    (hexDigit? c).bind fun d => if d < base then readDigitsFrom base (base * n + d) cs else none

/-- The number that a nonempty list of digits below `base` writes, for a base up to sixteen. -/
def readDigits? (base : Nat) : List Char → Option Nat
  | [] => none
  | cs => readDigitsFrom base 0 cs

/-- The number that a nonempty list of base-sixteen digits writes. -/
def readHex? (cs : List Char) : Option Nat :=
  readDigits? 16 cs

end ScriptMachine.Text
