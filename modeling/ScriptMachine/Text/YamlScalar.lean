import ScriptMachine.Text.YamlNumber

/-!
# YAML scalars

A text is written plain where it reads back as the same text. It goes between single quotes if it
would read as something else (a number, a truth value, nothing), if a character in it has a meaning
in YAML, or if it has line separators. It goes between double quotes if a character has to be
escaped.
-/

namespace ScriptMachine.Text.YamlScalar

/-! ## Texts that read as something else -/

/-- The words that read as nothing, as a truth value or as a number that is not finite. -/
def reservedWords : List String := [
  "", "~", "null", "Null", "NULL", "true", "True", "TRUE", "false", "False", "FALSE",
  ".inf", ".Inf", ".INF", "+.inf", "+.Inf", "+.INF", "-.inf", "-.Inf", "-.INF",
  ".nan", ".NaN", ".NAN"]

/-- Whether a text reads as a number, a truth value or nothing. -/
def readsOtherwise (cs : List Char) : Bool :=
  reservedWords.contains (String.ofList cs) || YamlNumber.isNumber cs

/-! ## Characters with a meaning -/

/-- The characters that end a line. -/
def isBreak (c : Char) : Bool :=
  c == '\n' || c == '\r' || c.toNat == 0x85 || c.toNat == 0x2028 || c.toNat == 0x2029

/-- Whether what follows a character is white space or the end of the text. -/
def isSpaceOrEnd : List Char → Bool
  | [] => true
  | c :: _ => c == ' ' || c == '\t' || c == '\x00' || isBreak c

/-- Whether a character may stand in a text without an escape. -/
def isPrintable (c : Char) : Bool :=
  let n := c.toNat
  (0x20 ≤ n && n ≤ 0x7E) || (0xA0 ≤ n && n ≤ 0xFFFD && n != 0xFEFF) || 0x10000 ≤ n

/-- The characters with a meaning at the start of a text. -/
def leadingMarks : List Char :=
  ['#', ',', '[', ']', '\x7b', '\x7d', '&', '*', '!', '|', '>', '\x27', '\x22', '%', '@', '\x60']

/-- Whether a text starts with a mark that has a meaning there. -/
def startsWithMark : List Char → Bool
  | '-' :: '-' :: '-' :: _ | '.' :: '.' :: '.' :: _ => true
  | c :: cs =>
    leadingMarks.contains c || ((c == '?' || c == ':' || c == '-') && isSpaceOrEnd cs)
  | [] => false

/-- Whether a mark inside a text, behind a given character, has a meaning: a colon before white
space, or a number sign behind it. -/
def containsMark (before : Char) : List Char → Bool
  | [] => false
  | c :: cs =>
    (c == ':' && isSpaceOrEnd cs) || (c == '#' && isSpaceOrEnd [before]) || containsMark c cs

/-- Whether a text can stand without quotes as far as its characters go. -/
def isPlain (cs : List Char) : Bool :=
  match cs with
  | [] => true
  | c :: rest =>
    !startsWithMark cs && !containsMark c rest && c != ' ' && cs.getLast? != some ' '

/-- Whether a space stands next to the end of a line, where only an escape keeps it. -/
def hasSpaceAtBreak : List Char → Bool
  | c :: d :: cs => (c == ' ' && isBreak d) || (isBreak c && d == ' ') || hasSpaceAtBreak (d :: cs)
  | _ => false

/-! ## Writing -/

/-- The inside of a text between single quotes: a quote is written twice, and what follows the end
of a line, if only the closing quote, starts behind `indent` spaces. -/
def singleQuotedBody (indent : Nat) (atLineStart : Bool) : List Char → List Char
  | [] => if atLineStart then List.replicate indent ' ' else []
  | c :: cs =>
    if isBreak c then c :: singleQuotedBody indent true cs
    else
      (if atLineStart then List.replicate indent ' ' else []) ++
        (if c == '\x27' then [c, c] else [c]) ++ singleQuotedBody indent false cs

/-- A text between single quotes. -/
def singleQuoted (indent : Nat) (cs : List Char) : List Char :=
  ['\x27'] ++ singleQuotedBody indent false cs ++ ['\x27']

/-- A code in base sixteen, upper case, with a given number of digits. -/
def codeDigits (width n : Nat) : List Char :=
  padLeft '0' width ((hexDigits n).map Char.toUpper)

/-- A character between double quotes. -/
def escape (c : Char) : List Char :=
  let n := c.toNat
  match n with
  | 0x00 => ['\\', '0']
  | 0x07 => ['\\', 'a']
  | 0x08 => ['\\', 'b']
  | 0x09 => ['\\', 't']
  | 0x0A => ['\\', 'n']
  | 0x0B => ['\\', 'v']
  | 0x0C => ['\\', 'f']
  | 0x0D => ['\\', 'r']
  | 0x1B => ['\\', 'e']
  | 0x22 => ['\\', c]
  | 0x5C => ['\\', c]
  | 0x85 => ['\\', 'N']
  | 0x2028 => ['\\', 'L']
  | 0x2029 => ['\\', 'P']
  | _ =>
    if isPrintable c then [c]
    else if n ≤ 0xFF then ['\\', 'x'] ++ codeDigits 2 n
    else if n ≤ 0xFFFF then ['\\', 'u'] ++ codeDigits 4 n
    else ['\\', 'U'] ++ codeDigits 8 n

/-- A text between double quotes. -/
def doubleQuoted (cs : List Char) : List Char :=
  ['\x22'] ++ cs.flatMap escape ++ ['\x22']

/-- A text as a scalar whose further lines start behind `indent` spaces. -/
def render (indent : Nat) (s : String) : String :=
  let cs := s.toList
  String.ofList
    (if cs.any (!isPrintable ·) || hasSpaceAtBreak cs then doubleQuoted cs
    else if cs.any isBreak || readsOtherwise cs || !isPlain cs then singleQuoted indent cs
    else cs)

end ScriptMachine.Text.YamlScalar
