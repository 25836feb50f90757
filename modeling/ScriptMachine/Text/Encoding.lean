import ScriptMachine.Text.CodePage
import ScriptMachine.Text.Name
import ScriptMachine.Text.Utf16

/-!
# Encodings

The encodings scripts come in. A byte order mark at the start of a text overrides the encoding it
is read with and is not part of the text. Texts in UTF-16 are only ever read: writing for such a
script produces UTF-8.
-/

namespace ScriptMachine.Text

/-- An encoding of texts as bytes. These are the ones that scripts are known to come in. The other
encodings that texts are labelled with are left out: the remaining pages of one byte a character
(code page 866, the families ISO-8859 and KOI8, windows-874, windows-1253 to windows-1258 and the
two of old desktops, macintosh and x-mac-cyrillic), those of several bytes a character (GBK,
gb18030, Big5, EUC-JP, ISO-2022-JP, Shift_JIS and EUC-KR), and x-user-defined and replacement. -/
inductive Encoding where
  | page (p : CodePage)
  | utf8
  | utf16 (order : ByteOrder)
  deriving DecidableEq

namespace Encoding

/-- The page of Western Windows, which scripts use unless told otherwise. -/
def windows1252 : Encoding := .page .western

/-- Reads bytes in an encoding, with no regard to byte order marks. -/
def decodeBody : Encoding → List UInt8 → List Char
  | page p, bytes => p.decode bytes
  | utf8, bytes => Utf8.decode bytes
  | utf16 order, bytes => Utf16.decode order bytes

/-- Reads bytes in an encoding, or in the one a byte order mark in front of them names. -/
def decode (e : Encoding) : List UInt8 → List Char
  | 0xEF :: 0xBB :: 0xBF :: rest => utf8.decodeBody rest
  | 0xFF :: 0xFE :: rest => (utf16 .little).decodeBody rest
  | 0xFE :: 0xFF :: rest => (utf16 .big).decodeBody rest
  | bytes => e.decodeBody bytes

/-- The bytes of a text. -/
def encode : Encoding → List Char → List UInt8
  | page p, cs => p.encode cs
  | utf8, cs | utf16 _, cs => Utf8.encode cs

/-- The names an encoding is known under. -/
def labels : List (Encoding × List String) := [
  (page .western,
    ["windows-1252", "cp1252", "x-cp1252", "ascii", "us-ascii", "ansi_x3.4-1968", "cp819", "ibm819",
      "csisolatin1", "iso-8859-1", "iso-ir-100", "iso8859-1", "iso88591", "iso_8859-1",
      "iso_8859-1:1987", "l1", "latin1"]),
  (page .centralEuropean, ["windows-1250", "cp1250", "x-cp1250"]),
  (page .cyrillic, ["windows-1251", "cp1251", "x-cp1251"]),
  (utf8, ["utf-8", "utf8", "unicode-1-1-utf-8", "unicode11utf8", "unicode20utf8",
      "x-unicode20utf8"]),
  (utf16 .little, ["utf-16le", "utf-16", "csunicode", "iso-10646-ucs-2", "ucs-2", "unicode",
      "unicodefeff"]),
  (utf16 .big, ["utf-16be", "unicodefffe"])]

/-- Whether a character is ASCII white space. -/
def isAsciiSpace (c : Char) : Bool :=
  c == ' ' || c == '\t' || c == '\n' || c == '\x0C' || c == '\r'

/-- The encoding with a given label, up to case and white space around it. -/
def ofLabel? (label : String) : Option Encoding :=
  let cs := ((label.toList.dropWhile isAsciiSpace).reverse.dropWhile isAsciiSpace).reverse
  (labels.find? fun entry => entry.2.any (sameName (String.ofList cs))).map (·.1)

end Encoding

end ScriptMachine.Text
