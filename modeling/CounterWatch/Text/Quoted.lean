import CounterWatch.Text.Printable
import CounterWatch.Text.Numeral
import CounterWatch.Path

/-!
# Text/Quoted — texts between double quotes

A quoted text shows every character so that it can be told apart: the quote, the backslash and the
common control characters by a backslash and a letter, everything else that is not printable by its
code point in braces.  A path is quoted like its text, and bytes in it that are no text are written
as two upper-case hexadecimal digits each.
-/

namespace CounterWatch.Quoted

/-- The character that ends a quotation. -/
def doubleQuote : Char := Char.ofNat 0x22

/-- The escape for an opening brace and the hexadecimal digits of a code point. -/
def codePoint (c : Char) : String := "\\u\x7b" ++ Text.hex c.toNat ++ "\x7d"

/-- A character as it is written between quotes. -/
def escape (c : Char) : String :=
  if c.toNat = 0 then "\\0"
  else if c = '\t' then "\\t"
  else if c = '\r' then "\\r"
  else if c = '\n' then "\\n"
  else if c = '\\' then "\\\\"
  else if c = doubleQuote then "\\\""
  else if Text.isPrintable c then c.toString
  else codePoint c

/-- A text between quotes. -/
def text (s : String) : String :=
  "\"" ++ String.join (s.toList.map escape) ++ "\""

/-- A byte as two upper-case hexadecimal digits. -/
def byte (b : UInt8) : String :=
  "\\x" ++ (String.ofList (Text.hexPlaces 2 b.toNat)).toUpper

/-- A path between quotes. -/
def path (p : Path) : String :=
  "\"" ++ String.join ((Utf8.pieces p.bytes).map fun
    | .char c => escape c
    | .malformed bytes => String.join (bytes.map byte)) ++ "\""

end CounterWatch.Quoted
