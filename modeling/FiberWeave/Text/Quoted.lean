import FiberWeave.Bytes
import FiberWeave.Text.Printable

/-!
# Quoted text

Text between quotes in messages. Characters that could be mistaken, or that do not show, are
written with a backslash.

* `quote` — a text between double quotes. Single quotes in it stay as they are.
-/

namespace FiberWeave.Text

/-- A character inside a quoted text. -/
def escapeChar (c : Char) : String :=
  if c = '\x00' then "\\0"
  else if c = '\t' then "\\t"
  else if c = '\r' then "\\r"
  else if c = '\n' then "\\n"
  else if c = '\\' then "\\\\"
  else if c = '"' then "\\\""
  else if isExtending c || !isPrintable c then "\\u\x7b" ++ hexDigits 1 c.toNat ++ "\x7d"
  else String.singleton c

/-- A text between double quotes. -/
def quote (s : String) : String := "\"" ++ String.join (s.toList.map escapeChar) ++ "\""

end FiberWeave.Text
