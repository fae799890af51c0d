import ClassScript.Text.Hex

/-!
Double-quoted string literals of the script. Quotes, backslashes and every
character that could end or break a line are escaped, so a literal always
stays on one line and its only bare quotes are the two around it.
-/

namespace ClassScript.Script

/-- The text of one character inside a literal. -/
def escape (c : Char) : List Char :=
  if c = '"' then ['\\', '"']
  else if c = '\\' then ['\\', '\\']
  else if c = '\n' then ['\\', 'n']
  else if c = '\r' then ['\\', 'r']
  else if c = '\t' then ['\\', 't']
  else if c.toNat < 0x20 ∨ c = '\u2028' ∨ c = '\u2029' then
    '\\' :: 'u' :: Text.hexDigits 4 c.toNat
  else [c]

/-- The characters of a literal, its quotes included. -/
def literal (s : List Char) : List Char :=
  '"' :: (s.flatMap escape ++ ['"'])

/-- A text as a literal of the script. -/
def quote (s : String) : String :=
  String.ofList (literal s.toList)

end ClassScript.Script
