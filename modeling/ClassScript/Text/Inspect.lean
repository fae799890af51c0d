import ClassScript.Text.Classes
import ClassScript.Text.Hex

/-!
Inspection text: values shown for a reader of messages and logs. Strings are
quoted with everything escaped that cannot be seen, and compound values are
written as a name with its parts.
-/

namespace ClassScript.Inspect

/-- A character inside an inspected string. Characters without a shape of
their own are given by their code point. -/
def escape (c : Char) : List Char :=
  if c = '\x00' then ['\\', '0']
  else if c = '\t' then ['\\', 't']
  else if c = '\r' then ['\\', 'r']
  else if c = '\n' then ['\\', 'n']
  else if c = '"' then ['\\', '"']
  else if c = '\\' then ['\\', '\\']
  else if Text.isPrintable c then [c]
  else ['\\', 'u', '{'] ++ Nat.toDigits 16 c.toNat ++ ['}']

def string (s : String) : String :=
  String.ofList ('"' :: (s.toList.flatMap escape ++ ['"']))

/-- Parts in brackets. -/
def list (parts : List String) : String :=
  "[" ++ ", ".intercalate parts ++ "]"

/-- A name with unnamed parts. -/
def tuple (name : String) (parts : List String) : String :=
  name ++ "(" ++ ", ".intercalate parts ++ ")"

/-- A name with named parts. -/
def record (name : String) (parts : List (String × String)) : String :=
  name ++ " \x7b " ++ ", ".intercalate (parts.map fun p => p.1 ++ ": " ++ p.2) ++ " \x7d"

end ClassScript.Inspect
