import ClassScript.Number.Decimal
import ClassScript.Text.Hex
import ClassScript.Text.Integer

/-!
JSON values and their compact text: members in the order given, no blanks, and
only those characters escaped that a string may not hold bare.
-/

namespace ClassScript

/-- JSON values. A real number is the bit pattern of a binary format. -/
inductive Json where
  | null
  | bool (value : Bool)
  | integer (value : Int)
  | real (format : Number.Format) (bits : Nat)
  | string (text : String)
  | list (items : List Json)
  | object (members : List (String × Json))

namespace Json

/-- A character inside a JSON string. -/
def escape (c : Char) : List Char :=
  if c = '"' then ['\\', '"']
  else if c = '\\' then ['\\', '\\']
  else if c = '\x08' then ['\\', 'b']
  else if c = '\x0c' then ['\\', 'f']
  else if c = '\n' then ['\\', 'n']
  else if c = '\r' then ['\\', 'r']
  else if c = '\t' then ['\\', 't']
  else if c.toNat < 0x20 then '\\' :: 'u' :: Text.hexDigits 4 c.toNat
  else [c]

/-- A string in quotes. -/
def quoted (s : String) : List Char :=
  '"' :: (s.toList.flatMap escape ++ ['"'])

/-- A real number; what is no finite number has no JSON form and becomes
`null`. -/
def realChars (f : Number.Format) (bits : Nat) : List Char :=
  match f.decode bits with
  | .finite _ _ _ => ((Number.encodedIn f).text f bits).toList
  | _ => ['n', 'u', 'l', 'l']

mutual

/-- The compact text of a value. -/
def render : Json → List Char
  | .null => ['n', 'u', 'l', 'l']
  | .bool true => ['t', 'r', 'u', 'e']
  | .bool false => ['f', 'a', 'l', 's', 'e']
  | .integer value => (Text.integer value).toList
  | .real format bits => realChars format bits
  | .string text => quoted text
  | .list [] => ['[', ']']
  | .list (first :: rest) => '[' :: (first.render ++ renderItems rest)
  | .object [] => ['{', '}']
  | .object ((name, value) :: rest) =>
      '{' :: (quoted name ++ ':' :: (value.render ++ renderMembers rest))

/-- Items after the first, and the closing bracket. -/
def renderItems : List Json → List Char
  | [] => [']']
  | item :: rest => ',' :: (item.render ++ renderItems rest)

/-- Members after the first, and the closing brace. -/
def renderMembers : List (String × Json) → List Char
  | [] => ['}']
  | (name, value) :: rest =>
      ',' :: (quoted name ++ ':' :: (value.render ++ renderMembers rest))

end

def text (j : Json) : String :=
  String.ofList j.render

mutual

/-- How many lists and objects are open at once at most. -/
def depth : Json → Nat
  | .list items => depthOfAll items + 1
  | .object members => depthOfMembers members + 1
  | _ => 0

def depthOfAll : List Json → Nat
  | [] => 0
  | item :: rest => max item.depth (depthOfAll rest)

def depthOfMembers : List (String × Json) → Nat
  | [] => 0
  | (_, value) :: rest => max value.depth (depthOfMembers rest)

end

end Json

end ClassScript
