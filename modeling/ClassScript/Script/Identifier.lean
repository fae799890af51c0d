import ClassScript.Script.Quoted
import ClassScript.Text.Classes

/-!
Names in script text. A member is reached by a dot when its name allows it and
by a quoted index otherwise; a variable is altered until it is a legal name
that neither the language nor the runtime has taken.
-/

namespace ClassScript.Script

/-- Members of the object model and globals of the runtime. -/
def runtimeNames : List String :=
  ["name", "constructor", "prototype", "__proto__", "N", "S", "SS"]

/-- Words that the script language keeps for itself. -/
def keywords : List String :=
  ["arguments", "await", "break", "case", "catch", "class", "const", "continue", "debugger",
   "default", "delete", "do", "else", "enum", "eval", "export", "extends", "false", "finally",
   "for", "function", "if", "implements", "import", "in", "instanceof", "interface", "let",
   "new", "null", "package", "private", "protected", "public", "return", "static", "super",
   "switch", "this", "throw", "true", "try", "typeof", "undefined", "var", "void", "while",
   "with", "yield"]

def isReserved (name : String) : Bool :=
  runtimeNames.contains name || keywords.contains name

/-- Whether a name may follow a dot: a letter or `_`, then letters, ASCII
digits and `_`. -/
def isPlain : List Char → Bool
  | [] => false
  | first :: rest =>
      (Text.isAlphabetic first || first = '_') &&
        rest.all fun c => Text.isAlphabetic c || c.isDigit || c = '_'

/-- The access to the member of that name, to be written after an object. -/
def member (name : String) : String :=
  if isPlain name.toList then "." ++ name else "[" ++ quote name ++ "]"

/-- Whether a character may stand in a variable name. -/
def isVariableChar (c : Char) : Bool :=
  Text.isAlphanumeric c || c = '_' || c = '$'

/-- The characters of a variable name: all others become `_`, and one is put in
front of a leading digit or of nothing. -/
def variableChars (name : List Char) : List Char :=
  let chars := name.map fun c => if isVariableChar c then c else '_'
  match chars with
  | [] => ['_']
  | first :: _ => if first.isDigit then '_' :: chars else chars

/-- The script variable for a local, parameter or label. -/
def variableName (name : String) : String :=
  let chars := String.ofList (variableChars name.toList)
  if isReserved chars then chars ++ "_" else chars

end ClassScript.Script
