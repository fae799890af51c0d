import ClassScript.Output.File

/-!
Paths as text. Only slashes and the parts between them matter, but a path is
handed to the system as it is written, so the length of the text has a limit of
its own.
-/

namespace ClassScript.Output

/-- A path as text, cut at its slashes. -/
structure Path where
  isAbsolute : Bool
  parts : List String
  endsInSlash : Bool

namespace Path

/-- The pieces between slashes, also the empty ones. -/
def pieces (text : List Char) : List String :=
  go [] text
where
  go (piece : List Char) : List Char → List String
    | [] => [String.ofList piece.reverse]
    | c :: rest =>
        if c = '/' then String.ofList piece.reverse :: go [] rest else go (c :: piece) rest

def ofText (text : String) : Path where
  isAbsolute := text.toList.head? = some '/'
  parts := (pieces text.toList).filter (· ≠ "")
  endsInSlash := text.toList.getLast? = some '/'

/-- A path with another one behind it, which counts alone if it is absolute. -/
def join (base name : String) : String :=
  if name.toList.head? = some '/' then name
  else if base.isEmpty || base.toList.getLast? = some '/' then base ++ name
  else base ++ "/" ++ name

/-- Pieces from the last one on, without those that lead nowhere: empty ones,
and a dot unless the path starts with it. -/
def dropIdle : List String → List String
  | [] => []
  | [first] => if first.isEmpty then [] else [first]
  | piece :: before => if piece.isEmpty || piece = "." then dropIdle before else piece :: before

/-- The path of the directory that a path lies in. It is the text before the
last part, as it is written. -/
def parent (path : String) : String :=
  let before := dropIdle ((dropIdle (pieces path.toList).reverse).drop 1)
  if before.isEmpty && path.toList.head? = some '/' then "/"
  else "/".intercalate before.reverse

/-- The parts that make directories: a dot counts only where the path starts
with it. -/
def significant : List String → List String
  | [] => []
  | first :: rest => first :: rest.filter (· ≠ ".")

/-- The longest text of a path, in bytes. -/
def maxBytes : Nat := 4095

/-- The longest name of a directory or file, in bytes. -/
def maxNameBytes : Nat := 255

/-- What the system refuses in a path before it looks at anything. -/
def accept (path : String) : Except FileError Unit :=
  if path.toList.contains '\x00' then .error .nulByte
  else if maxBytes < path.utf8ByteSize then .error .nameTooLong
  else .ok ()

end Path

end ClassScript.Output
