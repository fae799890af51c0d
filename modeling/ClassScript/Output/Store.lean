/-!
Artifacts kept in memory, in the order in which their names were first written.
-/

namespace ClassScript.Output

/-- Names with their texts; no name is there twice. -/
structure Store where
  artifacts : List (String × String)
  deriving DecidableEq

namespace Store

def empty : Store := ⟨[]⟩

/-- Puts a text in the place of its name, or at the end. -/
def put (name text : String) : List (String × String) → List (String × String)
  | [] => [(name, text)]
  | (other, old) :: rest =>
      if other = name then (name, text) :: rest else (other, old) :: put name text rest

/-- Stores a text; a name that is known keeps its place. -/
def write (s : Store) (name text : String) : Store :=
  ⟨put name text s.artifacts⟩

/-- The text stored under a name. -/
def read? (s : Store) (name : String) : Option String :=
  s.artifacts.lookup name

def names (s : Store) : List String :=
  s.artifacts.map (·.1)

/-- Stores several artifacts in order. -/
def writeAll (s : Store) (artifacts : List (String × String)) : Store :=
  artifacts.foldl (fun s (name, text) => s.write name text) s

end Store

end ClassScript.Output
