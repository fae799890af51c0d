import ClassScript.Json.Value
import ClassScript.Output.Vlq
import ClassScript.Output.Writer

/-!
From lines of the output to lines of the source. The map is written as version
3 of the source map format with one segment for each mapped line; columns are
not tracked and are all zero.
-/

namespace ClassScript.Output

/-- Where an output line comes from: an index into the file table, and a line
that counts from one. -/
structure Origin where
  source : Nat
  line : UInt32
  deriving DecidableEq

/-- A table of files in the order of first use, and for each mapped output line
its origin, in ascending order of lines. -/
structure LineMap where
  sources : List String
  entries : List (Nat × Origin)
  deriving DecidableEq

/-- Puts an entry in its place; one for the same line is replaced. -/
def insertEntry (line : Nat) (origin : Origin) :
    List (Nat × Origin) → List (Nat × Origin)
  | [] => [(line, origin)]
  | (other, known) :: rest =>
      if line < other then (line, origin) :: (other, known) :: rest
      else if line = other then (line, origin) :: rest
      else (other, known) :: insertEntry line origin rest

namespace LineMap

def empty : LineMap := ⟨[], []⟩

/-- Maps an output line to a position. A later record for a line replaces an
earlier one. -/
def record (m : LineMap) (outputLine : Nat) (position : Mark) : LineMap :=
  match m.sources.idxOf? position.file with
  | some source => { m with entries := insertEntry outputLine ⟨source, position.line⟩ m.entries }
  | none =>
      { sources := m.sources ++ [position.file]
        entries := insertEntry outputLine ⟨m.sources.length, position.line⟩ m.entries }

def ofMarks (marks : List (Nat × Mark)) : LineMap :=
  marks.foldl (fun m (line, position) => m.record line position) empty

def size (m : LineMap) : Nat := m.entries.length

/-- A source line as the format counts it, from zero; a line zero stays zero. -/
def zeroBased (o : Origin) : Int :=
  ((o.line.toNat - 1 : Nat) : Int)

/-- The segments from output line `current` on. Sources and source lines are
written as differences to the segment before. -/
def segments (current : Nat) (source line : Int) : List (Nat × Origin) → List Char
  | [] => []
  | (outputLine, origin) :: rest =>
      List.replicate (outputLine - current) ';' ++
        (Vlq.encode 0 ++ Vlq.encode (origin.source - source) ++
          Vlq.encode (zeroBased origin - line) ++ Vlq.encode 0) ++
        segments outputLine origin.source (zeroBased origin) rest

/-- The mappings of the whole output; lines are separated by semicolons. -/
def mappings (m : LineMap) : String :=
  String.ofList (segments 0 0 0 m.entries)

/-- The source map of the artifact of that name. -/
def toJson (m : LineMap) (file : String) : Json :=
  .object
    [("version", .integer 3), ("file", .string file),
     ("sources", .list (m.sources.map .string)), ("names", .list []),
     ("mappings", .string m.mappings)]

end LineMap

end ClassScript.Output
