import ClassScript.Text.Lines

/-!
Script text as lines with indentation. A writer collects lines and marks; a
mark names a source position and has no line of its own, so it belongs to
whatever line comes next. Positions in the output exist only once all lines are
known.
-/

namespace ClassScript

/-- A position in some source text; lines count from one. -/
structure Mark where
  file : String
  line : UInt32
  deriving DecidableEq

namespace Output

/-- A line at a level of indentation, or a mark between lines. -/
inductive Entry where
  | text (indent : Nat) (line : String)
  | mark (m : Mark)
  deriving DecidableEq

/-- Lines collected so far and the level at which the next one is put. -/
structure Writer where
  indent : Nat
  entries : List Entry
  deriving DecidableEq

namespace Writer

def empty : Writer := ⟨0, []⟩

/-- Adds text at the current level. Newlines inside it end lines; one newline
at its end adds nothing. -/
def line (w : Writer) (text : String) : Writer :=
  let pieces := Text.lines (Text.dropFinalNewline text.toList)
  { w with entries := w.entries ++ pieces.map fun p => .text w.indent (String.ofList p) }

/-- Attaches a source position to the next line. -/
def mark (w : Writer) (m : Mark) : Writer :=
  { w with entries := w.entries ++ [.mark m] }

/-- Does what `body` does one level deeper. -/
def deeper (w : Writer) (body : Writer → Writer) : Writer :=
  { body { w with indent := w.indent + 1 } with indent := w.indent }

/-- A head with an opening brace, the body one level deeper, and the closing
brace with what follows it. -/
def block (w : Writer) (head : String) (body : Writer → Writer) (after : String) : Writer :=
  ((w.line (head ++ " \x7b")).deeper body).line ("\x7d" ++ after)

/-- Adds the lines and marks of another writer at the current level. -/
def append (w other : Writer) : Writer :=
  let moved := other.entries.map fun
    | .text indent line => .text (indent + w.indent) line
    | .mark m => .mark m
  { w with entries := w.entries ++ moved }

/-- Whether no line has been written; marks do not count. -/
def isEmpty (w : Writer) : Bool :=
  w.entries.all fun
    | .text _ _ => false
    | .mark _ => true

end Writer

/-- One line of output. Empty lines are not indented. -/
def Entry.render : Entry → String
  | .text indent line =>
      if line.isEmpty then "\n" else String.ofList (List.replicate indent '\t') ++ line ++ "\n"
  | .mark _ => ""

/-- The marks with the number of lines before each. -/
def marksFrom : Nat → List Entry → List (Nat × Mark)
  | _, [] => []
  | line, .text _ _ :: rest => marksFrom (line + 1) rest
  | line, .mark m :: rest => (line, m) :: marksFrom line rest

namespace Writer

/-- The text of all lines. -/
def text (w : Writer) : String :=
  String.join (w.entries.map Entry.render)

/-- The marks, each with the output line that it belongs to; lines count from
zero. -/
def marks (w : Writer) : List (Nat × Mark) :=
  marksFrom 0 w.entries

end Writer

end Output

end ClassScript
