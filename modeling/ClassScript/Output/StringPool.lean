import ClassScript.Output.Doc
import ClassScript.Script.Quoted
import ClassScript.Text.Integer

/-!
The pool of string literals. Every distinct literal has one slot, numbered in
the order of first use; script text refers to it by its number, and the block
that fills the slots is written when all literals are known.
-/

namespace ClassScript.Output

/-- The literals in the order of their slots. -/
structure StringPool where
  entries : List String
  deriving DecidableEq

namespace StringPool

def empty : StringPool := ⟨[]⟩

def size (p : StringPool) : Nat := p.entries.length

/-- The slot of a literal. -/
def slot? (p : StringPool) (value : String) : Option Nat :=
  p.entries.idxOf? value

/-- The slot of a literal, a new one at the end if it has none yet. -/
def alloc (p : StringPool) (value : String) : Nat × StringPool :=
  match p.slot? value with
  | some slot => (slot, p)
  | none => (p.size, ⟨p.entries ++ [value]⟩)

/-- The literals with their slots. -/
def slots (p : StringPool) : List (Nat × String) :=
  p.entries.zipIdx.map fun (value, slot) => (slot, value)

/-- The statements that fill the pool. -/
def doc (p : StringPool) : Doc :=
  .line ("SS = new Array(" ++ Text.natural p.size ++ ");") ++
    Doc.lines (p.slots.map fun (slot, value) =>
      "SS[" ++ Text.natural slot ++ "] = " ++ Script.quote value ++ ";")

end StringPool

end ClassScript.Output
