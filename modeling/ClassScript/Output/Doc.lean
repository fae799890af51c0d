import ClassScript.Output.Writer

/-!
Documents: script text as a tree, before it has a place in the output. Lowering
builds documents, and only writing one fixes indentation and line numbers.
-/

namespace ClassScript.Output

/-- What is to be written. `splice` writes its part apart and adds the result,
which comes to the same as writing it in place. -/
inductive Doc where
  | empty
  | line (text : String)
  | mark (m : Mark)
  | seq (first second : Doc)
  | block (head : String) (body : Doc) (after : String)
  | indented (body : Doc)
  | splice (body : Doc)

namespace Doc

instance : Append Doc := ⟨.seq⟩

/-- Several documents, one after the other. -/
def concat : List Doc → Doc
  | [] => .empty
  | d :: rest => d ++ concat rest

def lines (texts : List String) : Doc :=
  concat (texts.map .line)

/-- Writes the document with a writer. -/
def write : Doc → Writer → Writer
  | .empty, w => w
  | .line text, w => w.line text
  | .mark m, w => w.mark m
  | .seq first second, w => second.write (first.write w)
  | .block head body after, w => w.block head body.write after
  | .indented body, w => w.deeper body.write
  | .splice body, w => w.append (body.write .empty)

/-- The document written on its own. -/
def text (d : Doc) : String :=
  (d.write .empty).text

end Doc

end ClassScript.Output
