import ClassScript.Json.Scan

/-!
Skipping a value that nobody asked for. Only its shape is checked, and lists
and objects may nest without limit: the open ones are kept on a stack.
-/

namespace ClassScript.Json

/-- An open list or object. -/
inductive Frame where
  | list
  | object
  deriving DecidableEq

namespace Frame

def closing : Frame → Char
  | .list => ']'
  | .object => '}'

def unfinished : Frame → Fault
  | .list => .unfinished .list
  | .object => .unfinished .object

def expectedEnd : Frame → Fault
  | .list => .expectedListEnd
  | .object => .expectedObjectEnd

end Frame

/-- The key of a skipped member and its colon. -/
def skipKey : Decoder Unit := do
  match ← peek with
  | none => throw (.unfinished .object)
  | some '"' =>
      fun text => do
        let (_, rest) ← stringChars skippedEscape text.length (text.drop 1)
        return ((), rest)
  | some _ => throw .keyMustBeString
  match ← peek with
  | none => throw (.unfinished .object)
  | some ':' => advance
  | some _ => throw .expectedColon

/-- The beginning of a value: a whole scalar, or the bracket that opens a list
or an object. -/
def skipOpening : Decoder (Option Frame) := do
  match ← peek with
  | none => throw (.unfinished .value)
  | some 'n' => advance; word ['u', 'l', 'l']; return none
  | some 't' => advance; word ['r', 'u', 'e']; return none
  | some 'f' => advance; word ['a', 'l', 's', 'e']; return none
  | some '"' =>
      fun text => do
        let (_, rest) ← stringChars skippedEscape text.length (text.drop 1)
        return (none, rest)
  | some '[' => advance; return some .list
  | some '{' => advance; return some .object
  | some c =>
      if c = '-' || c.isDigit then
        discard (numberToken true)
        return none
      else throw .expectedValue

/-- Closes what ends here. The result is the stack on whose top a further item
is due, or nothing when all is closed; `comma` tells whether a comma has to
come before that item. -/
def skipClosing (comma : Bool) : List Frame → Decoder (List Frame)
  | [] => return []
  | frame :: outer => do
      match ← peek with
      | none => throw frame.unfinished
      | some c =>
          if c = ',' && comma then
            advance
            return frame :: outer
          else if c = frame.closing then
            advance
            skipClosing true outer
          else if comma then throw frame.expectedEnd
          else return frame :: outer

/-- Skips a value inside the open frames and all that follows up to the end of
the outermost one. -/
def skipFrames : Nat → List Frame → Decoder Unit
  | 0, _ => throw (.unfinished .value)
  | fuel + 1, frames => do
      let pending ←
        match ← skipOpening with
        | some frame => skipClosing false (frame :: frames)
        | none => skipClosing true frames
      match pending with
      | [] => return ()
      | .object :: _ =>
          skipKey
          skipFrames fuel pending
      | .list :: _ => skipFrames fuel pending

/-- Skips one value. -/
def skipValue : Decoder Unit := do
  skipFrames ((← get).length + 1) []

end ClassScript.Json
