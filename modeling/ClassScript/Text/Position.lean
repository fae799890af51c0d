import ClassScript.Text.Integer

/-!
Positions at the end of messages, such as ` at line 3 column 4`. Messages are
shown without them, and whatever reads as a position is taken for one, even
where a name brought it into the message.
-/

namespace ClassScript.Text

/-- A place in a text. Lines count from one; line zero stands for no place. -/
structure Position where
  line : Nat
  column : Nat
  deriving DecidableEq

/-- A position in line zero is blank, provided that it could be held: the
numbers of a position have 64 bits. -/
def Position.isBlank (p : Position) : Bool :=
  p.line = 0 && p.column < UInt64.size

/-- The text before an ending, when the text ends so. -/
def before? (ending text : List Char) : Option (List Char) :=
  if ending.isSuffixOf text then some (text.take (text.length - ending.length)) else none

/-- The text before the digits at its end, with the number that they stand for;
there has to be one digit at least. -/
def cutNumber? (text : List Char) : Option (List Char × Nat) :=
  let digits := (text.reverse.takeWhile Char.isDigit).reverse
  if digits.isEmpty then none
  else some (text.take (text.length - digits.length), digitsValue digits)

/-- The text before a position at its end, with the position. -/
def cutPosition? (text : List Char) : Option (List Char × Position) := do
  let (text, column) ← cutNumber? text
  let text ← before? " column ".toList text
  let (text, line) ← cutNumber? text
  let text ← before? " at line ".toList text
  return (text, ⟨line, column⟩)

/-- A text without a position at its end. -/
def dropPosition (text : List Char) : List Char :=
  match cutPosition? text with
  | some (before, _) => before
  | none => text

/-- A text without the position at its end. A blank position says nothing of
where the text applies, so the one before it is dropped with it. -/
def withoutPosition (text : String) : String :=
  match cutPosition? text.toList with
  | some (before, position) =>
      String.ofList (if position.isBlank then dropPosition before else before)
  | none => text

end ClassScript.Text
