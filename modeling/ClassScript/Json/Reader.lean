import ClassScript.Json.Skip

/-!
Readers for typed values. Every list and object that is entered takes one from
a budget of openings; what stands inside is read with the smaller budget, which
is also what bounds the recursion of readers for recursive types.
-/

namespace ClassScript.Json.Decoder

/-- A reader for what stands one bracket deeper, under any smaller budget. -/
abbrev Nested (budget : Nat) (α : Type) := (inner : Nat) → inner < budget → Decoder α

/-- Enters the bracket that is next. -/
def opened {α : Type} : (budget : Nat) → Nested budget α → Decoder α
  | 0, _ => throw .tooDeep
  | inner + 1, body => do
      advance
      body inner (Nat.lt_succ_self inner)

/-- Refuses the value that is next, after reading as much of it as tells what
it is. -/
def refuse {α : Type} (wanted : String) : Decoder α := do
  match ← peek with
  | none => throw (.unfinished .value)
  | some 'n' => advance; word ['u', 'l', 'l']; throw (.wrongType .null wanted)
  | some 't' => advance; word ['r', 'u', 'e']; throw (.wrongType (.bool true) wanted)
  | some 'f' => advance; word ['a', 'l', 's', 'e']; throw (.wrongType (.bool false) wanted)
  | some '"' => throw (.wrongType (.string (← quotedString)) wanted)
  | some '[' => throw (.wrongType .list wanted)
  | some '{' => throw (.wrongType .object wanted)
  | some c =>
      if c = '-' || c.isDigit then
        match ← numeral with
        | .integer value => throw (.wrongType (.integer value) wanted)
        | .real bits => throw (.wrongType (.real bits) wanted)
      else throw .expectedValue

def string : Decoder String := do
  match ← peek with
  | some '"' => quotedString
  | _ => refuse "a string"

def bool : Decoder Bool := do
  match ← peek with
  | some 't' => advance; word ['r', 'u', 'e']; return true
  | some 'f' => advance; word ['a', 'l', 's', 'e']; return false
  | _ => refuse "a boolean"

/-- The value `null`, where it stands for no value at all. -/
def unit : Decoder Unit := do
  match ← peek with
  | some 'n' => advance; word ['u', 'l', 'l']
  | _ => refuse "unit"

/-- `null`, or a value. -/
def option {α : Type} (read : Decoder α) : Decoder (Option α) := do
  match ← peek with
  | some 'n' => advance; word ['u', 'l', 'l']; return none
  | _ => return some (← read)

/-- A number, or the fault of what stands in its place. -/
def number (wanted : String) : Decoder Numeral := do
  match ← peek with
  | some c => if c = '-' || c.isDigit then numeral else refuse wanted
  | none => refuse wanted

/-- An integer between two bounds. -/
def integer (least greatest : Int) (wanted : String) : Decoder Int := do
  match ← number wanted with
  | .real bits => throw (.wrongType (.real bits) wanted)
  | .integer value =>
      if least ≤ value && value ≤ greatest then return value
      else throw (.outOfRange value wanted)

/-- A real number of a format. Integers are rounded at once, other numbers by
way of the 64-bit format. -/
def real (f : Number.Format) (wanted : String) : Decoder Nat := do
  match ← number wanted with
  | .integer value => return f.ofInt value
  | .real bits => return Number.Format.convert Number.double f bits

/-- Whether another item follows in a list; the comma before it is taken. -/
def nextItem (isFirst : Bool) : Decoder Bool := do
  match ← peek with
  | none => throw (.unfinished .list)
  | some ']' => return false
  | some c =>
      if isFirst then return true
      else if c = ',' then
        advance
        match ← peek with
        | none => throw (.unfinished .value)
        | some ']' => throw .trailingComma
        | some _ => return true
      else throw .expectedListEnd

/-- The closing bracket of a list. -/
def endList : Decoder Unit := do
  match ← peek with
  | none => throw (.unfinished .list)
  | some ']' => advance
  | some ',' =>
      advance
      match ← peek with
      | some ']' => throw .trailingComma
      | _ => throw .trailingCharacters
  | some _ => throw .trailingCharacters

/-- The items up to the end of a list; `fuel` bounds their number. -/
def items {α : Type} (read : Decoder α) : Nat → Bool → Decoder (List α)
  | 0, _ => return []
  | fuel + 1, isFirst => do
      if ← nextItem isFirst then
        let item ← read
        let others ← items read fuel false
        return item :: others
      else return []

/-- A list of values of one type. -/
def list {α : Type} (budget : Nat) (item : Nested budget α) : Decoder (List α) := do
  match ← peek with
  | some '[' =>
      opened budget fun inner h => do
        let values ← items (item inner h) ((← get).length + 1) true
        endList
        return values
  | _ => refuse "a sequence"

/-- Whether another member follows in an object; the comma before it is taken. -/
def nextMember (isFirst : Bool) : Decoder Bool := do
  match ← peek with
  | none => throw (.unfinished .object)
  | some '}' => return false
  | some c =>
      if isFirst then
        if c = '"' then return true else throw .keyMustBeString
      else if c = ',' then
        advance
        match ← peek with
        | none => throw (.unfinished .value)
        | some '"' => return true
        | some '}' => throw .trailingComma
        | some _ => throw .keyMustBeString
      else throw .expectedObjectEnd

/-- The colon behind a key. -/
def colon : Decoder Unit := do
  match ← peek with
  | none => throw (.unfinished .object)
  | some ':' => advance
  | some _ => throw .expectedColon

/-- Reads a whole text as one value. -/
def decode {α : Type} (read : Decoder α) (text : String) : Except Fault α := do
  let (value, rest) ← read text.toList
  if (rest.dropWhile isBlank).isEmpty then return value
  else throw .trailingCharacters

/-- The budget of openings for a whole text. -/
def maxDepth : Nat := 127

end ClassScript.Json.Decoder
