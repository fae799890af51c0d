import ClassScript.Json.Reader

/-!
Readers for records and for tagged alternatives. A record is an object whose
members come in any order, or a list of its fields in the declared order;
an alternative is named by a string, or by the one key of an object that holds
what the alternative carries.
-/

namespace ClassScript.Json.Decoder

/-- The fields of a record in the declared order: their names, readers and, for
those that may be absent, the values they then have. -/
inductive Fields (budget : Nat) : List Type → Type 1 where
  | nil : Fields budget []
  | cons {α : Type} {αs : List Type} (name : String) (read : Nested budget α)
      (default : Option α) (rest : Fields budget αs) : Fields budget (α :: αs)

/-- One value for each field. -/
def Row : List Type → Type
  | [] => Unit
  | α :: αs => α × Row αs

/-- For each field the value that has been read, if any. -/
def Slots : List Type → Type
  | [] => Unit
  | α :: αs => Option α × Slots αs

namespace Fields

variable {budget : Nat} {αs : List Type}

def count {αs : List Type} : Fields budget αs → Nat
  | .nil => 0
  | .cons _ _ _ rest => rest.count + 1

def emptySlots {αs : List Type} : Fields budget αs → Slots αs
  | .nil => ()
  | .cons _ _ _ rest => (none, rest.emptySlots)

/-- Reads the value of the field of that name into its slot. There is no result
when the record has no such field; a field that is there twice is refused
before its second value is read. -/
def fill {αs : List Type} (inner : Nat) (h : inner < budget) (key : String) :
    Fields budget αs → Slots αs → Decoder (Option (Slots αs))
  | .nil, () => return none
  | .cons name read _ rest, (slot, slots) => do
      if key = name then
        if slot.isSome then throw (.duplicateField name)
        colon
        let value ← read inner h
        return some (some value, slots)
      else
        let filled ← rest.fill inner h key slots
        return filled.map fun slots => (slot, slots)

/-- The values of all fields; an absent one needs a default. -/
def complete {αs : List Type} : Fields budget αs → Slots αs → Except Fault (Row αs)
  | .nil, () => .ok ()
  | .cons name _ default rest, (slot, slots) => do
      match slot.or default with
      | none => throw (.missingField name)
      | some value => return (value, ← rest.complete slots)

/-- The members of an object; `fuel` bounds their number. Members of unknown
name are skipped. -/
def members (fields : Fields budget αs) (inner : Nat) (h : inner < budget) :
    Nat → Bool → Slots αs → Decoder (Slots αs)
  | 0, _, slots => return slots
  | fuel + 1, isFirst, slots => do
      if ← nextMember isFirst then
        let key ← quotedString
        match ← fields.fill inner h key slots with
        | some slots => fields.members inner h fuel false slots
        | none =>
            colon
            skipValue
            fields.members inner h fuel false slots
      else return slots

/-- The fields as items of a list. Those missing at its end need a default;
`wanted` says what a complete list would be. -/
def inOrder {αs : List Type} (wanted : String) (inner : Nat) (h : inner < budget) :
    Fields budget αs → Nat → Bool → Decoder (Row αs)
  | .nil, _, _ => return ()
  | .cons _ read default rest, index, isFirst => do
      if ← nextItem isFirst then
        let value ← read inner h
        return (value, ← rest.inOrder wanted inner h (index + 1) false)
      else
        match default with
        | none => throw (.wrongLength index wanted)
        | some value => return (value, ← rest.inOrder wanted inner h (index + 1) isFirst)

/-- What a list of all the fields is called. -/
def expectation (fields : Fields budget αs) (label : String) : String :=
  label ++ " with " ++ Text.natural fields.count ++
    (if fields.count = 1 then " element" else " elements")

end Fields

/-- A record with these fields. -/
def record {α : Type} {αs : List Type} (budget : Nat) (label : String)
    (fields : Fields budget αs) (build : Row αs → α) : Decoder α := do
  match ← peek with
  | some '[' =>
      opened budget fun inner h => do
        let row ← fields.inOrder (fields.expectation label) inner h 0 true
        endList
        return build row
  | some '{' =>
      opened budget fun inner h => do
        let slots ← fields.members inner h ((← get).length + 1) true fields.emptySlots
        let row ← StateT.lift (fields.complete slots)
        discard peek
        advance
        return build row
  | _ => refuse label

/-- What an alternative carries: nothing, one value, or named fields. -/
inductive Payload (budget : Nat) (α : Type) where
  | unit (value : α)
  | single (read : Nested budget α)
  | fields (read : Nested budget α)

/-- The alternatives of a type with their tags. -/
abbrev Variants (budget : Nat) (α : Type) := List (String × Payload budget α)

/-- The alternative of a tag. -/
def Variants.named {budget : Nat} {α : Type} (variants : Variants budget α) (tag : String) :
    Except Fault (Payload budget α) :=
  match variants.lookup tag with
  | some payload => .ok payload
  | none => .error (.unknownVariant tag (variants.map (·.1)))

/-- The tag that opens an object. -/
def tagKey : Decoder String := do
  match ← peek with
  | none => throw (.unfinished .object)
  | some '"' => quotedString
  | some '}' => throw .expectedValue
  | some _ => throw .keyMustBeString

/-- One of several alternatives. -/
def tagged {α : Type} (budget : Nat) (variants : Variants budget α) : Decoder α := do
  match ← peek with
  | none => throw (.unfinished .value)
  | some '"' =>
      match ← StateT.lift (variants.named (← quotedString)) with
      | .unit value => return value
      | .single _ => throw (.wrongType .unitVariant "newtype variant")
      | .fields _ => throw (.wrongType .unitVariant "struct variant")
  | some '{' =>
      opened budget fun inner h => do
        let payload ← StateT.lift (variants.named (← tagKey))
        colon
        let value ←
          match payload with
          | .unit value => (fun () => value) <$> unit
          | .single read => read inner h
          | .fields read => read inner h
        match ← peek with
        | none => throw (.unfinished .object)
        | some '}' =>
            advance
            return value
        | some _ => throw .expectedValue
  | some _ => throw .expectedValue

end ClassScript.Json.Decoder
