import ClassScript.Model.Type

/-!
Constants of field defaults and bodies. Floating-point constants are kept as
bit patterns, so equality of literals is equality of what was read.
-/

namespace ClassScript

/-- A literal constant. A `char` is one 16-bit unit, not a code point. -/
inductive Literal where
  | null
  | bool (value : Bool)
  | int (value : Int32)
  | long (value : Int64)
  | float (bits : UInt32)
  | double (bits : UInt64)
  | char (unit : UInt16)
  | string (text : String)
  deriving DecidableEq

/-- The text of a string literal. -/
def Literal.string? : Literal → Option String
  | .string text => some text
  | _ => none

/-- What a fresh slot of the type holds: zero, `false` or `null`. -/
def Ty.zero : Ty → Literal
  | .bool => .bool false
  | .byte | .short | .int => .int 0
  | .char => .char 0
  | .long => .long 0
  | .float => .float 0
  | .double => .double 0
  | .void | .ref _ | .array _ => .null

end ClassScript
