import ClassScript.Number.Decimal
import ClassScript.Text.Inspect
import ClassScript.Text.Integer

/-!
Why a JSON text could not be read. A text is read once from left to right, so
there is one fault at most: the first.
-/

namespace ClassScript.Json

/-- What stood where something else was wanted. -/
inductive Found where
  | null
  | bool (value : Bool)
  | integer (value : Int)
  | real (bits : Nat)
  | string (text : String)
  | list
  | object
  | unitVariant
  deriving DecidableEq

def Found.text : Found → String
  | .null => "null"
  | .bool true => "boolean \x60true\x60"
  | .bool false => "boolean \x60false\x60"
  | .integer value => "integer \x60" ++ Text.integer value ++ "\x60"
  | .real bits => "floating point \x60" ++ Number.encoded.text Number.double bits ++ "\x60"
  | .string text => "string " ++ Inspect.string text
  | .list => "sequence"
  | .object => "map"
  | .unitVariant => "unit variant"

/-- The construct in which a text ended too early. -/
inductive Construct where
  | value
  | string
  | list
  | object
  deriving DecidableEq

inductive Fault where
  | unfinished (construct : Construct)
  | expectedColon
  | expectedListEnd
  | expectedObjectEnd
  | expectedWord
  | expectedValue
  | keyMustBeString
  | trailingComma
  | trailingCharacters
  | invalidNumber
  | numberOutOfRange
  | invalidEscape
  | loneSurrogate
  | unfinishedPair
  | controlCharacter
  | tooDeep
  | wrongType (found : Found) (wanted : String)
  | outOfRange (value : Int) (wanted : String)
  | unknownVariant (name : String) (known : List String)
  | missingField (name : String)
  | duplicateField (name : String)
  | wrongLength (length : Nat) (wanted : String)
  deriving DecidableEq

/-- A list of names as an expectation. -/
def oneOf (names : List String) : String :=
  let quoted := names.map fun name => "\x60" ++ name ++ "\x60"
  match quoted with
  | [one] => one
  | [one, other] => one ++ " or " ++ other
  | _ => "one of " ++ ", ".intercalate quoted

def Fault.message : Fault → String
  | .unfinished .value => "EOF while parsing a value"
  | .unfinished .string => "EOF while parsing a string"
  | .unfinished .list => "EOF while parsing a list"
  | .unfinished .object => "EOF while parsing an object"
  | .expectedColon => "expected \x60:\x60"
  | .expectedListEnd => "expected \x60,\x60 or \x60]\x60"
  | .expectedObjectEnd => "expected \x60,\x60 or \x60\x7d\x60"
  | .expectedWord => "expected ident"
  | .expectedValue => "expected value"
  | .keyMustBeString => "key must be a string"
  | .trailingComma => "trailing comma"
  | .trailingCharacters => "trailing characters"
  | .invalidNumber => "invalid number"
  | .numberOutOfRange => "number out of range"
  | .invalidEscape => "invalid escape"
  | .loneSurrogate => "lone leading surrogate in hex escape"
  | .unfinishedPair => "unexpected end of hex escape"
  | .controlCharacter =>
      "control character (\\u0000-\\u001F) found while parsing a string"
  | .tooDeep => "recursion limit exceeded"
  | .wrongType found wanted => "invalid type: " ++ found.text ++ ", expected " ++ wanted
  | .outOfRange value wanted =>
      "invalid value: integer \x60" ++ Text.integer value ++ "\x60, expected " ++ wanted
  | .unknownVariant name known =>
      "unknown variant \x60" ++ name ++ "\x60, expected " ++ oneOf known
  | .missingField name => "missing field \x60" ++ name ++ "\x60"
  | .duplicateField name => "duplicate field \x60" ++ name ++ "\x60"
  | .wrongLength length wanted =>
      "invalid length " ++ Text.natural length ++ ", expected " ++ wanted

end ClassScript.Json
