import ClassScript.Model.Literal
import ClassScript.Number.Decimal
import ClassScript.Script.Quoted
import ClassScript.Text.Integer

/-!
Literals as script expressions. Negative numbers are put in parentheses so
that the text can stand as an operand; 64-bit integers are built by the
runtime from two signed words.
-/

namespace ClassScript.Script

/-- Parentheses around a text that starts with a minus sign. -/
def wrapNegative (text : String) : String :=
  if text.toList.head? = some '-' then "(" ++ text ++ ")" else text

/-- A floating-point constant from the pattern of a 64-bit number. -/
def real (bits : Nat) : String :=
  wrapNegative (Number.scripted.text Number.double bits)

/-- The signed high word of a 64-bit integer. -/
def highWord (v : Int64) : Int32 :=
  (v >>> 32).toInt32

/-- The low word of a 64-bit integer, read as signed. -/
def lowWord (v : Int64) : Int32 :=
  v.toInt32

/-- The expression for a literal. Narrow floating-point numbers are written
with the digits of the 64-bit number of the same value. -/
def constant : Literal → String
  | .null => "null"
  | .bool true => "true"
  | .bool false => "false"
  | .int v => wrapNegative (Text.integer v.toInt)
  | .long v => "N.lnew(" ++ Text.integer (highWord v).toInt ++ ", " ++ Text.integer (lowWord v).toInt ++ ")"
  | .float bits => real (Number.Format.convert Number.single Number.double bits.toNat)
  | .double bits => real bits.toNat
  | .char unit => Text.natural unit.toNat
  | .string text => quote text

end ClassScript.Script
