/-!
Decimal text of whole numbers: no leading zero, and a minus sign on what is
below zero. Digits that are read may start with zeros.
-/

namespace ClassScript.Text

/-- The decimal digits of a natural number. -/
def natural (n : Nat) : String :=
  String.ofList (Nat.toDigits 10 n)

/-- The decimal text of an integer. -/
def integer (v : Int) : String :=
  if v < 0 then "-" ++ natural v.natAbs else natural v.natAbs

/-- The number that digits stand for. -/
def digitsValue (digits : List Char) : Nat :=
  digits.foldl (fun value c => value * 10 + (c.toNat - '0'.toNat)) 0

end ClassScript.Text
