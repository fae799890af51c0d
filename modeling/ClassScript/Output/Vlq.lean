/-!
Variable-length quantities in base 64: the sign in the lowest bit, then five
bits to a digit, the low ones first, and a sixth bit on every digit that is
followed by another.
-/

namespace ClassScript.Output.Vlq

def alphabet : List Char :=
  "ABCDEFGHIJKLMNOPQRSTUVWXYZabcdefghijklmnopqrstuvwxyz0123456789+/".toList

/-- The character of a number below 64. -/
def digit (d : Nat) : Char :=
  alphabet.getD d 'A'

/-- The digits of a natural number. -/
def digits (n : Nat) : List Char :=
  if n < 32 then [digit n] else digit (n % 32 + 32) :: digits (n / 32)
termination_by n

/-- An integer with its sign moved to the lowest bit. -/
def zigzag (v : Int) : Nat :=
  if v < 0 then 2 * v.natAbs + 1 else 2 * v.natAbs

def encode (v : Int) : List Char :=
  digits (zigzag v)

end ClassScript.Output.Vlq
