/-!
Sets of code points written as ranges. A character belongs to the set when
some range holds its code point.
-/

namespace ClassScript.Text

/-- Inclusive ranges of code points, in ascending order. -/
abbrev Ranges := List (Nat × Nat)

/-- Whether some range holds the character's code point. -/
def Ranges.holds (ranges : Ranges) (c : Char) : Bool :=
  ranges.any fun r => r.1 ≤ c.toNat && c.toNat ≤ r.2

end ClassScript.Text
