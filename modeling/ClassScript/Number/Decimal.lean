import ClassScript.Number.Shortest

/-!
The text of binary numbers. One record holds the decisions of a format: how an
exact tie between two shortest texts falls, which exponents are written out
positionally, how an exponent is marked, and the words for what is no number.
-/

namespace ClassScript.Number

/-- How numbers are written. Exponents from `lowest` to `highest` are
positional, all others follow an `e`. -/
structure Style where
  tie : Tie
  lowest : Int
  highest : Int
  plus : Bool
  nan : String := "NaN"
  infinity : String := "inf"

/-- Digits with a point among or after them; a whole number keeps one zero
behind the point. -/
def Digits.positional (d : Digits) : List Char :=
  if d.exponent < 0 then
    '0' :: '.' :: (List.replicate (-d.exponent - 1).toNat '0' ++ d.digits)
  else
    let whole := d.exponent.toNat + 1
    if d.digits.length ≤ whole then
      d.digits ++ List.replicate (whole - d.digits.length) '0' ++ ['.', '0']
    else d.digits.take whole ++ '.' :: d.digits.drop whole

/-- One digit, the others behind a point, and the exponent. -/
def Digits.scientific (plus : Bool) (d : Digits) : List Char :=
  let mantissa :=
    match d.digits with
    | [] => []
    | [first] => [first]
    | first :: rest => first :: '.' :: rest
  let sign := if d.exponent < 0 then ['-'] else if plus then ['+'] else []
  mantissa ++ 'e' :: (sign ++ Nat.toDigits 10 d.exponent.natAbs)

namespace Style

/-- The text of a magnitude; zero has no leading digit and is written apart. -/
def magnitude (style : Style) (f : Format) (significand : Nat) (exponent : Int) : List Char :=
  if significand = 0 then ['0', '.', '0']
  else
    let d := f.shortest style.tie significand exponent
    if style.lowest ≤ d.exponent ∧ d.exponent ≤ style.highest then d.positional
    else d.scientific style.plus

/-- The text of a bit pattern. -/
def text (style : Style) (f : Format) (bits : Nat) : String :=
  let signed (negative : Bool) (s : String) := if negative then "-" ++ s else s
  match f.decode bits with
  | .nan => style.nan
  | .infinite negative => signed negative style.infinity
  | .finite negative significand exponent =>
      signed negative (String.ofList (style.magnitude f significand exponent))

end Style

/-- Inspected numbers: positional from `1e-4` to below `1e16`, ties upwards. -/
def inspected : Style := { tie := .up, lowest := -4, highest := 15, plus := false }

/-- Numbers in script text differ from inspected ones in the word for infinity. -/
def scripted : Style := { inspected with infinity := "Infinity" }

/-- Numbers in JSON text: positional from `1e-5` to below `1e16`, ties to the
even digit, and a sign on every exponent. -/
def encoded : Style := { tie := .even, lowest := -5, highest := 15, plus := true }

/-- Numbers of the 32-bit format in JSON text are positional from `1e-6` to
below `1e13`. -/
def encodedSingle : Style := { encoded with lowest := -6, highest := 12 }

/-- How numbers of a format are written in JSON text. -/
def encodedIn (f : Format) : Style :=
  if f = single then encodedSingle else encoded

end ClassScript.Number
