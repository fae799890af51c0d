import ClassScript.Number.Binary

/-!
The fewest decimal digits that read back as a given binary number. The reals
that round to `significand · 2 ^ exponent` form an interval, closed when the
significand is even. On the grids of one digit, two digits and so on the two
neighbours of the number are tried; the first grid with a neighbour inside
decides, and of two neighbours the nearer one is taken.
-/

namespace ClassScript.Number

/-- Which of two equally near neighbours is taken. -/
inductive Tie where
  | up
  | even
  deriving DecidableEq, Repr

/-- Decimal digits `d₁ d₂ … dₙ` of the number `d₁.d₂…dₙ · 10 ^ exponent`. -/
structure Digits where
  digits : List Char
  exponent : Int
  deriving DecidableEq, Repr

/-- The reals that round to one number, in quarters of its last place:
`quarters` is the number itself and `below`, `above` reach to the ends. -/
structure Interval where
  quarters : Nat
  below : Nat
  above : Nat
  exponent : Int
  closed : Bool
  deriving DecidableEq, Repr

/-- The interval around a positive number. Below a power of two the
neighbouring number is half as far away as above it. -/
def Format.interval (f : Format) (significand : Nat) (exponent : Int) : Interval where
  quarters := 4 * significand
  below := if significand = Nat.pow 2 f.fractionBits ∧ f.minExponent < exponent then 1 else 2
  above := 2
  exponent := exponent - 2
  closed := significand % 2 = 0

namespace Interval

/-- One quarter and one step of the grid `10 ^ k` as whole multiples of a
common unit. -/
def scales (i : Interval) (k : Int) : Nat × Nat :=
  (Nat.pow 2 i.exponent.toNat * Nat.pow 10 (-k).toNat,
   Nat.pow 10 k.toNat * Nat.pow 2 (-i.exponent).toNat)

/-- Whether `x · 10 ^ k` rounds to the number. -/
def holds (i : Interval) (k : Int) (x : Nat) : Bool :=
  let (quarter, step) := i.scales k
  let low := (i.quarters - i.below) * quarter
  let high := (i.quarters + i.above) * quarter
  if i.closed then low ≤ x * step && x * step ≤ high
  else low < x * step && x * step < high

/-- The neighbour of the number on the grid `10 ^ k` that lies in the interval,
the nearer one when both do. -/
def neighbour? (i : Interval) (tie : Tie) (k : Int) : Option Nat :=
  let (quarter, step) := i.scales k
  let x := i.quarters * quarter / step
  match i.holds k x, i.holds k (x + 1) with
  | false, false => none
  | true, false => some x
  | false, true => some (x + 1)
  | true, true =>
      let down := i.quarters * quarter - x * step
      let up := (x + 1) * step - i.quarters * quarter
      if down < up then some x
      else if up < down then some (x + 1)
      else match tie with
        | .up => some (x + 1)
        | .even => some (if x % 2 = 0 then x else x + 1)

/-- The exponent of the leading decimal digit of the number. -/
def leading (i : Interval) : Int :=
  let (quarter, step) := i.scales 0
  let num := i.quarters * quarter
  if step ≤ num then ((Nat.toDigits 10 (num / step)).length : Int) - 1
  else -(Nat.toDigits 10 ((step - 1) / num)).length

/-- The first hit on the grids from `10 ^ k` downwards. -/
def search (i : Interval) (tie : Tie) : Nat → Int → Nat × Int
  | 0, k => (i.quarters * (i.scales k).1 / (i.scales k).2, k)
  | fuel + 1, k =>
      match i.neighbour? tie k with
      | some x => (x, k)
      | none => i.search tie fuel (k - 1)

end Interval

/-- The shortest digits of a positive number, without zeros at the end. -/
def Format.shortest (f : Format) (tie : Tie) (significand : Nat) (exponent : Int) : Digits :=
  let i := f.interval significand exponent
  let (x, k) := i.search tie f.fractionBits i.leading
  let digits := Nat.toDigits 10 x
  { digits := (digits.reverse.dropWhile (· = '0')).reverse
    exponent := k + digits.length - 1 }

end ClassScript.Number
