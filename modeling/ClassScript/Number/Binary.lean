/-!
Binary floating-point formats over bit patterns. A pattern is a natural number;
decoding gives `significand · 2 ^ exponent`, and rounding takes an exact ratio
of natural numbers to the nearest pattern. No machine float is involved, so
every step can be reasoned about in integer arithmetic.
-/

namespace ClassScript.Number

/-- The widths of the fraction and exponent fields of an interchange format. -/
structure Format where
  fractionBits : Nat
  exponentBits : Nat
  deriving DecidableEq, Repr

/-- The 32-bit format. -/
def single : Format := ⟨23, 8⟩

/-- The 64-bit format. -/
def double : Format := ⟨52, 11⟩

/-- What a bit pattern stands for. -/
inductive Value where
  | nan
  | infinite (negative : Bool)
  | finite (negative : Bool) (significand : Nat) (exponent : Int)
  deriving DecidableEq, Repr

/-- The quotient rounded to the nearest natural number, a half to the even one. -/
def roundEven (num den : Nat) : Nat :=
  let below := num / den
  let rest := 2 * (num % den)
  if rest < den ∨ (rest = den ∧ below % 2 = 0) then below else below + 1

namespace Format

/-- The exponent of the last place of the smallest positive numbers. -/
def minExponent (f : Format) : Int :=
  2 - (Nat.pow 2 (f.exponentBits - 1) : Int) - f.fractionBits

/-- The pattern of positive infinity; larger magnitudes are not numbers. -/
def infinity (f : Format) : Nat :=
  (Nat.pow 2 f.exponentBits - 1) * Nat.pow 2 f.fractionBits

/-- The pattern that holds the sign bit alone. -/
def signBit (f : Format) : Nat :=
  Nat.pow 2 (f.exponentBits + f.fractionBits)

/-- A pattern of the given sign and magnitude. -/
def withSign (f : Format) (negative : Bool) (magnitude : Nat) : Nat :=
  if negative then f.signBit + magnitude else magnitude

/-- The value of a pattern. Numbers whose exponent field is zero have no
leading one and share the smallest exponent. -/
def decode (f : Format) (bits : Nat) : Value :=
  let negative : Bool := f.signBit ≤ bits
  let magnitude := bits % f.signBit
  if f.infinity < magnitude then .nan
  else if magnitude = f.infinity then .infinite negative
  else
    let field := magnitude / Nat.pow 2 f.fractionBits
    let fraction := magnitude % Nat.pow 2 f.fractionBits
    if field = 0 then .finite negative fraction f.minExponent
    else .finite negative (fraction + Nat.pow 2 f.fractionBits) (f.minExponent + (field - 1 : Nat))

/-- The magnitude nearest to `num / den`, a half to the even pattern and
anything beyond the largest number to infinity. The significand is rounded in
units of the last place; a carry out of it lands in the exponent field. -/
def nearest (f : Format) (num den : Nat) : Nat :=
  if num = 0 then 0
  else
    let guess : Int := (num.log2 : Int) - den.log2
    let reached : Bool := den * Nat.pow 2 guess.toNat ≤ num * Nat.pow 2 (-guess).toNat
    let top := if reached then guess else guess - 1
    let exponent := max f.minExponent (top - f.fractionBits)
    let significand :=
      roundEven (num * Nat.pow 2 (-exponent).toNat) (den * Nat.pow 2 exponent.toNat)
    min f.infinity ((exponent - f.minExponent).toNat * Nat.pow 2 f.fractionBits + significand)

/-- The magnitude nearest to `digits · 10 ^ exponent`. Exponents far outside the
format are decided from the size of the digits alone, since `8 < 10`. -/
def ofDecimal (f : Format) (digits : Nat) (exponent : Int) : Nat :=
  if digits = 0 then 0
  else if (Nat.pow 2 f.exponentBits : Int) < 3 * exponent then f.infinity
  else if 3 * exponent + digits.log2 + 2 < f.minExponent then 0
  else f.nearest (digits * Nat.pow 10 exponent.toNat) (Nat.pow 10 (-exponent).toNat)

/-- The pattern of a whole number. -/
def ofInt (f : Format) (value : Int) : Nat :=
  f.withSign (value < 0) (f.nearest value.natAbs 1)

/-- The pattern of `target` nearest to a pattern of `source`. -/
def convert (source target : Format) (bits : Nat) : Nat :=
  match source.decode bits with
  | .nan => target.infinity + Nat.pow 2 (target.fractionBits - 1)
  | .infinite negative => target.withSign negative target.infinity
  | .finite negative significand exponent =>
      target.withSign negative
        (target.nearest (significand * Nat.pow 2 exponent.toNat) (Nat.pow 2 (-exponent).toNat))

end Format

end ClassScript.Number
