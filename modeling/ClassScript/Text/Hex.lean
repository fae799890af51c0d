/-!
Hexadecimal digits in lower case, a fixed number of them, as escapes of a
fixed width need. A digit is found from its weight, so every digit of a number
can be told without the others.
-/

namespace ClassScript.Text

/-- The digit of a number below sixteen. -/
def hexDigit (d : Nat) : Char :=
  if d < 10 then Char.ofNat (48 + d) else Char.ofNat (87 + d)

/-- The last `width` digits of `n`, the most significant first. -/
def hexDigits : Nat → Nat → List Char
  | 0, _ => []
  | width + 1, n => hexDigit (n / Nat.pow 16 width % 16) :: hexDigits width n

/-- The value of a hexadecimal digit of either case. -/
def hexValue? (c : Char) : Option Nat :=
  if '0' ≤ c ∧ c ≤ '9' then some (c.toNat - 48)
  else if 'a' ≤ c ∧ c ≤ 'f' then some (c.toNat - 87)
  else if 'A' ≤ c ∧ c ≤ 'F' then some (c.toNat - 55)
  else none

/-- An escape of a fixed width has as many digits as its width says. -/
theorem length_hexDigits (width n : Nat) : (hexDigits width n).length = width := by
  fun_induction hexDigits width n with
  | case1 => rfl
  | case2 width n ih => rw [List.length_cons, ih]

theorem hexValue?_hexDigit : ∀ d, d < 16 → hexValue? (hexDigit d) = some d := by
  decide

end ClassScript.Text
