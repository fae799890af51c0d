import ClassScript.Number.Decimal
import ClassScript.Proofs.LeafText
import Mathlib.Data.List.Induction
import Mathlib.Data.List.TakeWhile

/-!
The digits that a binary number is written with. The search for the shortest ones starts
at the leading digit of the number, so what it finds is never zero, and what is left
without the zeros at its end is not empty.
-/

namespace ClassScript.Number

namespace Interval

variable {i : Interval} {tie : Tie}

theorem scales_pos (i : Interval) (k : Int) : 0 < (i.scales k).1 ∧ 0 < (i.scales k).2 := by
  have hpower : ∀ {base : Nat} (n : Nat), 0 < base → 0 < Nat.pow base n := fun _ => Nat.pow_pos
  exact ⟨Nat.mul_pos (hpower _ (by omega)) (hpower _ (by omega)),
    Nat.mul_pos (hpower _ (by omega)) (hpower _ (by omega))⟩

/-- Zero does not round to a number whose interval is above it. -/
theorem holds_zero (h : i.below < i.quarters) (k : Int) : i.holds k 0 = false := by
  have hlow : 0 < (i.quarters - i.below) * (i.scales k).1 :=
    Nat.mul_pos (Nat.sub_pos_of_lt h) (i.scales_pos k).1
  simp only [holds, Nat.zero_mul]
  split
  · simp [Nat.not_le.2 hlow]
  · simp

theorem neighbour?_pos (h : i.below < i.quarters) {k : Int} {x : Nat}
    (hx : i.neighbour? tie k = some x) : 0 < x := by
  have hholds : ∀ {y}, i.holds k y = true → 0 < y := by
    intro y hy
    rcases Nat.eq_zero_or_pos y with rfl | hpos
    · simp [holds_zero h k] at hy
    · exact hpos
  simp only [neighbour?] at hx
  split at hx
  · cases hx
  · next hdown _ =>
      obtain rfl := Option.some.inj hx
      exact hholds hdown
  · obtain rfl := Option.some.inj hx
    exact Nat.succ_pos _
  · next hdown _ =>
      split at hx
      · obtain rfl := Option.some.inj hx
        exact hholds hdown
      split at hx
      · obtain rfl := Option.some.inj hx
        exact Nat.succ_pos _
      · cases tie with
        | up =>
            obtain rfl := Option.some.inj hx
            exact Nat.succ_pos _
        | even =>
            obtain rfl := Option.some.inj hx
            split
            · exact hholds hdown
            · exact Nat.succ_pos _

/-- No grid down from that of the leading digit is too coarse for the number. -/
theorem scales_le (h : 0 < i.quarters) {k : Int} (hk : k ≤ i.leading) :
    (i.scales k).2 ≤ i.quarters * (i.scales k).1 := by
  let num := i.quarters * 2 ^ i.exponent.toNat
  let step := 2 ^ (-i.exponent).toNat
  have hscales : ∀ k, (i.scales k).2 = 10 ^ k.toNat * step ∧
      i.quarters * (i.scales k).1 = num * 10 ^ (-k).toNat := fun k =>
    ⟨rfl, (Nat.mul_assoc _ _ _).symm⟩
  have hnum : 0 < num := Nat.mul_pos h (Nat.pow_pos (by omega))
  have hstep : 0 < step := Nat.pow_pos (by omega)
  rw [(hscales k).1, (hscales k).2]
  have hleading : i.leading = if step ≤ num then ((Nat.toDigits 10 (num / step)).length : Int) - 1
      else -((Nat.toDigits 10 ((step - 1) / num)).length : Int) := by
    simp [leading, scales, num, step]
  rw [hleading] at hk
  split at hk
  · next hle =>
      -- The leading digit is a whole one: its power of ten goes into the number.
      have hquotient : 10 ^ k.toNat ≤ num / step := by
        rcases Nat.eq_zero_or_pos k.toNat with hzero | hpos
        · rw [hzero]
          exact Nat.div_pos hle hstep
        · rw [← Nat.not_lt, ← Nat.length_toDigits_le_iff (by omega) hpos]
          omega
      calc 10 ^ k.toNat * step ≤ num / step * step := Nat.mul_le_mul_right _ hquotient
        _ ≤ num := Nat.div_mul_le_self _ _
        _ ≤ num * 10 ^ (-k).toNat := Nat.le_mul_of_pos_right _ (Nat.pow_pos (by omega))
  · next hlt =>
      let length := (Nat.toDigits 10 ((step - 1) / num)).length
      have hpos : 0 < length := Nat.length_toDigits_pos
      have hquotient : (step - 1) / num < 10 ^ length :=
        (Nat.length_toDigits_le_iff (by omega) hpos).1 (Nat.le_refl _)
      have hbound : step ≤ num * 10 ^ length := by
        have hless := (Nat.div_lt_iff_lt_mul hnum).1 hquotient
        rw [Nat.mul_comm] at hless
        omega
      have hzero : k.toNat = 0 := by omega
      rw [hzero, Nat.pow_zero, Nat.one_mul]
      exact Nat.le_trans hbound
        (Nat.mul_le_mul_left _ (Nat.pow_le_pow_right (by omega) (by omega)))

theorem search_pos (h : i.below < i.quarters) (fuel : Nat) {k : Int} (hk : k ≤ i.leading) :
    0 < (i.search tie fuel k).1 := by
  fun_induction i.search tie fuel k with
  | case1 k => exact Nat.div_pos (scales_le (Nat.zero_lt_of_lt h) hk) (i.scales_pos k).2
  | case2 fuel k x hx => exact neighbour?_pos h hx
  | case3 fuel k _ ih => exact ih (by omega)

end Interval

theorem digitsValue_zeros {digits : List Char} (h : ∀ c ∈ digits, c = '0') :
    Text.digitsValue digits = 0 := by
  induction digits using List.reverseRecOn with
  | nil => rfl
  | append_singleton digits c ih =>
      obtain ⟨hdigits, hc⟩ := List.forall_mem_append.1 h
      rw [Text.digitsValue_append, ih hdigits, hc c List.mem_cons_self]
      rfl

variable {f : Format} {significand : Nat}

/-- The shortest digits of a number are digits, and there is one. -/
theorem Format.digits_shortest (f : Format) (tie : Tie) (h : 0 < significand) (exponent : Int) :
    (f.shortest tie significand exponent).digits ≠ [] ∧
      ∀ c ∈ (f.shortest tie significand exponent).digits, c.isDigit = true := by
  let i := f.interval significand exponent
  have hbelow : i.below < i.quarters := by
    have hreach : i.below ≤ 2 := by
      simp only [i, interval]
      split <;> omega
    have hquarters : i.quarters = 4 * significand := rfl
    omega
  have hpos : 0 < (i.search tie f.fractionBits i.leading).1 :=
    Interval.search_pos hbelow _ (Int.le_refl _)
  have hdigits : (f.shortest tie significand exponent).digits =
      ((Nat.toDigits 10 (i.search tie f.fractionBits i.leading).1).reverse.dropWhile
        (· = '0')).reverse := rfl
  generalize (i.search tie f.fractionBits i.leading).1 = x at hpos hdigits
  rw [hdigits]
  refine ⟨fun hnil => ?_, fun c hc => ?_⟩
  · rw [List.reverse_eq_nil_iff, List.dropWhile_eq_nil_iff] at hnil
    have hzeros : ∀ c ∈ Nat.toDigits 10 x, c = '0' := fun c hc =>
      of_decide_eq_true (hnil c (List.mem_reverse.2 hc))
    have hvalue := digitsValue_zeros hzeros
    rw [Text.digitsValue_toDigits] at hvalue
    omega
  · have hmem : c ∈ Nat.toDigits 10 x :=
      List.mem_reverse.1 ((List.dropWhile_sublist _).subset (List.mem_reverse.1 hc))
    exact Text.isDigit_of_mem_toDigits hmem

end ClassScript.Number
