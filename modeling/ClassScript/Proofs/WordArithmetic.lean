import ClassScript.Proofs.IntegerExpr
import ClassScript.Proofs.ScriptValue

/-!
Integer and boolean operators by the operators of the script language. Sums and
differences of 32-bit integers are exact there, and taking their low 32 bits
wraps them.
-/

namespace ClassScript.Integers

open Reading

/-- The script value that stands for a value. -/
def Datum.value : Datum → Value
  | .int v => .number v.toInt
  | .bool b => .boolean b

@[simp]
theorem word_int (v : Int32) : (Datum.int v).value.word = v.toBitVec :=
  BitVec.ofInt_toInt

@[simp]
theorem word_signed (bits : BitVec 32) : (Value.signed bits).word = bits :=
  BitVec.ofInt_toInt

@[simp]
theorem word_unsigned (bits : BitVec 32) : (Value.unsigned bits).word = bits := by
  simp [Value.unsigned, Value.word, Value.integer]

@[simp]
theorem integer_int (v : Int32) : (Datum.int v).value.integer = v.toInt := rfl

@[simp]
theorem distance_int (v : Int32) : (Datum.int v).value.distance = distance v := by
  rw [Value.distance, word_int, distance]

theorem toInt_bounds (v : Int32) : -2147483648 ≤ v.toInt ∧ v.toInt ≤ 2147483647 :=
  ⟨v.le_toInt, Int.le_of_lt_add_one v.toInt_lt⟩

/-- The sum of two integers has the low bits of their wrapped sum. -/
theorem add_int (l r : Int32) : ∃ v, (Datum.int l).value.add? (Datum.int r).value = some v ∧
    v.word = (l + r).toBitVec := by
  have hl := toInt_bounds l
  have hr := toInt_bounds r
  refine ⟨.number (l.toInt + r.toInt), ?_, ?_⟩
  · have hsmall : (l.toInt + r.toInt).natAbs < 2 ^ 53 := by omega
    have hne : (Datum.int l).value ≠ .minusZero := by simp [Datum.value]
    rw [Value.add?, if_neg fun h => hne h.1, integer_int, integer_int, Value.ofInt?_of_lt hsmall]
  · simp [Value.word, Value.integer, BitVec.ofInt_add]

theorem integer_negate (v : Value) : v.negate.integer = -v.integer := by
  have hsplit : ∀ n : Int, (if n = 0 then Value.minusZero else .number (-n)).integer = -n := by
    intro n
    split
    · next h => rw [h]; rfl
    · rfl
  cases v with
  | number n => exact hsplit n
  | minusZero => rfl
  | boolean b => exact hsplit (if b then 1 else 0)

theorem word_negate (v : Value) : v.negate.word = -v.word := by
  simp [Value.word, integer_negate, BitVec.ofInt_neg]

theorem sub_int (l r : Int32) : ∃ v, (Datum.int l).value.add? (Datum.int r).value.negate = some v ∧
    v.word = (l - r).toBitVec := by
  have hl := toInt_bounds l
  have hr := toInt_bounds r
  refine ⟨.number (l.toInt - r.toInt), ?_, ?_⟩
  · have hsmall : (l.toInt - r.toInt).natAbs < 2 ^ 53 := by omega
    have hne : (Datum.int l).value ≠ .minusZero := by simp [Datum.value]
    rw [Value.add?, if_neg fun h => hne h.1, integer_negate, integer_int, integer_int,
      ← Int.sub_eq_add_neg, Value.ofInt?_of_lt hsmall]
  · simp [Value.word, Value.integer, Int.sub_eq_add_neg, BitVec.ofInt_add, BitVec.ofInt_neg,
      BitVec.sub_eq_add_neg]

/-- Shifting out all but the low bits and back extends their sign. -/
theorem shift_signExtend (bits : BitVec 32) (low : Nat) (hpos : 0 < low) (hlow : low ≤ 32) :
    (bits <<< (32 - low)).sshiftRight (32 - low) = (bits.signExtend low).signExtend 32 := by
  rw [BitVec.signExtend_eq_setWidth_of_le bits hlow]
  ext i hi
  rw [BitVec.getElem_sshiftRight, BitVec.getElem_signExtend]
  grind

theorem and_mask (bits : BitVec 32) :
    bits &&& BitVec.ofInt 32 65535 = (bits.setWidth 16).setWidth 32 := by
  have hmask : BitVec.ofInt 32 65535 = (BitVec.allOnes 16).setWidth 32 := by decide
  ext i hi
  simp only [hmask, BitVec.getElem_and, BitVec.getElem_setWidth, BitVec.getLsbD_allOnes,
    BitVec.getLsbD_setWidth]
  grind

end ClassScript.Integers
