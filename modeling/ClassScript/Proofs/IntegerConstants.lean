import ClassScript.Proofs.ReadBack
import ClassScript.Script.Constant

/-!
Integer constants read back. A reader of decimal text finds in the constant of a 32-bit
integer that integer, and in the two words of a 64-bit constant numbers that make up the
integer it was written for: the high word counts multiples of 4294967296, and the low
word, taken modulo that number, is what is left.
-/

namespace ClassScript.Script

/-- The decimal number that a text begins with, and the rest of the text. -/
def readInteger? (text : List Char) : Option (Int × List Char) :=
  if text.head? = some '-' then
    (readNatural? text.tail).map fun (n, rest) => (-(n : Int), rest)
  else (readNatural? text).map fun (n, rest) => ((n : Int), rest)

/-- The number that a text stands for: decimal text, in parentheses if it is negative. -/
def readOperand? (text : List Char) : Option Int :=
  if text.head? = some '(' then do
    let (v, rest) ← readInteger? text.tail
    if v < 0 ∧ rest = [')'] then some v else none
  else do
    let (v, rest) ← readInteger? text
    if 0 ≤ v ∧ rest = [] then some v else none

/-- The two words of a 64-bit constant, the high one first. -/
def readWords? (text : List Char) : Option (Int × Int) := do
  let text ← text.dropPrefix? "N.lnew(".toList
  let (high, text) ← readInteger? text
  let text ← text.dropPrefix? ", ".toList
  let (low, text) ← readInteger? text
  if text = [')'] then some (high, low) else none

section Reading

variable {rest : List Char}

theorem head?_natural_append (n : Nat) {c : Char} (hc : c.isDigit = false) :
    ((Text.natural n).toList ++ rest).head? ≠ some c := by
  intro h
  have hdigit := Text.head?_toDigits_isDigit n
  rw [Text.natural, String.toList_ofList, List.head?_append_of_ne_nil _ Nat.toDigits_ne_nil] at h
  rw [h, Option.any_some, hc] at hdigit
  cases hdigit

/-- A number is read with its sign, up to the first character that is no digit. -/
theorem readInteger?_integer (v : Int) (hrest : rest.head?.all (!·.isDigit) = true) :
    readInteger? ((Text.integer v).toList ++ rest) = some (v, rest) := by
  have hread : readNatural? ((Text.natural v.natAbs).toList ++ rest) = some (v.natAbs, rest) :=
    readNatural?_natural v.natAbs hrest
  unfold Text.integer
  split
  · next hneg =>
      have hvalue : -(v.natAbs : Int) = v := by omega
      rw [String.toList_append, List.append_assoc]
      show (readNatural? ((Text.natural v.natAbs).toList ++ rest)).map _ = _
      simp only [hread, Option.map_some, hvalue]
  · next hpos =>
      have hvalue : (v.natAbs : Int) = v := by omega
      rw [readInteger?, if_neg (head?_natural_append v.natAbs rfl)]
      simp only [hread, Option.map_some, hvalue]

theorem readInteger?_text (v : Int) : readInteger? (Text.integer v).toList = some (v, []) := by
  have hread : readInteger? ((Text.integer v).toList ++ []) = some (v, []) :=
    readInteger?_integer v rfl
  rwa [List.append_nil] at hread

end Reading

/-- Parentheses stand around the text of a negative number, and of no other. -/
theorem wrapNegative_integer (v : Int) :
    wrapNegative (Text.integer v) =
      if v < 0 then "(" ++ Text.integer v ++ ")" else Text.integer v := by
  have hhead : (Text.integer v).toList.head? = some '-' ↔ v < 0 := by
    unfold Text.integer
    split
    · next hneg => exact iff_of_true (by rw [String.toList_append]; rfl) hneg
    · next hpos =>
        refine iff_of_false (fun h => ?_) hpos
        rw [← List.append_nil (Text.natural _).toList] at h
        exact head?_natural_append _ rfl h
  simp only [wrapNegative, hhead]

theorem readOperand?_integer (v : Int) :
    readOperand? (wrapNegative (Text.integer v)).toList = some v := by
  rw [wrapNegative_integer]
  split
  · next hneg =>
      have hread : readInteger? ((Text.integer v).toList ++ [')']) = some (v, [')']) :=
        readInteger?_integer v rfl
      rw [String.toList_append, String.toList_append, List.append_assoc]
      show (readInteger? ((Text.integer v).toList ++ [')'])).bind _ = _
      rw [hread]
      exact if_pos ⟨hneg, rfl⟩
  · next hpos =>
      have hhead : (Text.integer v).toList.head? ≠ some '(' := by
        rw [Text.integer, if_neg hpos, ← List.append_nil (Text.natural _).toList]
        exact head?_natural_append _ rfl
      rw [readOperand?, if_neg hhead, readInteger?_text]
      exact if_pos ⟨Int.not_lt.1 hpos, rfl⟩

theorem readWords?_long (v : Int64) :
    readWords? (constant (.long v)).toList = some ((highWord v).toInt, (lowWord v).toInt) := by
  have hlow : readInteger? ((Text.integer (lowWord v).toInt).toList ++ [')']) =
      some ((lowWord v).toInt, [')']) := readInteger?_integer _ rfl
  let behind := ", ".toList ++ ((Text.integer (lowWord v).toInt).toList ++ [')'])
  have hhigh : readInteger? ((Text.integer (highWord v).toInt).toList ++ behind) =
      some ((highWord v).toInt, behind) := readInteger?_integer _ rfl
  have htext : (constant (.long v)).toList =
      "N.lnew(".toList ++ ((Text.integer (highWord v).toInt).toList ++ behind) := by
    simp only [constant, behind, String.toList_append, List.append_assoc]
    rfl
  simp only [htext, readWords?, dropPrefix?_append, hhigh, behind, hlow, Option.bind_eq_bind,
    Option.bind_some, if_true]

/-- The high word counts the multiples of 4294967296, rounded down. -/
theorem toInt_highWord (v : Int64) : (highWord v).toInt = v.toInt / 4294967296 := by
  have hshift : (v >>> 32).toInt = v.toInt / 4294967296 := by
    rw [← Int64.toInt_toBitVec, Int64.toBitVec_shiftRight]
    show (v.toBitVec.sshiftRight 32).toInt = _
    rw [BitVec.toInt_sshiftRight, Int.shiftRight_eq_div_pow]
    rfl
  have hfits : Int.bmod (v.toInt / 4294967296) 4294967296 = v.toInt / 4294967296 := by
    have hlow := v.le_toInt
    have hhigh := v.toInt_lt
    exact Int.bmod_eq_of_le (by omega) (by omega)
  rw [highWord, Int64.toInt_toInt32, hshift]
  exact hfits

theorem toInt_lowWord_emod (v : Int64) :
    (lowWord v).toInt % 4294967296 = v.toInt % 4294967296 := by
  rw [lowWord, Int64.toInt_toInt32]
  exact Int.bmod_emod

/-- The words make up the integer, also where the top bit of the low word is set. -/
theorem words_recompose (v : Int64) :
    (highWord v).toInt * 4294967296 + (lowWord v).toInt % 4294967296 = v.toInt := by
  rw [toInt_highWord, toInt_lowWord_emod]
  omega

/-- Integer constants keep their value. The constant of a 32-bit integer is decimal text
that reads back as the integer, in parentheses if and only if it is negative. The constant
of a 64-bit integer gives two numbers to the runtime, both 32-bit signed integers, which
make up the integer. So different integers of one width have different constants. -/
theorem constant_keeps_value :
    (∀ v : Int32, ∃ text, readInteger? text.toList = some (v.toInt, []) ∧
      constant (.int v) = (if v < 0 then "(" ++ text ++ ")" else text) ∧
      readOperand? (constant (.int v)).toList = some v.toInt) ∧
    (∀ v : Int64, ∃ high low : String, ∃ h l : Int,
      constant (.long v) = "N.lnew(" ++ high ++ ", " ++ low ++ ")" ∧
      readInteger? high.toList = some (h, []) ∧ readInteger? low.toList = some (l, []) ∧
      readWords? (constant (.long v)).toList = some (h, l) ∧
      (-2147483648 ≤ h ∧ h ≤ 2147483647) ∧ (-2147483648 ≤ l ∧ l ≤ 2147483647) ∧
      h * 4294967296 + l % 4294967296 = v.toInt) ∧
    (∀ v w : Int32, constant (.int v) = constant (.int w) ↔ v = w) ∧
    (∀ v w : Int64, constant (.long v) = constant (.long w) ↔ v = w) := by
  have hbounds : ∀ w : Int32, -2147483648 ≤ w.toInt ∧ w.toInt ≤ 2147483647 := fun w =>
    ⟨w.le_toInt, Int.le_of_lt_add_one w.toInt_lt⟩
  refine ⟨fun v => ?_, fun v => ?_, fun v w => ⟨fun h => ?_, fun h => h ▸ rfl⟩,
    fun v w => ⟨fun h => ?_, fun h => h ▸ rfl⟩⟩
  · refine ⟨Text.integer v.toInt, readInteger?_text v.toInt, ?_, readOperand?_integer v.toInt⟩
    have hneg : v.toInt < (0 : Int32).toInt ↔ v < 0 := Int32.lt_iff_toInt_lt.symm
    rw [constant, wrapNegative_integer]
    simp only [show v.toInt < 0 ↔ v < 0 from hneg]
  · exact ⟨_, _, _, _, rfl, readInteger?_text _, readInteger?_text _, readWords?_long v,
      hbounds _, hbounds _, words_recompose v⟩
  · have hread : some v.toInt = some w.toInt := by
      rw [← readOperand?_integer v.toInt, ← readOperand?_integer w.toInt]
      exact congrArg (fun text => readOperand? text.toList) h
    exact Int32.toInt_inj.1 (Option.some.inj hread)
  · have hread := congrArg (fun text => readWords? text.toList) h
    simp only [readWords?_long, Option.some.injEq, Prod.mk.injEq] at hread
    have hsame : v.toInt = w.toInt := by
      rw [← words_recompose v, ← words_recompose w, hread.1, hread.2]
    exact Int64.toInt_inj.1 hsame

/-- A low word with its top bit set is written as negative; the high word does not change. -/
example : constant (.long 6442450943) = "N.lnew(1, 2147483647)" ∧
    constant (.long 6442450944) = "N.lnew(1, -2147483648)" ∧
    constant (.long (-9223372036854775808)) = "N.lnew(-2147483648, 0)" ∧
    constant (.int (-2147483648)) = "(-2147483648)" := by
  decide +kernel

end ClassScript.Script
