import ClassScript.Output.StringPool
import ClassScript.Proofs.DocText
import ClassScript.Proofs.LeafText
import ClassScript.Proofs.QuotedText

/-!
What literals are put into, read back: the line that one stands on, the block that
fills the pool, and accesses to members. A reader of the output finds in it the texts
that were given, and so no two different ones are written alike.
-/

namespace ClassScript.Script

open Output Reading

theorem exists_of_mem_hexDigits {width n : Nat} {c : Char} (h : c ∈ Text.hexDigits width n) :
    ∃ d < 16, Text.hexDigit d = c := by
  induction width with
  | zero => cases h
  | succ width ih =>
      rcases List.mem_cons.1 h with rfl | hrest
      · exact ⟨_, Nat.mod_lt _ (by omega), rfl⟩
      · exact ih hrest

/-- Digits of an escape are no quotes and no backslashes, and none of them would end a line. -/
theorem plain_of_mem_hexDigits {width n : Nat} {c : Char} (h : c ∈ Text.hexDigits width n) :
    c ≠ '"' ∧ c ≠ '\\' ∧ 0x20 ≤ c.toNat ∧ c ≠ '\u2028' ∧ c ≠ '\u2029' := by
  have hdigit : ∀ d, d < 16 → Text.hexDigit d ≠ '"' ∧ Text.hexDigit d ≠ '\\' ∧
      0x20 ≤ (Text.hexDigit d).toNat ∧ Text.hexDigit d ≠ '\u2028' ∧
      Text.hexDigit d ≠ '\u2029' := by decide
  obtain ⟨d, hd, rfl⟩ := exists_of_mem_hexDigits h
  exact hdigit d hd

/-- No character of a literal ends a line, to the script or to its readers. -/
theorem unbroken_of_mem_literal {s : List Char} {c : Char} (h : c ∈ literal s) :
    0x20 ≤ c.toNat ∧ c ≠ '\u2028' ∧ c ≠ '\u2029' := by
  have hquote : 0x20 ≤ '"'.toNat ∧ '"' ≠ '\u2028' ∧ '"' ≠ '\u2029' := by decide
  have hescape : ∀ d, ∀ c ∈ escape d, 0x20 ≤ c.toNat ∧ c ≠ '\u2028' ∧ c ≠ '\u2029' := by
    intro d
    unfold escape
    split
    · exact forall_mem_of_all (by decide)
    split
    · exact forall_mem_of_all (by decide)
    split
    · exact forall_mem_of_all (by decide)
    split
    · exact forall_mem_of_all (by decide)
    split
    · exact forall_mem_of_all (by decide)
    split
    · intro c hc
      rcases List.mem_cons.1 hc with rfl | hc
      · decide
      rcases List.mem_cons.1 hc with rfl | hc
      · decide
      exact (plain_of_mem_hexDigits hc).2.2
    · next hother =>
        simp only [not_or, Nat.not_lt] at hother
        intro c hc
        exact List.mem_singleton.1 hc ▸ hother
  simp only [literal, List.mem_cons, List.mem_append, List.mem_flatMap, List.not_mem_nil,
    or_false] at h
  rcases h with rfl | ⟨d, -, hc⟩ | rfl
  · exact hquote
  · exact hescape d c hc
  · exact hquote

theorem toList_quote (s : String) : (quote s).toList = literal s.toList :=
  String.toList_ofList

theorem newline_not_mem_quote (s : String) : '\n' ∉ (quote s).toList := by
  intro h
  rw [toList_quote] at h
  exact absurd (unbroken_of_mem_literal h).1 (by decide)

/-- The decimal digits that a text begins with, as a number, and the rest of the text.
Digits that start with a zero are refused unless that zero is all. -/
def readNatural? (text : List Char) : Option (Nat × List Char) :=
  if text.head?.any (·.isDigit) then
    (numeral? (text.takeWhile (·.isDigit))).map (·, text.dropWhile (·.isDigit))
  else none

theorem dropPrefix?_append (front rest : List Char) :
    (front ++ rest).dropPrefix? front = some rest :=
  List.dropPrefix?_append_of_beq rest (beq_self_eq_true front)

/-- The digits of a number end at the first character that is no digit. -/
theorem digits_natural_append (n : Nat) {rest : List Char}
    (hrest : rest.head?.all (!·.isDigit) = true) :
    ((Text.natural n).toList ++ rest).head?.any (·.isDigit) = true ∧
      ((Text.natural n).toList ++ rest).takeWhile (·.isDigit) = Nat.toDigits 10 n ∧
      ((Text.natural n).toList ++ rest).dropWhile (·.isDigit) = rest := by
  have hdigits : ∀ c ∈ Nat.toDigits 10 n, c.isDigit = true := fun c hc =>
    Text.isDigit_of_mem_toDigits hc
  rw [Text.natural, String.toList_ofList]
  refine ⟨?_, takeWhile_dropWhile_append hdigits hrest⟩
  rw [List.head?_append_of_ne_nil _ Nat.toDigits_ne_nil]
  exact Text.head?_toDigits_isDigit n

/-- A number is read up to the first character that is no digit. -/
theorem readNatural?_natural (n : Nat) {rest : List Char}
    (hrest : rest.head?.all (!·.isDigit) = true) :
    readNatural? ((Text.natural n).toList ++ rest) = some (n, rest) := by
  obtain ⟨hhead, htake, hdrop⟩ := digits_natural_append n hrest
  rw [readNatural?, if_pos hhead, htake, hdrop, numeral?_toDigits, Option.map_some]

/-- Whether a character may stand in a name behind a dot. -/
def isPlainChar (c : Char) : Bool :=
  Text.isAlphabetic c || c.isDigit || c = '_'

theorem isPlainChar_of_isPlain {name : List Char} (h : isPlain name = true) {c : Char}
    (hc : c ∈ name) : isPlainChar c = true := by
  cases name with
  | nil => cases h
  | cons first rest =>
      rw [isPlain, Bool.and_eq_true, List.all_eq_true] at h
      rcases List.mem_cons.1 hc with rfl | hrest
      · have hfirst := h.1
        simp only [Bool.or_eq_true] at hfirst
        simp only [isPlainChar, Bool.or_eq_true]
        tauto
      · exact h.2 c hrest

/-- A name that may follow a dot is made of characters of variables. -/
theorem isVariableChar_of_isPlain {name : List Char} (h : isPlain name = true) {c : Char}
    (hc : c ∈ name) : isVariableChar c = true := by
  have hchar := isPlainChar_of_isPlain h hc
  simp only [isPlainChar, Bool.or_eq_true, decide_eq_true_eq] at hchar
  rcases hchar with (hletter | hdigit) | rfl
  · simp [isVariableChar, Text.isAlphanumeric_of_isAlphabetic hletter]
  · exact isVariableChar_of_isDigit hdigit
  · decide

end ClassScript.Script
