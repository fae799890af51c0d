import ClassScript.Proofs.Lists
import ClassScript.Proofs.OperandText

/-!
Numbers, constants and variables in script text, read back. The name of a
variable is a word that neither the language nor the runtime has taken.
-/

namespace ClassScript

namespace Text

theorem digitsValue_append (digits : List Char) (c : Char) :
    digitsValue (digits ++ [c]) = digitsValue digits * 10 + (c.toNat - 48) := by
  simp [digitsValue]

/-- Decimal digits stand for the number that they were made of. -/
theorem digitsValue_toDigits (n : Nat) : digitsValue (Nat.toDigits 10 n) = n := by
  induction n using Nat.strongRecOn with
  | ind n ih =>
      rcases Nat.lt_or_ge n 10 with hlt | hge
      · rw [Nat.toDigits_of_lt_base hlt]
        simp [digitsValue, Nat.toNat_digitChar_of_lt_ten hlt]
      · have hrest : n / 10 < n := by omega
        have hlast : n % 10 < 10 := by omega
        rw [Nat.toDigits_of_base_le (by omega) hge, digitsValue_append, ih _ hrest,
          Nat.toNat_digitChar_sub_48_of_lt_ten hlast]
        omega

theorem isDigit_of_mem_toDigits {n : Nat} {c : Char} (h : c ∈ Nat.toDigits 10 n) :
    c.isDigit = true :=
  Nat.isDigit_of_mem_toDigits (by omega) (by omega) h

theorem head?_toDigits_isDigit (n : Nat) : (Nat.toDigits 10 n).head?.any (·.isDigit) = true :=
  any_head?_of_forall Nat.toDigits_ne_nil fun _ hc => isDigit_of_mem_toDigits hc

theorem oneLine_append {a b : String} (ha : '\n' ∉ a.toList) (hb : '\n' ∉ b.toList) :
    '\n' ∉ (a ++ b).toList := by
  simp [ha, hb]

theorem oneLine_intercalate {separator : String} (hseparator : '\n' ∉ separator.toList)
    {texts : List String} (h : ∀ text ∈ texts, '\n' ∉ text.toList) :
    '\n' ∉ (separator.intercalate texts).toList :=
  holds_intercalate (P := fun text => '\n' ∉ text.toList) (by simp)
    (fun htext hmore => oneLine_append (oneLine_append htext hseparator) hmore) h

theorem oneLine_natural (n : Nat) : '\n' ∉ (natural n).toList := by
  intro h
  have hdigit : '\n'.isDigit = true :=
    isDigit_of_mem_toDigits (by simpa [natural] using h)
  exact absurd hdigit (by decide)

theorem oneLine_integer (v : Int) : '\n' ∉ (integer v).toList := by
  unfold integer
  split
  · exact oneLine_append (by decide) (oneLine_natural _)
  · exact oneLine_natural _

/-- Only zero starts with a zero. -/
theorem head?_toDigits {n : Nat} (h : (Nat.toDigits 10 n).head? = some '0') : n = 0 := by
  induction n using Nat.strongRecOn with
  | ind n ih =>
      rcases Nat.lt_or_ge n 10 with hlt | hge
      · rw [Nat.toDigits_of_lt_base hlt] at h
        simpa using h
      · have hrest : n / 10 < n := by omega
        have hne : Nat.toDigits 10 (n / 10) ≠ [] := Nat.toDigits_ne_nil
        rw [Nat.toDigits_of_base_le (by omega) hge, List.head?_append_of_ne_nil _ hne] at h
        have hzero := ih _ hrest h
        omega

end Text

namespace Script

theorem isVariableChar_of_isDigit {c : Char} (h : c.isDigit = true) : isVariableChar c = true := by
  have hascii : c.toNat < 128 := by
    simp only [Char.isDigit, Bool.and_eq_true, decide_eq_true_eq] at h
    have hle : c.toNat ≤ '9'.toNat := h.2
    have hnine : '9'.toNat = 57 := rfl
    omega
  simp [isVariableChar, Text.isAlphanumeric, hascii, Char.isAlphanum, h]

theorem isVariableChar_natural {n : Nat} {c : Char} (hc : c ∈ (Text.natural n).toList) :
    isVariableChar c = true := by
  rw [Text.natural, String.toList_ofList] at hc
  exact isVariableChar_of_isDigit (Text.isDigit_of_mem_toDigits hc)

/-- A number between words is a word. -/
theorem isVariableChar_numbered {front back : String} (hfront : front.toList.all isVariableChar = true)
    (hback : back.toList.all isVariableChar = true) (n : Nat) :
    ∀ c ∈ (front ++ Text.natural n ++ back).toList, isVariableChar c = true := by
  rw [List.all_eq_true] at hfront hback
  simp only [String.toList_append, List.forall_mem_append]
  exact ⟨⟨hfront, fun _ hc => isVariableChar_natural hc⟩, hback⟩

/-- No reserved name begins with this letter. -/
theorem isReserved_of_head {word : String} (h : word.toList.head? = some 'J') :
    isReserved word = false := by
  have hnone : ∀ reserved ∈ runtimeNames ++ keywords, reserved.toList.head? ≠ some 'J' := by
    decide +kernel
  rw [Bool.eq_false_iff]
  intro hreserved
  refine hnone word ?_ h
  simpa [isReserved] using hreserved

theorem not_isWhitespace_of_isVariableChar {c : Char} (h : isVariableChar c = true) :
    c.isWhitespace = false := by
  rw [Bool.eq_false_iff]
  intro hblank
  have hblanks : [' ', '\t', '\r', '\n'].all (!isVariableChar ·) = true := by decide
  have hmem : c ∈ [' ', '\t', '\r', '\n'] := by simpa [Char.isWhitespace, or_assoc] using hblank
  have hother : (!isVariableChar c) = true := List.all_eq_true.1 hblanks c hmem
  simp [h] at hother

theorem mem_variableChars {name : List Char} {c : Char} (h : c ∈ variableChars name) :
    isVariableChar c = true := by
  have hunderscore : isVariableChar '_' = true := by decide
  have hkept : ∀ c ∈ name.map fun c => if isVariableChar c then c else '_',
      isVariableChar c = true := by
    intro c hc
    obtain ⟨d, _, rfl⟩ := List.mem_map.1 hc
    split
    · assumption
    · exact hunderscore
  simp only [variableChars] at h
  split at h
  · obtain rfl : c = '_' := by simpa using h
    exact hunderscore
  · next first rest hchars =>
      split at h
      · rcases List.mem_cons.1 h with rfl | hrest
        · exact hunderscore
        · exact hkept c (hchars ▸ hrest)
      · exact hkept c (hchars ▸ h)

theorem head?_variableChars (name : List Char) :
    ∃ c, (variableChars name).head? = some c ∧ c.isDigit = false := by
  simp only [variableChars]
  split
  · exact ⟨'_', rfl, rfl⟩
  · next first rest hchars =>
      split
      · exact ⟨'_', rfl, rfl⟩
      · next hdigit => exact ⟨first, by rw [hchars, List.head?_cons], by simpa using hdigit⟩

/-- A reserved name is not reserved any more with an underscore behind it. -/
theorem isReserved_append_underscore {name : String} (h : isReserved name = true) :
    isReserved (name ++ "_") = false := by
  have hall : ∀ name ∈ runtimeNames ++ keywords, isReserved (name ++ "_") = false := by
    decide +kernel
  apply hall name
  simpa [isReserved] using h

theorem isReserved_variableName (name : String) : isReserved (variableName name) = false := by
  simp only [variableName]
  split
  · next h => exact isReserved_append_underscore h
  · next h => simpa using h

theorem not_mem_of_isReserved {word : String} (h : isReserved word = false) :
    word ∉ runtimeNames ∧ word ∉ keywords := by
  simpa [isReserved] using h

theorem variableName_notMem_keywords (name : String) : variableName name ∉ keywords :=
  (not_mem_of_isReserved (isReserved_variableName name)).2

theorem variableName_ne_runtime (name : String) : variableName name ≠ "N" := by
  intro h
  have hreserved := isReserved_variableName name
  rw [h] at hreserved
  exact absurd hreserved (by decide)

/-- A variable's name is a word: its characters may stand in one, and the first
is no digit. -/
theorem variableName_word (name : String) :
    (∀ c ∈ (variableName name).toList, isVariableChar c = true) ∧
      ∃ c, (variableName name).toList.head? = some c ∧ c.isDigit = false := by
  obtain ⟨first, hfirst, hdigit⟩ := head?_variableChars name.toList
  have hchars : ∀ c ∈ variableChars name.toList, isVariableChar c = true :=
    fun c hc => mem_variableChars hc
  simp only [variableName]
  split
  · have hunderscore : isVariableChar '_' = true := by decide
    refine ⟨?_, first, by simp [List.head?_append, hfirst], hdigit⟩
    simpa [or_imp, forall_and, hunderscore] using hchars
  · exact ⟨by simpa using hchars, first, by simpa using hfirst, hdigit⟩

end Script

namespace Reading

open Script

/-- A word is gathered to its end. -/
theorem scan_word (chars : List Char) {more : List Char} (h : ∀ c ∈ more, isIdentifierPart c = true) :
    scan (.word chars) more = some ([], .word (chars ++ more)) := by
  induction more generalizing chars with
  | nil => simp [scan]
  | cons c rest ih =>
      have hc : (Pending.word chars).add? c = some (.word (chars ++ [c])) := by
        simp [Pending.add?, h c]
      rw [scan, hc]
      simpa using ih (chars ++ [c]) fun d hd => h d (List.mem_cons_of_mem _ hd)

theorem start?_word {c : Char} (h : isIdentifierStart c = true ∨ c.isDigit = true) :
    Pending.start? c = some (.word [c]) := by
  have hpart : isIdentifierPart c = true :=
    h.elim isIdentifierPart_of_start isIdentifierPart_of_isDigit
  rw [Pending.start?, isWhitespace_eq_false_of_part hpart, if_neg Bool.false_ne_true,
    if_pos (by simpa using h)]

theorem spells_word {first : Char} {rest : List Char} {ts : List Token}
    (hfirst : isIdentifierStart first = true ∨ first.isDigit = true)
    (hrest : ∀ c ∈ rest, isIdentifierPart c = true)
    (hts : (Pending.word (first :: rest)).tokens? = some ts) : Spells apart (first :: rest) ts := by
  have hscan : scan .blank (first :: rest) = some ([], .word (first :: rest)) := by
    have hstop : Pending.blank.add? first = none := rfl
    simp [scan, hstop, start?_word hfirst, scan_word [first] hrest, Pending.tokens?]
  refine ⟨[], _, ts, hscan, hts, rfl, fun c hc => ?_⟩
  have hother : isIdentifierPart c = false := hc
  simp [Pending.add?, hother]

theorem numeral?_toDigits (n : Nat) : numeral? (Nat.toDigits 10 n) = some n := by
  have hdigits : ∀ c ∈ Nat.toDigits 10 n, c.isDigit = true := fun c hc =>
    Text.isDigit_of_mem_toDigits hc
  unfold numeral?
  split
  · next digits heq =>
      have hx := hdigits 'x' (by simp [heq])
      exact absurd hx (by decide)
  · rw [if_pos, Text.digitsValue_toDigits]
    rw [Bool.and_eq_true, List.all_eq_true, Bool.or_eq_true, decide_eq_true_eq, decide_eq_true_eq]
    refine ⟨hdigits, ?_⟩
    by_cases hzero : (Nat.toDigits 10 n).head? = some '0'
    · right
      rw [Text.head?_toDigits hzero, Nat.toDigits_zero]
    · exact .inl hzero

/-- A natural number is one token. -/
theorem spells_natural (n : Nat) : Spells apart (Text.natural n).toList [.number n] := by
  have hchars : (Text.natural n).toList = Nat.toDigits 10 n := by simp [Text.natural]
  have hts : (Pending.word (Nat.toDigits 10 n)).tokens? = some [.number n] := by
    rw [Pending.tokens?, if_pos (Text.head?_toDigits_isDigit n), numeral?_toDigits]
    rfl
  have hdigits : ∀ c ∈ Nat.toDigits 10 n, c.isDigit = true := fun c hc =>
    Text.isDigit_of_mem_toDigits hc
  rw [hchars]
  obtain ⟨first, rest, hcons⟩ := List.exists_cons_of_ne_nil (Nat.toDigits_ne_nil (b := 10) (n := n))
  rw [hcons] at hts hdigits ⊢
  obtain ⟨hfirst, hrest⟩ := List.forall_mem_cons.1 hdigits
  exact spells_word (.inr hfirst) (fun c hc => isIdentifierPart_of_isDigit (hrest c hc)) hts

theorem operand_natural (n : Nat) : Operand (Text.natural n) (.number n) :=
  ⟨[.number n], spells_natural n, .number n⟩

/-- The tree of an integer; a negative one is the negation of a natural. -/
def integerTree (v : Int) : Tree :=
  if v < 0 then .unary "-" (.number v.natAbs) else .number v.natAbs

theorem spells_minus : Spells (fun c => c.isDigit = true) ['-'] [.sign "-"] := by
  refine ⟨[], .sign ['-'], [.sign "-"], by decide, by decide, rfl, fun c hc => ?_⟩
  have hsigns : ∀ s ∈ signs, s.toList.head? = some '-' → s.toList.getLast?.all (!·.isDigit) := by
    decide
  have hnone : isSign ['-', c] = false := by
    rw [isSign, List.any_eq_false]
    intro s hs heq
    rw [decide_eq_true_eq] at heq
    have hlast := hsigns s hs (by rw [heq]; rfl)
    simp [heq, hc] at hlast
  simp [Pending.add?, hnone]

theorem head?_natural_isDigit (n : Nat) : ∀ c ∈ (Text.natural n).toList.head?, c.isDigit = true := by
  intro c hc
  have hmem := List.mem_of_mem_head? hc
  simp only [Text.natural, String.toList_ofList] at hmem
  exact Text.isDigit_of_mem_toDigits hmem

theorem operand_decimal (v : Int) : Operand (Text.integer v) (integerTree v) := by
  unfold integerTree Text.integer
  split
  · have hne : (Text.natural v.natAbs).toList ≠ [] := by
      simp [Text.natural]
    have hspells : Spells apart (['-'] ++ (Text.natural v.natAbs).toList)
        ([.sign "-"] ++ [.number v.natAbs]) :=
      spells_minus.append (spells_natural _) hne (head?_natural_isDigit _)
    have htext : ("-" ++ Text.natural v.natAbs).toList =
        ['-'] ++ (Text.natural v.natAbs).toList := by simp
    have hminus : "-" ∈ unarySigns := by decide
    exact ⟨_, htext ▸ hspells, (Derives.number v.natAbs).unary hminus⟩
  · exact operand_natural _

/-- Brackets around a negative integer make no difference to what is read. -/
theorem operand_integer (v : Int) : Operand (wrapNegative (Text.integer v)) (integerTree v) := by
  unfold wrapNegative
  split
  · exact (operand_decimal v).group
  · exact operand_decimal v

theorem operand_word {name : String} {t : Tree} (hname : isWord name.toList = true)
    (hderives : Derives (.expression 12 t) [.word name]) : Operand name t := by
  obtain ⟨first, rest, hcons, hfirst, hrest⟩ := isWord_iff.1 hname
  have hsame : String.ofList (first :: rest) = name := by rw [← hcons, String.ofList_toList]
  have hts : (Pending.word (first :: rest)).tokens? = some [.word name] := by
    simp [Pending.tokens?, isDigit_eq_false_of_start hfirst, hsame]
  exact ⟨[.word name], hcons ▸ spells_word (.inl hfirst) hrest hts, hderives.tighter⟩

theorem operand_boolean (b : Bool) : Operand (constant (.bool b)) (.boolean b) := by
  cases b with
  | true => exact operand_word (by decide) (.boolean true)
  | false => exact operand_word (by decide) (.boolean false)

/-- An identifier is read as a variable. -/
theorem operand_reference {name : String} (h : IsIdentifier name) :
    Operand name (.reference name) :=
  operand_word h.1 (.reference h.2)

/-- A variable's name is none of the words that the language keeps, so its
characters decide whether it is an identifier. -/
theorem isIdentifier_variableName {name : String} :
    IsIdentifier (variableName name) ↔ isWord (variableName name).toList = true :=
  and_iff_left (notMem_reservedWords (variableName_notMem_keywords name))

end Reading

end ClassScript
