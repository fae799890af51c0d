import ClassScript.Proofs.LeafText

/-!
Which source names come to which variable. A character that may not stand in a variable
is read as `_`, a name that is empty or begins with a digit gets one in front, and a
reserved name one behind. Nothing else is done to a name, so names meet in these three
ways only.
-/

namespace ClassScript.Script

/-- The name with `_` for every character that may not stand in a variable. -/
def plainChars (name : List Char) : List Char :=
  name.map fun c => if isVariableChar c then c else '_'

/-- Whether a name needs a `_` in front: it is empty or begins with a digit. -/
def needsFront (name : List Char) : Bool :=
  name.head?.all (·.isDigit)

theorem needsFront_eq_false_iff {chars : List Char} :
    needsFront chars = false ↔ chars ≠ [] ∧ ∀ c ∈ chars.head?, c.isDigit = false := by
  cases chars with
  | nil => simp [needsFront]
  | cons first rest => simp [needsFront]

/-- The name as far as characters decide: what is written if it is not reserved. -/
def cleaned (name : String) : String :=
  String.ofList (variableChars name.toList)

theorem variableChars_eq (name : List Char) :
    variableChars name =
      if needsFront (plainChars name) then '_' :: plainChars name else plainChars name := by
  simp only [variableChars, plainChars, needsFront]
  split
  · next hnil => simp [hnil]
  · next first rest hchars => simp [hchars]

theorem plainChars_of_variable {name : List Char} (h : ∀ c ∈ name, isVariableChar c = true) :
    plainChars name = name :=
  (List.map_congr_left fun c hc => if_pos (h c hc)).trans (List.map_id _)

/-- A word is not changed as far as characters decide. -/
theorem cleaned_of_word {name : String} (hchars : ∀ c ∈ name.toList, isVariableChar c = true)
    (hfront : needsFront name.toList = false) : cleaned name = name := by
  rw [cleaned, variableChars_eq, plainChars_of_variable hchars, hfront, if_neg Bool.false_ne_true,
    String.ofList_toList]

theorem variableName_eq (name : String) :
    variableName name = if isReserved (cleaned name) then cleaned name ++ "_" else cleaned name := rfl

/-- A word is the variable for the names that are cleaned to it, unless it is reserved,
and a reserved word with `_` behind it also for those that are cleaned to the reserved
one. -/
theorem variableName_eq_iff {name word : String} : variableName name = word ↔
    isReserved word = false ∧ cleaned name = word ∨
      isReserved (cleaned name) = true ∧ cleaned name ++ "_" = word := by
  rw [variableName_eq]
  cases hreserved : isReserved (cleaned name) with
  | true =>
      refine ⟨fun h => .inr ⟨rfl, h⟩, ?_⟩
      rintro (⟨hword, rfl⟩ | ⟨-, h⟩)
      · rw [hword] at hreserved
        cases hreserved
      · exact h
  | false =>
      refine ⟨?_, ?_⟩
      · rintro rfl
        exact .inl ⟨hreserved, rfl⟩
      · rintro (⟨-, h⟩ | ⟨htrue, -⟩)
        · exact h
        · cases htrue

/-- Two names that the cleaning does not tell apart: they agree where neither has a
character to be replaced, or one of them has a `_` in front that the other one gets. -/
def Alike (name other : String) : Prop :=
  plainChars name.toList = plainChars other.toList ∨
    needsFront (plainChars name.toList) = true ∧
      plainChars other.toList = '_' :: plainChars name.toList ∨
    needsFront (plainChars other.toList) = true ∧
      plainChars name.toList = '_' :: plainChars other.toList

instance (name other : String) : Decidable (Alike name other) :=
  inferInstanceAs (Decidable (_ ∨ _ ∧ _ ∨ _ ∧ _))

theorem cleaned_eq_iff {name other : String} : cleaned name = cleaned other ↔ Alike name other := by
  have hchars : cleaned name = cleaned other ↔
      variableChars name.toList = variableChars other.toList := by
    rw [cleaned, cleaned, String.ofList_inj]
  rw [hchars, variableChars_eq, variableChars_eq, Alike]
  cases hname : needsFront (plainChars name.toList) with
  | true =>
      cases hother : needsFront (plainChars other.toList) with
      | true =>
          have hne : ∀ {chars more : List Char}, needsFront chars = true → chars ≠ '_' :: more := by
            rintro chars more h rfl
            cases h
          simp [hne hname, hne hother]
      | false =>
          have hne : plainChars name.toList ≠ plainChars other.toList := by
            intro heq
            rw [heq, hother] at hname
            cases hname
          simp [hne, eq_comm]
  | false =>
      cases hother : needsFront (plainChars other.toList) with
      | true =>
          have hne : plainChars name.toList ≠ plainChars other.toList := by
            intro heq
            rw [heq, hother] at hname
            cases hname
          simp [hne]
      | false => simp

/-- Two names that come to one variable: alike, or alike but for the `_` that one of
them gets behind because it is reserved. -/
def Meet (name other : String) : Prop :=
  Alike name other ∨
    isReserved (cleaned name) = true ∧ cleaned name ++ "_" = cleaned other ∨
    isReserved (cleaned other) = true ∧ cleaned other ++ "_" = cleaned name

instance (name other : String) : Decidable (Meet name other) :=
  inferInstanceAs (Decidable (_ ∨ _ ∧ _ ∨ _ ∧ _))

theorem variableName_inj {name other : String} :
    variableName name = variableName other ↔ Meet name other := by
  rw [variableName_eq_iff, Meet, ← cleaned_eq_iff, variableName_eq other]
  cases hother : isReserved (cleaned other) with
  | true =>
      have hfree := isReserved_append_underscore hother
      simp only [if_true, hfree, true_and]
      constructor
      · rintro (h | ⟨-, h⟩)
        · exact .inr (.inr h.symm)
        · exact .inl (String.append_left_inj _ |>.1 h)
      · rintro (h | ⟨hname, h⟩ | h)
        · exact .inr ⟨h ▸ hother, by rw [h]⟩
        · rw [← h, isReserved_append_underscore hname] at hother
          cases hother
        · exact .inl h.symm
  | false => simp [hother]

/-- Names that are variables of the script already meet only if they are equal or one is
reserved and the other has a `_` more at its end. -/
theorem meet_of_words {name other : String}
    (hname : ∀ c ∈ name.toList, isVariableChar c = true) (hfront : needsFront name.toList = false)
    (hother : ∀ c ∈ other.toList, isVariableChar c = true)
    (hfront' : needsFront other.toList = false) :
    Meet name other ↔ name = other ∨ isReserved name = true ∧ name ++ "_" = other ∨
      isReserved other = true ∧ other ++ "_" = name := by
  rw [Meet, ← cleaned_eq_iff, cleaned_of_word hname hfront, cleaned_of_word hother hfront']

end ClassScript.Script
