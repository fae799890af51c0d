import ClassScript.Proofs.DistinctVariables

/-!
Which variables of a function take the name of something else that its text refers to: of a
global, of a class, of a constructor of arrays, or of a variable that lowering adds. Only
the globals of the runtime are safe from it whatever the variables are called.
-/

namespace ClassScript

open Script Emission Output

section Spellings

variable {name word : String}

/-- Nothing but the word itself is cleaned to a word without `_`. -/
theorem cleaned_eq_word (hword : IsVariableWord word) (hplain : '_' ∉ word.toList) :
    cleaned name = word ↔ name = word := by
  constructor
  · intro h
    have hchars : variableChars name.toList = word.toList := by
      rw [← h, cleaned, String.toList_ofList]
    rw [variableChars_eq] at hchars
    split at hchars
    · rw [← hchars] at hplain
      exact absurd List.mem_cons_self hplain
    · -- What had been replaced would be a `_` in the word.
      have hkept : ∀ c ∈ name.toList, (if isVariableChar c then c else '_') = c := by
        intro c hc
        have hmem : (if isVariableChar c then c else '_') ∈ word.toList :=
          hchars ▸ List.mem_map_of_mem hc
        split at hmem
        · next hvariable => exact if_pos hvariable
        · exact absurd hmem hplain
      have hsame : plainChars name.toList = name.toList :=
        (List.map_congr_left hkept).trans (List.map_id _)
      exact String.toList_inj.1 (hsame.symm.trans hchars)
  · rintro rfl
    exact cleaned_of_word hword.1 hword.2

/-- No reserved name begins with this letter, so a word that does is the variable of those
names that are cleaned to it. -/
theorem variableName_eq_of_head (h : word.toList.head? = some 'J') :
    variableName name = word ↔ cleaned name = word := by
  rw [variableName_eq_iff, isReserved_of_head h]
  refine ⟨?_, fun hclean => .inl ⟨rfl, hclean⟩⟩
  rintro (⟨-, hclean⟩ | ⟨hreserved, rfl⟩)
  · exact hclean
  · have hhead : (cleaned name).toList.head? = some 'J' := by
      rw [String.toList_append, List.head?_append] at h
      cases hfirst : (cleaned name).toList.head? with
      | none =>
          rw [hfirst] at h
          cases h
      | some first => rwa [hfirst] at h
    rw [isReserved_of_head hhead] at hreserved
    cases hreserved

end Spellings

namespace Reference

/-- Whether the reference is to something that is no variable of the source, and no label,
which is looked up apart from variables. Names in spliced text are left aside: whoever
wrote them knew what variables are called. -/
def isOuter : Reference → Bool
  | .global _ | .ofClass _ | .array _ | .caught | .handled | .subject _ => true
  | .variable _ | .label _ | .chain _ | .raw _ => false

/-- Whether the variable of that name is written as the reference is. -/
def CapturedBy (name : String) : Reference → Prop
  | .global .runtime | .global .pool => False
  | .global g => name = g.spelling
  | .ofClass n => isReserved n.identifier = false ∧ cleaned name = n.identifier ∨
      isReserved (cleaned name) = true ∧ cleaned name ++ "_" = n.identifier
  | .array type => cleaned name = arrayConstructor type
  | .caught => cleaned name = exceptionSlot
  | .handled => cleaned name = handlerParameter
  | .subject n => cleaned name = switchSubject n
  | .variable _ | .label _ | .chain _ | .raw _ => False

theorem head?_arrayConstructor (type : Ty) : (arrayConstructor type).toList.head? = some 'J' := by
  cases type with
  | array element =>
      rw [arrayConstructor]
      split
      · decide
      · rw [String.toList_append]
        rfl
  | _ => exact (by decide : "JA_L".toList.head? = some 'J')

theorem head?_switchSubject (n : Nat) : (switchSubject n).toList.head? = some 'J' := by
  rw [switchSubject, String.append_assoc, String.toList_append]
  rfl

theorem spelling_eq_iff {name : String} {r : Reference} (hr : r.isOuter = true) :
    variableName name = r.spelling ↔ r.CapturedBy name := by
  have hreserved : ∀ {word : String}, isReserved word = true → ¬ variableName name = word := by
    rintro word hword rfl
    rw [isReserved_variableName] at hword
    cases hword
  have hword : ∀ {word : String}, word.toList.all isVariableChar = true →
      needsFront word.toList = false → '_' ∉ word.toList → isReserved word = false →
        (variableName name = word ↔ name = word) := by
    intro word hchars hfront hunderscore hfree
    rw [variableName_eq_iff, cleaned_eq_word ⟨List.all_eq_true.1 hchars, hfront⟩ hunderscore]
    refine ⟨?_, fun hname => .inl ⟨hfree, hname⟩⟩
    rintro (⟨-, hname⟩ | ⟨-, rfl⟩)
    · exact hname
    · exact absurd (by simp) hunderscore
  cases r with
  | global g =>
      cases g with
      | runtime => exact iff_false_intro (hreserved (by decide))
      | pool => exact iff_false_intro (hreserved (by decide))
      | math | nan | infinity => exact hword (by decide) (by decide) (by decide) (by decide)
  | ofClass n => exact variableName_eq_iff
  | array type => exact variableName_eq_of_head (head?_arrayConstructor type)
  | caught => exact variableName_eq_of_head (by decide)
  | handled => exact variableName_eq_of_head (by decide)
  | subject n => exact variableName_eq_of_head (head?_switchSubject n)
  | «variable» _ | label _ | chain _ | raw _ => cases hr

end Reference

namespace Emission

/-- The variable of a function that a name in its text stands for, if it is not left to
what is outside. -/
def boundVariable? (vars : List String) (word : String) : Option String :=
  vars.find? fun x => variableName x = word

theorem boundVariable?_eq_none {vars : List String} {word : String} :
    boundVariable? vars word = none ↔ ∀ x ∈ vars, variableName x ≠ word := by
  simp only [boundVariable?, List.find?_eq_none, decide_eq_true_eq]

/-- A name in a function that is written for something else than a variable is left to it
exactly if none of the parameters and locals captures it. The globals of the runtime never
are captured; `Math`, `NaN` and `Infinity` are by variables that are called so, the
constructors of arrays and the variables that lowering adds by those that are cleaned to
them, and a class by those that are cleaned to its identifier, or to a reserved name that
is the identifier but for a `_`. -/
theorem captured_names {job : Job} {owner : ClassName} {m : Method} {body : Body} {s t : State}
    {d : Doc} (hrun : (lowerBody job owner m body).run s = (.ok d, t)) :
    let refs := functionReferences job owner m body
    let vars := declaredVariables m body
    (∀ r ∈ refs, r.isOuter = true →
      (boundVariable? vars r.spelling = none ↔ ∀ x ∈ vars, ¬ r.CapturedBy x)) ∧
    (∀ r ∈ refs, r = .global .runtime ∨ r = .global .pool →
      boundVariable? vars r.spelling = none) ∧
    (∀ x ∈ vars, Reference.variable x ∈ refs ∧ variableName x ∉ runtimeNames) ∧
    (Legible job owner body →
      Words.namesIn (bindFunction m (methodSlot owner m) d).text.toList = spelled refs) := by
  intro refs vars
  have hbound : ∀ r ∈ refs, r.isOuter = true →
      (boundVariable? vars r.spelling = none ↔ ∀ x ∈ vars, ¬ r.CapturedBy x) := by
    intro r _ hr
    rw [boundVariable?_eq_none]
    exact forall₂_congr fun x _ => not_congr (Reference.spelling_eq_iff hr)
  refine ⟨hbound, fun r hr hruntime => ?_, fun x hx => ⟨variable_mem_functionReferences hx, ?_⟩,
    fun h => names_function h hrun⟩
  · rcases hruntime with rfl | rfl
    · exact (hbound _ hr rfl).2 fun _ _ => not_false
    · exact (hbound _ hr rfl).2 fun _ _ => not_false
  · exact (not_mem_of_isReserved (isReserved_variableName x)).1

section Examples

/-- A body with variables that are called as what it refers to is. -/
def capturing : Body :=
  ⟨[⟨"J__exception__", .int⟩, ⟨"JA.I", .int⟩],
    .block [.tryCatch (.eval (.newArray (.array .int) (.param "Math"))) .rethrow,
      .ret (some (.binary .mul .int (.param "Math") (.literal (.int 2))))]⟩

theorem captured_names_capturing :
    let m := numeric "area" "Math" capturing
    let job := numericJob "area" "Math" capturing
    let vars := declaredVariables m capturing
    ∃ d, (lowerBody job ⟨"Main"⟩ m capturing).run .initial = (.ok d, .initial) ∧
      boundVariable? vars "Math" ≠ none ∧ boundVariable? vars "JA_I" ≠ none ∧
      boundVariable? vars "J__exception__" ≠ none ∧ boundVariable? vars "J__i__exception__" = none ∧
      Words.namesIn (bindFunction m (methodSlot ⟨"Main"⟩ m) d).text.toList =
        ["Main", "Math", "J__exception__", "JA_I", "J__exception__", "JA_I", "Math",
          "J__i__exception__", "J__exception__", "J__i__exception__", "J__i__exception__",
          "Math", "Math"] := by
  intro m job vars
  have hplain : ∀ e ∈ capturing.stmt.expressions, e.namedClasses = [] ∧ e.spliced? = none := by
    simp [capturing, Stmt.expressions, expressionsOfAll, Expr.subterms, Expr.namedClasses,
      Expr.spliced?]
  have hrun : (lowerBody job ⟨"Main"⟩ m capturing).run .initial = (.ok _, .initial) := rfl
  obtain ⟨hbound, -, -, htext⟩ := captured_names hrun
  have hrefs : ∀ r ∈ [Reference.global .math, .array (.array .int), .caught, .handled],
      r ∈ functionReferences job ⟨"Main"⟩ m capturing ∧ r.isOuter = true := by decide +kernel
  have hcaught : ∀ r x, r ∈ [Reference.global .math, .array (.array .int), .caught, .handled] →
      x ∈ vars → r.CapturedBy x → boundVariable? vars r.spelling ≠ none := by
    intro r x hr hx hcaptured hnone
    obtain ⟨hmem, houter⟩ := hrefs r hr
    exact (hbound r hmem houter).1 hnone x hx hcaptured
  have hparameter : cleaned "J__exception__" = exceptionSlot ∧
      cleaned "JA.I" = arrayConstructor (.array .int) := by decide +kernel
  refine ⟨_, hrun, hcaught (.global .math) "Math" (by simp) (by decide) rfl,
    hcaught (.array (.array .int)) "JA.I" (by simp) (by decide) hparameter.2,
    hcaught .caught "J__exception__" (by simp) (by decide) hparameter.1,
    (hbound .handled (hrefs _ (by simp)).1 rfl).2 ?_, (htext (legible_numeric hplain)).trans ?_⟩
  · have hnone : ∀ x ∈ vars, cleaned x ≠ handlerParameter := by decide +kernel
    exact hnone
  · decide +kernel

/-- A parameter that is called `Math` takes the place of the global that a product refers to. -/
theorem math_captured :
    let body : Body := ⟨[], .ret (some (.binary .mul .int (.param "Math") (.literal (.int 2))))⟩
    let m := numeric "area" "Math" body
    let job := numericJob "area" "Math" body
    variableName "Math" = (Reference.global .math).spelling ∧
    .global .math ∈ functionReferences job ⟨"Main"⟩ m body ∧
    ∃ d, (lowerBody job ⟨"Main"⟩ m body).run .initial = (.ok d, .initial) ∧
      (bindFunction m (methodSlot ⟨"Main"⟩ m) d).text =
        "Main[\"area(I)I\"] = function(Math) \x7b\n\treturn Math.imul(Math, 2);\n\x7d;\n" := by
  refine ⟨by decide +kernel, by decide +kernel, _, rfl, by decide +kernel⟩

end Examples

end Emission

end ClassScript
