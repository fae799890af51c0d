import ClassScript.Proofs.DistinctVariables

/-!
Which names may stand in the script as variables: words that begin with no digit and that
neither the runtime nor the language has taken. Every source name comes to one of them, and
they are just the names that are kept. So a name is altered at most once, and in the text of
a function the variables and labels that have such names stand under their own.
-/

namespace ClassScript

open Script Emission Output

namespace Script

/-- A name that a variable may have as it is. -/
structure IsLegal (name : String) : Prop where
  nonempty : name ≠ ""
  characters : ∀ c ∈ name.toList, Text.isAlphanumeric c = true ∨ c = '_' ∨ c = '$'
  front : ∀ c ∈ name.toList.head?, c.isDigit = false
  notMem_runtimeNames : name ∉ runtimeNames
  notMem_keywords : name ∉ keywords

variable {name : String}

theorem isVariableWord_iff : IsVariableWord name ↔ name ≠ "" ∧
    (∀ c ∈ name.toList, Text.isAlphanumeric c = true ∨ c = '_' ∨ c = '$') ∧
      ∀ c ∈ name.toList.head?, c.isDigit = false := by
  have hchar : ∀ c, isVariableChar c = true ↔ Text.isAlphanumeric c = true ∨ c = '_' ∨ c = '$' := by
    simp [isVariableChar, or_assoc]
  rw [IsVariableWord, needsFront_eq_false_iff, ne_eq, String.toList_eq_nil_iff]
  simp only [hchar]
  exact and_left_comm

/-- A name is legal exactly if it is a word that is not reserved. -/
theorem isLegal_iff : IsLegal name ↔ IsVariableWord name ∧ isReserved name = false := by
  rw [isVariableWord_iff]
  constructor
  · rintro ⟨hne, hchars, hfront, hruntime, hkeyword⟩
    exact ⟨⟨hne, hchars, hfront⟩, by simp [isReserved, hruntime, hkeyword]⟩
  · rintro ⟨⟨hne, hchars, hfront⟩, hfree⟩
    obtain ⟨hruntime, hkeyword⟩ := not_mem_of_isReserved hfree
    exact ⟨hne, hchars, hfront, hruntime, hkeyword⟩

/-- Neither of the three alterations undoes another one: the `_` in front and the one behind
are characters that may stand there, and no reserved name is another one with `_` behind. -/
theorem isLegal_variableName (name : String) : IsLegal (variableName name) := by
  obtain ⟨hchars, first, hfirst, hdigit⟩ := variableName_word name
  have hfront : needsFront (variableName name).toList = false := by
    rw [needsFront, hfirst, Option.all_some, hdigit]
  exact isLegal_iff.2 ⟨⟨hchars, hfront⟩, isReserved_variableName name⟩

theorem variableName_of_isLegal (h : IsLegal name) : variableName name = name := by
  obtain ⟨⟨hchars, hfront⟩, hfree⟩ := isLegal_iff.1 h
  rw [variableName_eq, cleaned_of_word hchars hfront, hfree, if_neg Bool.false_ne_true]

theorem variableName_eq_self_iff : variableName name = name ↔ IsLegal name :=
  ⟨fun h => h ▸ isLegal_variableName name, variableName_of_isLegal⟩

example : ["i", "", "1x", "a-b", "new", "proto-type", "N", "__proto-_"].map variableName =
    ["i", "_", "_1x", "a_b", "new_", "proto_type", "N_", "__proto___"] := by
  decide +kernel

end Script

namespace Reference

/-- What the source calls the variable or the label that is referred to. -/
def declared? : Reference → Option String
  | .variable name | .label name => some name
  | _ => none

theorem spelling_of_declared {r : Reference} {name : String} (h : r.declared? = some name) :
    r.spelling = variableName name := by
  cases r with
  | «variable» other | label other =>
      cases h
      rfl
  | _ => cases h

end Reference

namespace Emission

/-- Every name comes to a legal one, and is kept exactly if it is legal itself; so what it
comes to is not altered again. In the text of a function, whose names are those of its
references in order, each variable and each label stands under a legal name, which is its
own exactly if that is legal. -/
theorem variables_legal :
    (∀ name, IsLegal (variableName name) ∧
      variableName (variableName name) = variableName name ∧
      (variableName name = name ↔ IsLegal name)) ∧
    ∀ {job : Job} {owner : ClassName} {m : Method} {body : Body} {s t : State} {d : Doc},
      (lowerBody job owner m body).run s = (.ok d, t) →
      let refs := functionReferences job owner m body
      (∀ r ∈ refs, ∀ name ∈ r.declared?,
        IsLegal r.spelling ∧ (r.spelling = name ↔ IsLegal name)) ∧
      (Legible job owner body →
        Words.namesIn (bindFunction m (methodSlot owner m) d).text.toList = spelled refs) := by
  refine ⟨fun name => ⟨isLegal_variableName name, ?_, variableName_eq_self_iff⟩, ?_⟩
  · exact variableName_of_isLegal (isLegal_variableName name)
  · intro job owner m body s t d hrun refs
    refine ⟨fun r _ name hname => ?_, fun h => names_function h hrun⟩
    rw [Reference.spelling_of_declared hname]
    exact ⟨isLegal_variableName name, variableName_eq_self_iff⟩

section Examples

/-- A body with variables and labels of which some are kept and others are not. -/
def tallying : Body :=
  ⟨[⟨"1x", .int⟩, ⟨"x²", .int⟩],
    .block [.loop (some "do") (.literal (.bool true)) (.leave (some "do")),
      .setSlot "1x" (.param "this$0"), .ret (some (.slot "x²"))]⟩

theorem variables_legal_tallying :
    let m := numeric "tally" "this$0" tallying
    let job := numericJob "tally" "this$0" tallying
    (IsLegal "this$0" ∧ variableName "this$0" = "this$0") ∧
    (¬ IsLegal "1x" ∧ variableName "1x" = "_1x" ∧ variableName "_1x" = "_1x") ∧
    ∃ d, (lowerBody job ⟨"Main"⟩ m tallying).run .initial = (.ok d, .initial) ∧
      (.label "do" ∈ functionReferences job ⟨"Main"⟩ m tallying ∧ IsLegal "do_") ∧
      Words.namesIn (bindFunction m (methodSlot ⟨"Main"⟩ m) d).text.toList =
        ["Main", "this$0", "_1x", "x²", "do_", "do_", "_1x", "this$0", "x²"] := by
  intro m job
  obtain ⟨hnames, hfunctions⟩ := variables_legal
  have hrun : (lowerBody job ⟨"Main"⟩ m tallying).run .initial = (.ok _, .initial) := rfl
  obtain ⟨hlegal, htext⟩ := hfunctions hrun
  have hplain : ∀ e ∈ tallying.stmt.expressions, e.namedClasses = [] ∧ e.spliced? = none := by
    simp [tallying, Stmt.expressions, expressionsOfAll, Expr.subterms, Expr.namedClasses,
      Expr.spliced?]
  have hkept : variableName "this$0" = "this$0" := by decide +kernel
  have hfront : variableName "1x" = "_1x" := by decide +kernel
  have hlabel : .label "do" ∈ functionReferences job ⟨"Main"⟩ m tallying := by decide +kernel
  have hbehind : (Reference.label "do").spelling = "do_" := by decide +kernel
  obtain ⟨-, hagain, hself⟩ := hnames "1x"
  rw [hfront] at hagain hself
  refine ⟨⟨(hnames _).2.2.1 hkept, hkept⟩, ⟨fun h => ?_, hfront, hagain⟩, _, hrun, ⟨hlabel, ?_⟩,
    (htext (legible_numeric hplain)).trans ?_⟩
  · exact absurd (hself.2 h) (by decide)
  · exact hbehind ▸ (hlegal _ hlabel "do" rfl).1
  · decide +kernel

end Examples

end Emission

end ClassScript
