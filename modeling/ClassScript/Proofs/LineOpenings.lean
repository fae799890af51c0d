import ClassScript.Proofs.ExpressionRuns
import ClassScript.Proofs.OperatorShapes
import ClassScript.Proofs.WordTemplates

/-!
How lowered text opens a line. A line returns if it begins with the word `return`; the
text of an expression does not, unless it begins with the name of a class that does. No
text goes beyond its line, and the only expression that is written as the receiver alone
is the receiver, also behind casts that change nothing.
-/

namespace ClassScript

open Script

namespace Emission

/-- The line begins with the word `return`. -/
def IsReturn (line : String) : Prop :=
  line.toList.takeWhile isVariableChar = "return".toList

instance (line : String) : Decidable (IsReturn line) :=
  inferInstanceAs (Decidable (_ = _))

/-- A text that settles how the line that it opens begins. -/
def Opens (text : String) : Prop :=
  '\n' ∉ text.toList ∧ ¬ IsReturn text ∧ ∃ c ∈ text.toList, isVariableChar c = false

instance (text : String) : Decidable (Opens text) :=
  letI := List.decidableBEx (isVariableChar · = false) text.toList
  inferInstanceAs (Decidable (_ ∧ _ ∧ _))

/-- A text of one line that returns nothing. Where names are `loose`, it may begin with
the word `return`, and then it goes on with an access. -/
def ReturnsNot (loose : Prop) (text : String) : Prop :=
  '\n' ∉ text.toList ∧ (IsReturn text → loose ∧ ∃ c ∈ text.toList, c = '.' ∨ c = '[')

end Emission

open Emission

/-- The variable of the class does not end a line, and begins with the word `return` only
where names are `loose`. -/
def ClassName.OpensLine (loose : Prop) (n : ClassName) : Prop :=
  '\n' ∉ n.text.toList ∧ (IsReturn n.identifier → loose)

/-- All members belong to such classes. -/
def Program.OwnersOpenLines (loose : Prop) (p : Program) : Prop :=
  ∀ c ∈ p.classes, (∀ f ∈ c.fields, f.owner.OpensLine loose) ∧
    ∀ m ∈ c.methods, m.owner.OpensLine loose

/-- An expression that writes no text of its own and names only such classes. -/
def Expr.OpensLine (loose : Prop) (e : Expr) : Prop :=
  e.isRaw = false ∧ ∀ n ∈ e.namedClasses, n.OpensLine loose

/-- The receiver, also where it is cast from `bool` to `bool`. -/
def Expr.isReceiver : Expr → Bool
  | .this => true
  | .cast value .bool .bool => value.isReceiver
  | _ => false

namespace Emission

section Openings

variable {loose : Prop} {text rest : String}

theorem Opens.append (h : Opens text) (hrest : '\n' ∉ rest.toList) : Opens (text ++ rest) := by
  obtain ⟨honeLine, hreturn, c, hc, hend⟩ := h
  refine ⟨Text.oneLine_append honeLine hrest, ?_, c, ?_, hend⟩
  · have hshort : (text.toList.takeWhile isVariableChar).length ≠ text.toList.length := by
      intro hlength
      have hall : text.toList.takeWhile isVariableChar = text.toList :=
        (List.takeWhile_prefix _).eq_of_length hlength
      have hchar := List.mem_takeWhile_imp (hall.symm ▸ hc)
      rw [hend] at hchar
      cases hchar
    rw [IsReturn, String.toList_append, List.takeWhile_append, if_neg hshort]
    exact hreturn
  · rw [String.toList_append]
    exact List.mem_append_left _ hc

theorem Opens.returnsNot (h : Opens text) : ReturnsNot loose text :=
  ⟨h.1, fun hreturn => absurd hreturn h.2.1⟩

theorem ne_this_of_mem {c : Char} (hc : c ∈ text.toList) (hend : isVariableChar c = false) :
    text ≠ "this" := by
  rintro rfl
  have hall : ∀ d ∈ "this".toList, isVariableChar d = true := forall_mem_of_all (by decide)
  rw [hall c hc] at hend
  cases hend

theorem Opens.ne_this (h : Opens text) : text ≠ "this" :=
  let ⟨_, _, _, hc, hend⟩ := h
  ne_this_of_mem hc hend

/-- A text keeps its first word in front of what no name goes on with. -/
theorem isReturn_of_append (hhead : rest.toList.head?.all (!isVariableChar ·) = true)
    (h : IsReturn (text ++ rest)) : IsReturn text := by
  rw [IsReturn, String.toList_append, List.takeWhile_append] at h
  split at h
  · next hlength =>
      have hnone : rest.toList.takeWhile isVariableChar = [] := by
        cases hchars : rest.toList with
        | nil => rfl
        | cons c others =>
            rw [hchars] at hhead
            rw [List.takeWhile_cons_of_neg (by simpa using hhead)]
      rw [hnone, List.append_nil] at h
      rw [IsReturn, (List.takeWhile_prefix _).eq_of_length hlength]
      exact h
  · exact h

theorem ReturnsNot.append (h : ReturnsNot loose text) (hrest : '\n' ∉ rest.toList)
    (hhead : rest.toList.head?.all (!isVariableChar ·) = true) : ReturnsNot loose (text ++ rest) := by
  refine ⟨Text.oneLine_append h.1 hrest, fun hreturn => ?_⟩
  obtain ⟨hloose, c, hc, haccess⟩ := h.2 (isReturn_of_append hhead hreturn)
  exact ⟨hloose, c, by rw [String.toList_append]; exact List.mem_append_left _ hc, haccess⟩

/-- So does a text with another one behind such a separator. -/
theorem ReturnsNot.separated (h : ReturnsNot loose text) (separator : String)
    (honeLine : '\n' ∉ separator.toList)
    (hhead : separator.toList.head?.any (!isVariableChar ·) = true) (hrest : '\n' ∉ rest.toList) :
    ReturnsNot loose (text ++ separator ++ rest) := by
  rw [String.append_assoc]
  refine h.append (Text.oneLine_append honeLine hrest) ?_
  rw [String.toList_append, List.head?_append]
  cases hfirst : separator.toList.head? with
  | none =>
      rw [hfirst] at hhead
      cases hhead
  | some c => rwa [hfirst] at hhead

theorem returnsNot_of_not (honeLine : '\n' ∉ text.toList) (h : ¬ IsReturn text) :
    ReturnsNot loose text :=
  ⟨honeLine, fun hreturn => absurd hreturn h⟩

/-- The letter that a text begins with may rule out both words. -/
theorem returnsNot_of_head (honeLine : '\n' ∉ text.toList) {c : Char}
    (hhead : text.toList.head? = some c) (hc : c ≠ 'r' ∧ c ≠ 't') :
    ReturnsNot loose text ∧ text ≠ "this" := by
  refine ⟨⟨honeLine, fun hreturn => absurd ?_ hc.1⟩, ?_⟩
  · cases hchars : text.toList with
    | nil =>
        rw [hchars] at hhead
        cases hhead
    | cons first others =>
        rw [IsReturn, hchars, List.takeWhile_cons] at hreturn
        rw [hchars] at hhead
        obtain rfl := Option.some.inj hhead
        split at hreturn
        · exact (List.cons.inj hreturn).1
        · cases hreturn
  · rintro rfl
    exact hc.2 (Option.some.inj hhead).symm

/-- An access does not go beyond its line and opens with what ends a word. -/
theorem access_member (name : String) : '\n' ∉ (member name).toList ∧
    ∃ c, (member name).toList.head? = some c ∧ (c = '.' ∨ c = '[') := by
  refine ⟨(Words.mentions_member name).1, ?_⟩
  unfold member
  split
  · exact ⟨'.', by rw [String.toList_append]; rfl, .inl rfl⟩
  · exact ⟨'[', by rw [String.append_assoc, String.toList_append]; rfl, .inr rfl⟩

/-- What is accessed may begin with the word `return` only where names are `loose`. -/
theorem returnsNot_access (honeLine : '\n' ∉ text.toList) (h : IsReturn text → loose) {c : Char}
    (hrest : '\n' ∉ rest.toList) (hhead : rest.toList.head? = some c) (hc : c = '.' ∨ c = '[') :
    ReturnsNot loose (text ++ rest) ∧ text ++ rest ≠ "this" := by
  have hend : isVariableChar c = false := by
    rcases hc with rfl | rfl
    · decide
    · decide
  have hmem : c ∈ (text ++ rest).toList := by
    rw [String.toList_append]
    exact List.mem_append_right _ (List.mem_of_head? hhead)
  refine ⟨⟨Text.oneLine_append honeLine hrest, fun hreturn => ⟨h ?_, c, hmem, hc⟩⟩,
    ne_this_of_mem hmem hend⟩
  exact isReturn_of_append (by rw [hhead, Option.all_some, hend]; rfl) hreturn

theorem ReturnsNot.member (h : ReturnsNot loose text) (name : String) :
    ReturnsNot loose (text ++ Script.member name) ∧ text ++ Script.member name ≠ "this" := by
  obtain ⟨honeLine, c, hhead, hc⟩ := access_member name
  exact returnsNot_access h.1 (fun hreturn => (h.2 hreturn).1) honeLine hhead hc

end Openings

section Operators

variable {v l r text : String}

theorem opens_call₂ {front : String} (hfront : Opens front) (hl : '\n' ∉ l.toList)
    (hr : '\n' ∉ r.toList) : Opens (front ++ l ++ ", " ++ r ++ ")") :=
  (((hfront.append hl).append (by decide)).append hr).append (by decide)

theorem opens_grouped {op : String} (hop : '\n' ∉ op.toList) (hl : '\n' ∉ l.toList)
    (hr : '\n' ∉ r.toList) : Opens (Operator.grouped op l r) := by
  have hopen : Opens "(" := by decide
  have hleft := ((hopen.append hl).append (show '\n' ∉ " ".toList by decide)).append hop
  exact ((hleft.append (by decide)).append hr).append (by decide)

theorem opens_unary {op : UnaryOp} {kind : OperandKind} (hv : '\n' ∉ v.toList)
    (h : unary? op kind v = some text) : Opens text := by
  have henclosed : ∀ {front back : String}, Opens front → '\n' ∉ back.toList →
      Opens (front ++ v ++ back) := fun hfront hback => (hfront.append hv).append hback
  unfold unary? at h
  split at h
  all_goals cases h
  all_goals exact henclosed (by decide) (by decide)

theorem opens_binary {op : BinaryOp} {kind : OperandKind} (hl : '\n' ∉ l.toList)
    (hr : '\n' ∉ r.toList) (h : binary? op kind l r = some text) : Opens text := by
  have hsigns : ∀ sign ∈ signs, '\n' ∉ sign.toList := by decide
  have hhelpers : ∀ name ∈ helpers, Opens ("N." ++ name ++ "(") := forall_mem_of_all (by decide)
  have hgrouped : ∀ {sign : String}, sign ∈ signs → Opens (Operator.grouped sign l r) :=
    fun hsign => opens_grouped (hsigns _ hsign) hl hr
  cases shape_of_binary h with
  | grouped hsign => exact hgrouped hsign
  | low hsign => exact ((show Opens "(" by decide).append (hgrouped hsign).1).append (by decide)
  | truth hsign => exact (show Opens "!!" by decide).append (hgrouped hsign).1
  | @rounded sign hsign =>
      have hsum : '\n' ∉ (l ++ " " ++ sign ++ " " ++ r).toList :=
        Text.oneLine_append (Text.oneLine_append (Text.oneLine_append
          (Text.oneLine_append hl (by decide)) (hsigns _ hsign)) (by decide)) hr
      exact ((show Opens "Math.fround(" by decide).append hsum).append (by decide)
  | helper hname => exact opens_call₂ (hhelpers _ hname) hl hr
  | product => exact opens_call₂ (show Opens "Math.imul(" by decide) hl hr

/-- Conversions open a bracket, all but the one that does nothing. -/
theorem opens_convert {source target : Ty} (hv : '\n' ∉ v.toList)
    (h : convert? source target v = some text) :
    Opens text ∨ source = .bool ∧ target = .bool ∧ text = v := by
  have hframes : ∀ frame ∈ conversionFrames, Opens frame.1 ∧ '\n' ∉ frame.2.toList :=
    forall_mem_of_all (by decide)
  cases shape_of_convert h with
  | unchanged hsource htarget => exact .inr ⟨hsource, htarget, rfl⟩
  | framed hframe =>
      obtain ⟨hfront, hback⟩ := hframes _ hframe
      exact .inl ((hfront.append hv).append hback)
  | twice hframe hframe' =>
      obtain ⟨hfront, hback⟩ := hframes _ hframe
      obtain ⟨hfront', hback'⟩ := hframes _ hframe'
      exact .inl ((hfront'.append ((hfront.append hv).append hback).1).append hback')

end Operators

section Leaves

variable {loose : Prop} {job : Job} {text : String} {texts : List String}

/-- What is shown of an expression: it returns nothing, and is the receiver only for that. -/
def ShowsReceiver (loose : Prop) (e : Expr) (text : String) : Prop :=
  ReturnsNot loose text ∧ (text = "this" ↔ e.isReceiver = true)

theorem showsReceiver_other {e : Expr} (he : e.isReceiver = false)
    (h : ReturnsNot loose text ∧ text ≠ "this") : ShowsReceiver loose e text :=
  ⟨h.1, iff_of_false h.2 (by rw [he]; exact Bool.false_ne_true)⟩

theorem Opens.showsReceiver {e : Expr} (he : e.isReceiver = false) (h : Opens text) :
    ShowsReceiver loose e text :=
  showsReceiver_other he ⟨h.returnsNot, h.ne_this⟩

theorem oneLine_variableName (name : String) : '\n' ∉ (variableName name).toList :=
  (Words.mentions_variableName name).1

/-- A variable has no name that the language keeps. -/
theorem returnsNot_variableName (name : String) :
    ReturnsNot loose (variableName name) ∧ variableName name ≠ "this" := by
  have hkeyword : ∀ word ∈ keywords, variableName name ≠ word := fun word hword hname =>
    variableName_notMem_keywords name (hname ▸ hword)
  refine ⟨⟨oneLine_variableName name, fun hreturn => absurd ?_ (hkeyword "return" (by decide))⟩,
    hkeyword "this" (by decide)⟩
  rw [IsReturn, List.takeWhile_eq_self_iff.2 (variableName_word name).1] at hreturn
  exact String.toList_inj.1 hreturn

theorem ne_of_isDigit {c : Char} (h : c.isDigit = true) : c ≠ 'r' ∧ c ≠ 't' := by
  constructor
  · rintro rfl
    cases h
  · rintro rfl
    cases h

theorem exists_head?_numeral {chars : List Char} (h : Brackets.IsNumeral chars) :
    ∃ c, chars.head? = some c ∧ c.isDigit = true := by
  have hdigit : ∀ {front : List Char}, front.head?.any (·.isDigit) = true →
      ∃ c rest, front = c :: rest ∧ c.isDigit = true := by
    intro front hfront
    cases front with
    | nil => cases hfront
    | cons c rest => exact ⟨c, rest, rfl, hfront⟩
  cases h with
  | positional hhead _ =>
      obtain ⟨c, rest, rfl, hc⟩ := hdigit hhead
      exact ⟨c, rfl, hc⟩
  | scientific hhead _ _ _ =>
      obtain ⟨c, rest, rfl, hc⟩ := hdigit hhead
      exact ⟨c, rfl, hc⟩

/-- A number opens with a digit, with a bracket, or with a name of its own. -/
theorem exists_head?_real (bits : Nat) :
    ∃ c, (real bits).toList.head? = some c ∧ c ≠ 'r' ∧ c ≠ 't' := by
  have hwrapped : ∀ {v : String} {c : Char}, v.toList.head? = some c → c ≠ 'r' ∧ c ≠ 't' →
      ∃ d, (wrapNegative v).toList.head? = some d ∧ d ≠ 'r' ∧ d ≠ 't' := by
    intro v c hhead hc
    unfold wrapNegative
    split
    · exact ⟨'(', by rw [String.append_assoc, String.toList_append]; rfl, by decide⟩
    · exact ⟨c, hhead, hc⟩
  have hsigned : ∀ v : String, ("-" ++ v).toList.head? = some '-' := fun v => by
    rw [String.toList_append]
    rfl
  unfold real Number.Style.text
  cases Number.double.decode bits with
  | nan => exact hwrapped (c := 'N') rfl (by decide)
  | infinite negative =>
      cases negative with
      | true => exact hwrapped (hsigned _) (by decide)
      | false => exact hwrapped (c := 'I') rfl (by decide)
  | finite negative significand exponent =>
      cases negative with
      | true => exact hwrapped (hsigned _) (by decide)
      | false =>
          obtain ⟨c, hhead, hdigit⟩ := exists_head?_numeral
            (Brackets.isNumeral_magnitude Number.scripted Number.double significand exponent)
          refine hwrapped (c := c) ?_ ?_
          · exact (congrArg List.head? String.toList_ofList).trans hhead
          · exact ne_of_isDigit hdigit

theorem exists_head?_natural (n : Nat) :
    ∃ c, (Text.natural n).toList.head? = some c ∧ c ≠ 'r' ∧ c ≠ 't' := by
  have hfirst := Text.head?_toDigits_isDigit n
  rw [Text.natural, String.toList_ofList]
  cases hhead : (Nat.toDigits 10 n).head? with
  | none =>
      rw [hhead] at hfirst
      cases hfirst
  | some c =>
      rw [hhead] at hfirst
      have hdigit : c.isDigit = true := hfirst
      exact ⟨c, rfl, ne_of_isDigit hdigit⟩

theorem returnsNot_constant {v : Literal} (h : ∀ text, v ≠ .string text) :
    ReturnsNot loose (constant v) ∧ constant v ≠ "this" := by
  have honeLine : '\n' ∉ (constant v).toList := (Words.refers_constant h).1
  have hof : (∃ c, (constant v).toList.head? = some c ∧ c ≠ 'r' ∧ c ≠ 't') →
      ReturnsNot loose (constant v) ∧ constant v ≠ "this" := fun ⟨_, hhead, hc⟩ =>
    returnsNot_of_head honeLine hhead hc
  cases v with
  | null => exact hof ⟨'n', rfl, by decide⟩
  | bool b =>
      cases b with
      | true => exact ⟨⟨honeLine, fun h => absurd h (by decide)⟩, by decide⟩
      | false => exact hof ⟨'f', rfl, by decide⟩
  | int v =>
      refine hof ?_
      rw [constant, wrapNegative]
      split
      · exact ⟨'(', by rw [String.append_assoc, String.toList_append]; rfl, by decide⟩
      · next hhead =>
          unfold Text.integer at hhead ⊢
          split
          · next hneg =>
              rw [if_pos hneg, String.toList_append] at hhead
              exact absurd rfl hhead
          · exact exists_head?_natural _
  | long v =>
      have hopens : Opens (constant (.long v)) := opens_call₂ (show Opens "N.lnew(" by decide)
        (Text.oneLine_integer _) (Text.oneLine_integer _)
      exact ⟨hopens.returnsNot, hopens.ne_this⟩
  | float bits => exact hof (exists_head?_real _)
  | double bits => exact hof (exists_head?_real _)
  | char unit => exact hof (exists_head?_natural _)
  | string text => exact absurd rfl (h text)

/-- Strings are taken out of the pool. -/
theorem showsReceiver_literal (v : Literal) :
    Returns (ShowsReceiver loose (.literal v)) (literal v) := by
  unfold literal
  split
  · exact .after fun _ => .after fun _ => .pure (Opens.showsReceiver rfl
      (((show Opens "S[" by decide).append (Text.oneLine_natural _)).append (by decide)))
  · next hother =>
      exact .pure (showsReceiver_other rfl (returnsNot_constant fun text htext => hother text htext))

theorem oneLine_arguments {texts : List String} (h : ∀ text ∈ texts, '\n' ∉ text.toList) :
    '\n' ∉ (arguments texts).toList :=
  Text.oneLine_append (Text.oneLine_append (by decide) (Text.oneLine_intercalate (by decide) h)) (by decide)

theorem ReturnsNot.arguments (h : ReturnsNot loose text ∧ text ≠ "this")
    (hargs : ∀ text ∈ texts, '\n' ∉ text.toList) :
    ReturnsNot loose (text ++ Emission.arguments texts) ∧
      text ++ Emission.arguments texts ≠ "this" := by
  have honeLine := oneLine_arguments hargs
  have hhead : (Emission.arguments texts).toList.head? = some '(' := by
    rw [Emission.arguments, String.append_assoc, String.toList_append]
    rfl
  refine ⟨h.1.append honeLine (by rw [hhead]; decide), ne_this_of_mem (c := '(') ?_ (by decide)⟩
  rw [String.toList_append]
  exact List.mem_append_right _ (List.mem_of_head? hhead)

theorem opens_instanceTest (hvalue : '\n' ∉ text.toList) {type : Ty}
    (hnamed : ∀ name, type = .ref name → '\n' ∉ name.identifier.toList) :
    Opens (job.instanceTest text type) := by
  have hclass : ∀ name : ClassName, '\n' ∉ name.identifier.toList →
      Opens ("(" ++ text ++ " instanceof " ++ name.identifier ++ ")") := fun name hname =>
    ((((show Opens "(" by decide).append hvalue).append (by decide)).append hname).append (by decide)
  cases type with
  | ref name =>
      rw [Job.instanceTest]
      split
      · split
        · exact opens_call₂ (by decide) hvalue (Text.oneLine_natural _)
        · exact hclass name (hnamed name rfl)
      · exact hclass name (hnamed name rfl)
  | _ => exact opens_call₂ (by decide) hvalue (newline_not_mem_quote _)

theorem opens_newArray (hlength : '\n' ∉ text.toList) (type : Ty) : Opens (newArray type text) := by
  have hother : Opens ("new JA_L(" ++ text ++ ", " ++ quote type.descriptor ++ ")") :=
    opens_call₂ (by decide) hlength (newline_not_mem_quote _)
  cases type with
  | array element =>
      rw [newArray]
      split
      · exact hother
      · next hprimitive =>
          cases element with
          | ref name => exact absurd rfl hprimitive
          | array inner => exact absurd rfl hprimitive
          | _ =>
              refine Opens.append (Opens.append (Opens.append ?_ (by decide)) hlength) (by decide)
              decide
  | _ => exact hother

end Leaves

section Expressions

variable {loose : Prop} {job : Job} {caller : MethodRef} {text : String}

theorem oneLine_identifier {n : ClassName} (h : n.OpensLine loose) :
    '\n' ∉ n.identifier.toList := by
  rw [ClassName.identifier, String.toList_map]
  exact fun hmem => forall_mem_replaced (P := (· ≠ '\n')) (by decide)
    (fun _ hc _ hbreak => h.1 (hbreak ▸ hc)) _ hmem rfl

/-- The variable of a class is no return, with an access behind it. -/
theorem returnsNot_class {n : ClassName} (h : n.OpensLine loose) {access : String} {c : Char}
    (honeLine : '\n' ∉ access.toList) (hhead : access.toList.head? = some c)
    (hc : c = '.' ∨ c = '[') :
    ReturnsNot loose (n.identifier ++ access) ∧ n.identifier ++ access ≠ "this" :=
  returnsNot_access (oneLine_identifier h) h.2 honeLine hhead hc

theorem returnsNot_classMember {n : ClassName} (h : n.OpensLine loose) (name : String) :
    ReturnsNot loose (n.identifier ++ member name) ∧ n.identifier ++ member name ≠ "this" := by
  obtain ⟨honeLine, c, hhead, hc⟩ := access_member name
  exact returnsNot_class h honeLine hhead hc

theorem returnsNot_memberBase {n : ClassName} (h : n.OpensLine loose) (isStatic : Bool)
    (name : String) : ReturnsNot loose (memberBase n isStatic ++ member name) ∧
      memberBase n isStatic ++ member name ≠ "this" := by
  unfold memberBase
  split
  · exact returnsNot_classMember h name
  · exact (returnsNot_class h (by decide) rfl (.inl rfl)).1.member name

/-- The static field of a class that opens lines. -/
theorem returnsNot_staticField (h : job.program.OwnersOpenLines loose) (r : FieldRef) :
    Returns (fun text => ReturnsNot loose text ∧ text ≠ "this") (job.staticField r) :=
  (returns_field h r).bind fun _ howner => .after fun _ => .pure (returnsNot_classMember howner _)

/-- A conversion shows the receiver only if it leaves it as it is. -/
theorem showsReceiver_cast {value : Expr} {source target : Ty} {v : String}
    (hv : ShowsReceiver loose value v) (h : convert? source target v = some text) :
    ShowsReceiver loose (.cast value source target) text := by
  by_cases hsame : source = .bool ∧ target = .bool
  · obtain ⟨rfl, rfl⟩ := hsame
    obtain rfl := Option.some.inj h
    exact hv
  · have hother : (Expr.cast value source target).isReceiver = false := by
      unfold Expr.isReceiver
      split
      · next heq => cases heq
      · next heq =>
          cases heq
          exact absurd ⟨rfl, rfl⟩ hsame
      · rfl
    rcases opens_convert hv.1.1 h with hopens | ⟨hsource, htarget, -⟩
    · exact hopens.showsReceiver hother
    · exact absurd ⟨hsource, htarget⟩ hsame

mutual

/-- Lowered expressions return nothing, and only the receiver is written as such. -/
theorem LowersExpr.showsReceiver (h : job.program.OwnersOpenLines loose) {e : Expr} {s t : State}
    {text : String} (hlowers : LowersExpr job caller e s text t)
    (hsub : ∀ d ∈ e.subterms, d.OpensLine loose) : ShowsReceiver loose e text := by
  cases hlowers with
  | @literal v s t text hliteral => exact showsReceiver_literal v s text t hliteral
  | slot name _ | param name _ => exact showsReceiver_other rfl (returnsNot_variableName name)
  | this _ => exact ⟨⟨by decide, fun h => absurd h (by decide)⟩, iff_of_true rfl rfl⟩
  | caught _ =>
      exact showsReceiver_other rfl ⟨⟨by decide, fun h => absurd h (by decide)⟩, by decide⟩
  | instanceField hobject _ =>
      rw [Expr.subterms, List.forall_mem_cons] at hsub
      exact showsReceiver_other rfl ((hobject.showsReceiver h hsub.2).1.member _)
  | @staticField field s t text hfield =>
      exact showsReceiver_other rfl (returnsNot_staticField h field s text t hfield)
  | unary hoperand htext =>
      rw [Expr.subterms, List.forall_mem_cons] at hsub
      exact (opens_unary (hoperand.showsReceiver h hsub.2).1.1 htext).showsReceiver rfl
  | binary hleft hright htext =>
      rw [Expr.subterms, List.forall_mem_cons, List.forall_mem_append] at hsub
      exact (opens_binary (hleft.showsReceiver h hsub.2.1).1.1
        (hright.showsReceiver h hsub.2.2).1.1 htext).showsReceiver rfl
  | cast hvalue htext =>
      rw [Expr.subterms, List.forall_mem_cons] at hsub
      exact showsReceiver_cast (hvalue.showsReceiver h hsub.2) htext
  | instanceOf hvalue =>
      rw [Expr.subterms, List.forall_mem_cons] at hsub
      have hoperand := hvalue.showsReceiver h hsub.2
      refine (opens_instanceTest hoperand.1.1 fun name hname => ?_).showsReceiver rfl
      refine oneLine_identifier (hsub.1.2 name ?_)
      rw [hname, Expr.namedClasses]
      exact List.mem_cons_self
  | checkCast hvalue =>
      rw [Expr.subterms, List.forall_mem_cons] at hsub
      have hoperand := hvalue.showsReceiver h hsub.2
      exact Opens.showsReceiver rfl
        (((show Opens "(" by decide).append hoperand.1.1).append (by decide))
  | rawCall hraw _ =>
      rw [Expr.subterms, List.forall_mem_cons] at hsub
      exact absurd hraw (by simpa [Expr.isRaw] using hsub.1.1)
  | @callStatic r _ _ _ _ _ _ _ hmethod hargs =>
      rw [Expr.subterms, List.forall_mem_cons] at hsub
      have howner := returns_method h r _ _ _ hmethod
      exact showsReceiver_other rfl
        (ReturnsNot.arguments (returnsNot_classMember howner _) (hargs.oneLine h hsub.2))
  | callInstance hobject _ hargs =>
      rw [Expr.subterms, List.forall_mem_cons, List.forall_mem_append] at hsub
      exact showsReceiver_other rfl (ReturnsNot.arguments
        ((hobject.showsReceiver h hsub.2.1).1.member _) (hargs.oneLine h hsub.2.2))
  | @callSuper _ _ _ _ _ _ target _ _ htarget hobject hargs =>
      rw [Expr.subterms, List.forall_mem_cons, List.forall_mem_append] at hsub
      have hslot := returnsNot_memberBase (owner_of_resolve h htarget) false (methodName target)
      have hcall := returnsNot_access hslot.1.1 (fun hreturn => (hslot.1.2 hreturn).1)
        (show '\n' ∉ ".call".toList by decide) rfl (.inl rfl)
      exact showsReceiver_other rfl (ReturnsNot.arguments hcall (List.forall_mem_cons.2
        ⟨(hobject.showsReceiver h hsub.2.1).1.1, hargs.oneLine h hsub.2.2⟩))
  | @construct owner _ _ _ _ _ _ _ _ hargs =>
      rw [Expr.subterms, List.forall_mem_cons] at hsub
      have howner := oneLine_identifier (hsub.1.2 owner List.mem_cons_self)
      have hnew := ((show Opens "new " by decide).append howner).append
        (show '\n' ∉ "()".toList by decide)
      exact Opens.showsReceiver rfl
        ((hnew.append (access_member _).1).append (oneLine_arguments (hargs.oneLine h hsub.2)))
  | @newArray type _ _ _ _ hlength =>
      rw [Expr.subterms, List.forall_mem_cons] at hsub
      exact (opens_newArray (hlength.showsReceiver h hsub.2).1.1 type).showsReceiver rfl
  | arrayLength harray =>
      rw [Expr.subterms, List.forall_mem_cons] at hsub
      have hbase := harray.showsReceiver h hsub.2
      exact showsReceiver_other rfl (returnsNot_access hbase.1.1
        (fun hreturn => (hbase.1.2 hreturn).1) (show '\n' ∉ ".length".toList by decide) rfl (.inl rfl))
  | arrayGet harray hindex =>
      rw [Expr.subterms, List.forall_mem_cons, List.forall_mem_append] at hsub
      have hfront := ((show Opens "(" by decide).append (harray.showsReceiver h hsub.2.1).1.1).append
        (show '\n' ∉ ".data[".toList by decide)
      exact Opens.showsReceiver rfl
        ((hfront.append (hindex.showsReceiver h hsub.2.2).1.1).append (by decide))
  | ternary hcond hyes hno =>
      rw [Expr.subterms, List.forall_mem_cons, List.forall_mem_append, List.forall_mem_append]
        at hsub
      have hfront := ((show Opens "(" by decide).append (hcond.showsReceiver h hsub.2.1.1).1.1).append
        (show '\n' ∉ " ? ".toList by decide)
      have hmiddle := (hfront.append (hyes.showsReceiver h hsub.2.1.2).1.1).append
        (show '\n' ∉ " : ".toList by decide)
      exact Opens.showsReceiver rfl
        ((hmiddle.append (hno.showsReceiver h hsub.2.2).1.1).append (by decide))

theorem LowersExprs.oneLine (h : job.program.OwnersOpenLines loose) {es : List Expr} {s t : State}
    {texts : List String} (hlowers : LowersExprs job caller es s texts t)
    (hsub : ∀ d ∈ subtermsOfAll es, d.OpensLine loose) : ∀ text ∈ texts, '\n' ∉ text.toList := by
  cases hlowers with
  | nil _ => exact fun _ hmem => absurd hmem List.not_mem_nil
  | cons hfirst hrest =>
      rw [subtermsOfAll, List.forall_mem_append] at hsub
      exact List.forall_mem_cons.2 ⟨(hfirst.showsReceiver h hsub.1).1.1, hrest.oneLine h hsub.2⟩

end

end Expressions

end Emission

end ClassScript
