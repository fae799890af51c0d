import ClassScript.Proofs.CallSites
import ClassScript.Proofs.ExpressionRuns
import ClassScript.Proofs.OperandTemplates

/-!
Lowered expressions as operands. Whatever operators, conversions, accesses and calls an
expression is made of, its text closes its brackets and is a unary expression, so that it
can be put into any other text as it stands. Only raw calls write text of their own, and
only the names of classes are written as they are.
-/

namespace ClassScript

open Script Brackets

/-- A name of characters of variable names and points. -/
def ClassName.IsWord (n : ClassName) : Prop :=
  ∀ c ∈ n.text.toList, isVariableChar c = true ∨ c = '.'

/-- All members belong to classes with such names. -/
def Program.OwnersAreWords (p : Program) : Prop :=
  ∀ c ∈ p.classes, (∀ f ∈ c.fields, f.owner.IsWord) ∧ ∀ m ∈ c.methods, m.owner.IsWord

/-- The classes whose variables an expression itself names. -/
def Expr.namedClasses : Expr → List ClassName
  | .instanceOf _ (.ref name) => [name]
  | .construct owner _ _ => [owner]
  | _ => []

/-- Whether the expression is a raw call. -/
def Expr.isRaw : Expr → Bool
  | .callStatic r _ => Emission.isRawCall r
  | _ => false

/-- An expression that writes no text of its own and names no class but by a word. -/
def Expr.IsOrdinary (e : Expr) : Prop :=
  e.isRaw = false ∧ ∀ n ∈ e.namedClasses, n.IsWord

theorem ClassName.IsWord.identifier {n : ClassName} (h : n.IsWord) :
    ∀ c ∈ n.identifier.toList, isVariableChar c = true := by
  rw [ClassName.identifier, String.toList_map]
  exact forall_mem_replaced (by decide) fun c hc hpoint => (h c hc).resolve_right hpoint

namespace Emission

variable {job : Job} {caller : MethodRef} {text : String}

section Templates

theorem isOperand_constant {v : Literal} (h : ∀ text, v ≠ .string text) :
    IsOperand (constant v) := by
  cases v with
  | null | bool b =>
      try cases b
      all_goals exact isOperand_word (forall_mem_of_all (by decide)) (by decide) (by decide)
  | int v => exact isOperand_integer v.toInt
  | long v => exact isOperand_call₂ _ (isClosed_integer _) (isClosed_integer _) (by decide)
  | float bits => exact isOperand_real _
  | double bits => exact isOperand_real _
  | char unit => exact isOperand_natural _
  | string text => exact absurd rfl (h text)

/-- Strings are taken out of the pool. -/
theorem isOperand_literal (v : Literal) : Returns IsOperand (literal v) := by
  unfold literal
  split
  · exact .after fun _ => .after fun _ =>
      .pure ((isOperand_natural _).isClosed.operand _ _ (by decide))
  · next hother => exact .pure (isOperand_constant fun text htext => hother text htext)

theorem isOperand_instanceTest (hvalue : IsClosed text) {type : Ty}
    (hnamed : ∀ name, type = .ref name → name.IsWord) : IsOperand (job.instanceTest text type) := by
  have hclass : ∀ name : ClassName, name.IsWord →
      IsOperand ("(" ++ text ++ " instanceof " ++ name.identifier ++ ")") := by
    intro name hname
    have hidentifier : IsClosed name.identifier := ⟨_, outlined_variableChars hname.identifier⟩
    have htest := (hvalue.apart "instanceof" (by decide) hidentifier).operand "(" ")" (by decide)
    have hsame : "(" ++ text ++ " instanceof " ++ name.identifier ++ ")" =
        "(" ++ (text ++ " " ++ "instanceof" ++ " " ++ name.identifier) ++ ")" := by
      apply String.toList_injective
      simp
    exact hsame ▸ htest
  cases type with
  | ref name =>
      rw [Job.instanceTest]
      split
      · split
        · exact isOperand_call₂ _ hvalue (isOperand_natural _).isClosed (by decide)
        · exact hclass name (hnamed name rfl)
      · exact hclass name (hnamed name rfl)
  | _ => exact isOperand_call₂ _ hvalue (isClosed_quote _) (by decide)

theorem isOperand_newArray (hlength : IsClosed text) (type : Ty) :
    IsOperand (newArray type text) := by
  have hother : IsOperand ("new JA_L(" ++ text ++ ", " ++ quote type.descriptor ++ ")") :=
    isOperand_call₂ _ hlength (isClosed_quote _) (by decide)
  cases type with
  | array element =>
      rw [newArray]
      split
      · exact hother
      · next hprimitive =>
          cases element with
          | ref name => exact absurd rfl hprimitive
          | array inner => exact absurd rfl hprimitive
          | _ => exact hlength.operand _ _ (by decide)
  | _ => exact hother

theorem isOperand_staticField (h : job.program.OwnersAreWords) (r : FieldRef) :
    Returns IsOperand (job.staticField r) :=
  (returns_field h r).bind fun _ howner => .after fun _ =>
    .pure ((goesOn_word howner.identifier).member _)

/-- The class behind `new`. -/
theorem goesOn_new {n : ClassName} (h : n.IsWord) : GoesOn ("new " ++ n.identifier) := by
  have hnew : Outlined "new ".toList "new " := outlined_inert (forall_mem_of_all (by decide))
  refine ⟨_, .name, hnew.append (outlined_variableChars h.identifier), ?_, by decide⟩
  have hread : Part.front.read? "new ".toList = some .name := by decide
  rw [Part.read?_append, hread]
  exact Part.read?_name h.identifier

end Templates

mutual

/-- An expression is lowered to an operand, if its operands are. -/
theorem LowersExpr.isOperand (h : job.program.OwnersAreWords) {e : Expr} {s t : State}
    {text : String} (hlowers : LowersExpr job caller e s text t)
    (hsub : ∀ d ∈ e.subterms, d.IsOrdinary) : IsOperand text := by
  cases hlowers with
  | @literal v s t text hliteral => exact isOperand_literal v s text t hliteral
  | slot name _ | param name _ => exact isOperand_variableName name
  | this _ | caught _ =>
      exact isOperand_word (forall_mem_of_all (by decide)) (by decide) (by decide)
  | instanceField hobject _ =>
      rw [Expr.subterms, List.forall_mem_cons] at hsub
      exact (hobject.isOperand h hsub.2).goesOn.member _
  | @staticField field s t text hfield => exact isOperand_staticField h field s text t hfield
  | unary hoperand htext =>
      rw [Expr.subterms, List.forall_mem_cons] at hsub
      exact isOperand_unary (hoperand.isOperand h hsub.2).isClosed htext
  | binary hleft hright htext =>
      rw [Expr.subterms, List.forall_mem_cons, List.forall_mem_append] at hsub
      exact isOperand_binary (hleft.isOperand h hsub.2.1).isClosed
        (hright.isOperand h hsub.2.2).isClosed htext
  | cast hvalue htext =>
      rw [Expr.subterms, List.forall_mem_cons] at hsub
      exact isOperand_convert (hvalue.isOperand h hsub.2) htext
  | instanceOf hvalue =>
      rw [Expr.subterms, List.forall_mem_cons] at hsub
      refine isOperand_instanceTest (hvalue.isOperand h hsub.2).isClosed fun name hname =>
        hsub.1.2 name ?_
      rw [hname, Expr.namedClasses]
      exact List.mem_cons_self
  | checkCast hvalue =>
      rw [Expr.subterms, List.forall_mem_cons] at hsub
      exact (hvalue.isOperand h hsub.2).isClosed.operand _ _ (by decide)
  | rawCall hraw _ =>
      rw [Expr.subterms, List.forall_mem_cons] at hsub
      exact absurd hraw (by simpa [Expr.isRaw] using hsub.1.1)
  | @callStatic r _ _ _ _ _ _ _ hmethod hargs =>
      rw [Expr.subterms, List.forall_mem_cons] at hsub
      have howner := goesOn_word (returns_method h r _ _ _ hmethod).identifier
      exact (howner.member _).goesOn.arguments (hargs.isClosed h hsub.2)
  | callInstance hobject _ hargs =>
      rw [Expr.subterms, List.forall_mem_cons, List.forall_mem_append] at hsub
      have hobject := hobject.isOperand h hsub.2.1
      exact (hobject.goesOn.member _).goesOn.arguments (hargs.isClosed h hsub.2.2)
  | @callSuper _ _ _ _ _ _ target _ _ htarget hobject hargs =>
      rw [Expr.subterms, List.forall_mem_cons, List.forall_mem_append] at hsub
      have howner : target.owner.IsWord := owner_of_resolve h htarget
      have hprototype : IsOperand (target.owner.identifier ++ ("." ++ "prototype")) :=
        (goesOn_word howner.identifier).point (forall_mem_of_all (by decide))
      have hslot := hprototype.goesOn.member (methodName target)
      have hcall : IsOperand (target.owner.identifier ++ ("." ++ "prototype") ++
          Script.member (methodName target) ++ ("." ++ "call")) :=
        hslot.goesOn.point (forall_mem_of_all (by decide))
      exact hcall.goesOn.arguments (List.forall_mem_cons.2
        ⟨(hobject.isOperand h hsub.2.1).isClosed, hargs.isClosed h hsub.2.2⟩)
  | @construct owner _ _ _ _ _ _ _ _ hargs =>
      rw [Expr.subterms, List.forall_mem_cons] at hsub
      have hnew := (goesOn_new (hsub.1.2 owner List.mem_cons_self)).bracket (.inl rfl)
        (show Outlined ['('] "()" from rfl)
      exact (hnew.goesOn.member _).goesOn.arguments (hargs.isClosed h hsub.2)
  | @newArray type _ _ _ _ hlength =>
      rw [Expr.subterms, List.forall_mem_cons] at hsub
      exact isOperand_newArray (hlength.isOperand h hsub.2).isClosed type
  | @arrayLength _ _ _ base harray =>
      rw [Expr.subterms, List.forall_mem_cons] at hsub
      have hlength : IsOperand (base ++ ("." ++ "length")) :=
        (harray.isOperand h hsub.2).goesOn.point (forall_mem_of_all (by decide))
      exact hlength
  | @arrayGet _ _ _ _ _ base place harray hindex =>
      rw [Expr.subterms, List.forall_mem_cons, List.forall_mem_append] at hsub
      have hdata : IsOperand (base ++ ("." ++ "data")) :=
        (harray.isOperand h hsub.2.1).goesOn.point (forall_mem_of_all (by decide))
      have hentry := hdata.goesOn.bracket (.inr rfl)
        (hindex.isOperand h hsub.2.2).isClosed.outlined_square
      have hinner := hentry.isClosed.operand "(" ")" (by decide)
      have hsame : "(" ++ base ++ ".data[" ++ place ++ "])" =
          "(" ++ (base ++ ("." ++ "data") ++ ("[" ++ place ++ "]")) ++ ")" := by
        apply String.toList_injective
        simp
      exact hsame ▸ hinner
  | @ternary _ _ _ _ _ _ _ c y n hcond hyes hno =>
      rw [Expr.subterms, List.forall_mem_cons, List.forall_mem_append, List.forall_mem_append]
        at hsub
      have hcond := (hcond.isOperand h hsub.2.1.1).isClosed
      have hyes := (hyes.isOperand h hsub.2.1.2).isClosed
      have hno := (hno.isOperand h hsub.2.2).isClosed
      have hinner := ((hcond.apart "?" (by decide) hyes).apart ":" (by decide) hno).operand "(" ")"
        (by decide)
      have hsame : "(" ++ c ++ " ? " ++ y ++ " : " ++ n ++ ")" =
          "(" ++ (c ++ " " ++ "?" ++ " " ++ y ++ " " ++ ":" ++ " " ++ n) ++ ")" := by
        apply String.toList_injective
        simp
      exact hsame ▸ hinner

theorem LowersExprs.isClosed (h : job.program.OwnersAreWords) : ∀ {es : List Expr} {s t : State}
    {texts : List String}, LowersExprs job caller es s texts t →
      (∀ d ∈ subtermsOfAll es, d.IsOrdinary) → ∀ text ∈ texts, IsClosed text
  | _, _, _, _, .nil _, _ => nofun
  | _, _, _, _, .cons hfirst hrest, hsub => by
      rw [subtermsOfAll, List.forall_mem_append] at hsub
      exact List.forall_mem_cons.2
        ⟨(hfirst.isOperand h hsub.1).isClosed, hrest.isClosed h hsub.2⟩

end

/-- The text of every expression is an operand. Its brackets are closed in order, and none
before it is opened. Outside of them and of literals nothing separates and no operator
stands between two operands: there are no other signs than those in front and those of an
exponent, and no blank but the one behind `new`. So in any text that it is put into,
brackets match and separators stand as they do without it, and whoever reads an operand
where it begins reads all of it and no more. -/
theorem lowered_operand {job : Job} {caller : MethodRef} {e : Expr}
    (howners : job.program.OwnersAreWords) (hraw : ∀ d ∈ e.subterms, d.isRaw = false)
    (hnamed : ∀ d ∈ e.subterms, ∀ n ∈ d.namedClasses, n.IsWord) {s t : State} {text : String}
    (hrun : (lowerExpr job caller e).run s = (.ok text, t)) :
    ∃ outline part,
      Position.start.read? text.toList = some (outline, .start) ∧
      (∀ front, front <+: text.toList → ∃ shown p, Position.start.read? front = some (shown, p)) ∧
      (∀ c ∈ outline, c ∉ separators) ∧
      (∀ before c after, outline = before ++ c :: after →
        (c ∈ blanks → c = ' ' ∧ before = "new".toList) ∧
        (c ∈ prefixSigns → (∀ d ∈ before, d ∈ prefixSigns) ∨
          before.head?.any (·.isDigit) = true ∧
            (before.getLast? = some 'e' ∨ before.getLast? = some 'E'))) ∧
      Part.front.read? outline = some part ∧ part.ends = true ∧
      (∀ (p : Position) (rest : List Char), p.place = .code →
        p.read? (text.toList ++ rest) = (p.read? rest).map fun r =>
          ((if p.pending = [] then outline else []) ++ r.1, r.2)) ∧
      ∀ rest, EndsOperand rest →
        operandRest? .start .front (text.toList ++ rest) = some rest := by
  have hordinary : ∀ d ∈ e.subterms, d.IsOrdinary := fun d hd => ⟨hraw d hd, hnamed d hd⟩
  obtain ⟨outline, part, hread, hpart, hends⟩ :=
    (lowersExpr_of_run e hrun).isOperand howners hordinary
  refine ⟨outline, part, hread, fun front hfront => Position.exists_read?_of_prefix hread hfront,
    Part.not_separator_of_read? hpart, fun before c after hsplit =>
      ⟨Part.before_blank hpart hsplit, Part.before_sign hpart hsplit⟩,
    hpart, hends, fun p rest hcode => Position.read?_closed hread hcode rest, fun rest hrest => ?_⟩
  rw [operandRest?_append hread hpart]
  exact operandRest?_ends hends hrest

/-- A construction with separators, signs and literals in its arguments. -/
def crowded : Expr :=
  .construct ⟨"Main"⟩ (procedureRef "Main" "<init>")
    [.instanceOf (.literal (.string "),;")) (.array (.ref ⟨"Main"⟩)),
     .binary .sub .int (.param "a b") (.literal (.int (-1)))]

theorem lowered_operand_crowded :
    let job : Job := ⟨solo [emptyConstructor "Main"], {}, plainTemplater⟩
    let text := "new Main()[\"Main<init>()V\"](N.is(S[0], \"[LMain;\"), ((a_b - (-1))|0))"
    job.program.OwnersAreWords ∧
      (∀ d ∈ crowded.subterms, d.isRaw = false ∧ ∀ n ∈ d.namedClasses, n.IsWord) ∧
      ∃ t, (lowerExpr job (procedureRef "Main" "run") crowded).run .initial = (.ok text, t) ∧
        Position.start.read? text.toList = some ("new Main([(".toList, .start) ∧
        operandRest? .start .front (text.toList ++ " + 1;".toList) = some " + 1;".toList := by
  intro job text
  have hmain : (ClassName.mk "Main").IsWord := by
    rw [ClassName.IsWord]
    exact forall_mem_of_all (by decide)
  have howners : job.program.OwnersAreWords := by
    simp [job, solo, soloClass, Class.bare, Program.OwnersAreWords, emptyConstructor, hmain]
  have hordinary : ∀ d ∈ crowded.subterms, d.isRaw = false ∧ ∀ n ∈ d.namedClasses, n.IsWord := by
    simp [crowded, Expr.subterms, subtermsOfAll, Expr.isRaw, Expr.namedClasses, hmain]
  have hresolve : job.program.resolve (procedureRef "Main" "<init>") =
      some (emptyConstructor "Main") := (resolve_solo _ _ _).trans rfl
  have hrun : ∃ t, (lowerExpr job (procedureRef "Main" "run") crowded).run .initial =
      (.ok text, t) := by
    refine ⟨{ State.initial with pool := ⟨["),;"]⟩ }, ?_⟩
    simp only [crowded, lowerExpr, lowerExprs]
    rw [run_bind_ok (run_methodRefName hresolve .initial)]
    exact Prod.ext (congrArg Except.ok (by decide +kernel)) rfl
  obtain ⟨t, hrun⟩ := hrun
  obtain ⟨outline, part, hread, -, -, -, -, -, -, hrest⟩ :=
    lowered_operand howners (fun d hd => (hordinary d hd).1) (fun d hd => (hordinary d hd).2) hrun
  have houtline : Position.start.read? text.toList = some ("new Main([(".toList, .start) := by
    decide +kernel
  refine ⟨howners, hordinary, t, hrun, houtline, hrest _ ?_⟩
  have hafter : ∀ c ∈ [' '], isVariableChar c = false ∧ c ∉ ['.', '(', '[', '+', '-'] :=
    forall_mem_of_all (by decide)
  exact fun c hc => hafter c (by simpa using hc.symm)

end Emission

end ClassScript
