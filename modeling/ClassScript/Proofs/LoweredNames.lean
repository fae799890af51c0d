import ClassScript.Proofs.ExpressionRuns
import ClassScript.Proofs.StaticInitializers
import ClassScript.Proofs.WordTemplates

/-!
The names in lowered text. Expression by expression and statement by statement, the text
has for names what is referred to, spelled as each reference is, and in the same order.
-/

namespace ClassScript

open Script Words

/-- The text that a raw call splices, before it is rendered. -/
def Expr.spliced? : Expr → Option String
  | .callStatic r (.literal (.string text) :: _) => if Emission.isRawCall r then some text else none
  | _ => none

/-- An expression that names no class but by a word, and that splices nothing but lines in
which no literal stays open. -/
def Expr.IsLegible (job : Emission.Job) (e : Expr) : Prop :=
  (∀ n ∈ e.namedClasses, n.IsWord) ∧
    ∀ text ∈ e.spliced?, ∀ line, job.templater .rawCall text = .ok line →
      '\n' ∉ line.toList ∧ (Cursor.code.read line.toList).2.settled = true

namespace Emission

open Output

variable {job : Job} {caller : MethodRef} {refs : List Reference} {text : String}

section Accesses

theorem refers_field (howners : job.program.OwnersAreWords) (r : FieldRef) :
    Returns (fun f => Refers (job.fieldReferences r) f.owner.identifier) (job.field r) := by
  intro s f t hrun
  have hfound := eq_of_run_field hrun
  rw [Job.fieldReferences, hfound]
  exact refers_class (owner_of_findField howners hfound)

theorem refers_staticField (howners : job.program.OwnersAreWords) (r : FieldRef) :
    Returns (Refers (job.fieldReferences r)) (job.staticField r) :=
  (refers_field howners r).bind fun _ howner => .after fun _ => .pure (howner.member _)

theorem refers_method (howners : job.program.OwnersAreWords) (r : MethodRef) :
    Returns (fun m => Refers (job.methodReferences r) m.owner.identifier) (job.method r) := by
  intro s m t hrun
  have hfound := eq_of_run_method hrun
  rw [Job.methodReferences, hfound]
  exact refers_class (owner_of_resolve howners hfound)

end Accesses

section Templates

theorem refers_literal (v : Literal) : Returns (Refers v.references) (literal v) := by
  unfold literal
  split
  · exact .after fun _ => .after fun _ => .pure
      ((refers_nil (mentions_natural _)).within [.global .pool] (by decide) (by decide) (by decide))
  · next hother => exact .pure (refers_constant fun text htext => hother text htext)

theorem refers_instanceTest (hvalue : Refers refs text) {type : Ty}
    (hnamed : ∀ name, type = .ref name → name.IsWord) :
    Refers ((job.testReferences type).1 ++ refs ++ (job.testReferences type).2)
      (job.instanceTest text type) := by
  have hclass : ∀ name : ClassName, name.IsWord →
      Refers ([] ++ refs ++ [.ofClass name]) ("(" ++ text ++ " instanceof " ++ name.identifier ++ ")") := by
    intro name hname
    have hboth := hvalue.separated (show Separates " instanceof " by decide) (refers_class hname)
    have htest := hboth.within [] (show Opening [] "(" by decide) (show Mentions [] ")" by decide)
      (by decide)
    simpa only [String.append_assoc, List.append_assoc] using htest
  have hhelper : ∀ {front tail : String}, Opening ["N"] front → Mentions [] tail →
      Refers ([.global .runtime] ++ refs ++ []) (front ++ text ++ ", " ++ tail ++ ")") := by
    intro front tail hfront htail
    have hcall := refers_call₂ hvalue (refers_nil htail) [.global .runtime] hfront
    simpa only [List.append_assoc] using hcall
  cases type with
  | ref name =>
      rw [Job.instanceTest, Job.testReferences]
      cases hfound : job.program.class? name with
      | none => exact hclass name (hnamed name rfl)
      | some c =>
          cases hinterface : c.isInterface with
          | true =>
              simp only [Option.any_some, hinterface, if_true]
              exact hhelper (by decide) (mentions_natural _)
          | false =>
              simp only [Option.any_some, hinterface, Bool.false_eq_true, if_false]
              exact hclass name (hnamed name rfl)
  | _ => exact hhelper (by decide) (opening_quote _).mentions

theorem refers_newArray (hlength : Refers refs text) (type : Ty) :
    Refers ([.array type] ++ refs) (newArray type text) := by
  have hother : arrayConstructor type = "JA_L" → Refers ([.array type] ++ refs)
      ("new JA_L(" ++ text ++ ", " ++ quote type.descriptor ++ ")") := by
    intro hconstructor
    have hspelled : spelled [.array type] = ["JA_L"] := by
      rw [spelled, List.map_singleton, Reference.spelling, hconstructor]
      decide
    have hcall := refers_call₂ hlength (refers_nil (opening_quote type.descriptor).mentions)
      [.array type] (hspelled ▸ show Opening ["JA_L"] "new JA_L(" by decide)
    rwa [List.append_nil] at hcall
  cases type with
  | array element =>
      cases element with
      | ref _ | array _ => exact hother rfl
      | _ => exact hlength.within _ (by decide) (by decide) (by decide)
  | _ => exact hother rfl

/-- Names are spelled as they have been read. -/
theorem spelled_raw (chars : List Char) :
    spelled ((namesIn chars).map .raw) = namesIn chars := by
  have hspelling : ((namesIn chars).map Reference.raw).map Reference.spelling = namesIn chars := by
    rw [List.map_map]
    exact List.map_id _
  rw [spelled, hspelling, namesIn, named, List.filter_filter]
  simp only [Bool.and_self]

/-- A raw call has the names of the text that it splices. -/
theorem refers_rawCall {call : Expr} {name : String} {args : List Expr}
    (h : ∀ text rest, args = .literal (.string text) :: rest → ∀ line,
      job.templater .rawCall text = .ok line →
        '\n' ∉ line.toList ∧ (Cursor.code.read line.toList).2.settled = true) :
    Returns (Refers (job.rawReferences name args)) (job.rawCall caller call name args) := by
  unfold Job.rawCall
  split
  · next raw rest =>
      have hrender : Returns (fun line => job.templater .rawCall raw = .ok line)
          (job.render .rawCall raw) := by
        intro s line t hrun
        rw [run_render, Prod.mk.injEq] at hrun
        exact hrun.1
      refine hrender.bind fun line hline => .pure ?_
      obtain ⟨honeLine, hsettled⟩ := h raw rest rfl line hline
      have hnames : Refers ((namesIn line.toList).map .raw) line :=
        ⟨honeLine, hsettled, (spelled_raw line.toList).symm⟩
      rw [Job.rawReferences, hline]
      dsimp only
      split
      · exact hnames.within (wrapperReferences "z_raw") (by decide) (by decide) (by decide)
      · exact hnames.within (wrapperReferences "i_raw") (by decide) (by decide) (by decide)
      · exact hnames.within (wrapperReferences "d_raw") (by decide) (by decide) (by decide)
      · exact hnames.within (wrapperReferences "s_raw") (by decide) (by decide) (by decide)
      · next hother =>
          rw [wrapperReferences, if_neg hother]
          exact hnames
  · exact .throw _

end Templates

mutual

/-- The names in the text of an expression are those of its references. -/
theorem LowersExpr.refers (h : job.program.OwnersAreWords) {e : Expr} {s t : State} {text : String}
    (hlowers : LowersExpr job caller e s text t) (hsub : ∀ d ∈ e.subterms, d.IsLegible job) :
    Refers (e.references job) text := by
  cases hlowers with
  | @literal v s t text hliteral =>
      rw [Expr.references]
      exact refers_literal v s text t hliteral
  | slot name _ | param name _ =>
      rw [Expr.references]
      exact refers_variable name
  | this _ | caught _ =>
      rw [Expr.references]
      exact show Mentions _ _ by decide
  | instanceField hobject _ =>
      rw [Expr.subterms, List.forall_mem_cons] at hsub
      rw [Expr.references]
      exact (hobject.refers h hsub.2).member _
  | @staticField field s t text hfield =>
      rw [Expr.references]
      exact refers_staticField h field s text t hfield
  | unary hoperand htext =>
      rw [Expr.subterms, List.forall_mem_cons] at hsub
      rw [Expr.references]
      exact refers_unary (hoperand.refers h hsub.2) htext
  | binary hleft hright htext =>
      rw [Expr.subterms, List.forall_mem_cons, List.forall_mem_append] at hsub
      rw [Expr.references]
      exact refers_binary (hleft.refers h hsub.2.1) (hright.refers h hsub.2.2) htext
  | cast hvalue htext =>
      rw [Expr.subterms, List.forall_mem_cons] at hsub
      rw [Expr.references]
      exact refers_convert (hvalue.refers h hsub.2) htext
  | instanceOf hvalue =>
      rw [Expr.subterms, List.forall_mem_cons] at hsub
      rw [Expr.references]
      refine refers_instanceTest (hvalue.refers h hsub.2) fun name hname => hsub.1.1 name ?_
      rw [hname, Expr.namedClasses]
      exact List.mem_cons_self
  | checkCast hvalue =>
      rw [Expr.subterms, List.forall_mem_cons] at hsub
      rw [Expr.references]
      exact (hvalue.refers h hsub.2).within [] (by decide) (by decide) (by decide)
  | @rawCall r args s t text hraw hcall =>
      rw [Expr.subterms, List.forall_mem_cons] at hsub
      rw [Expr.references, if_pos hraw]
      refine refers_rawCall (fun raw rest hargs => hsub.1.2 raw ?_) s text t hcall
      rw [hargs, Expr.spliced?, if_pos hraw]
      rfl
  | @callStatic r _ _ _ _ _ _ hraw hmethod hargs =>
      rw [Expr.subterms, List.forall_mem_cons] at hsub
      rw [Expr.references, if_neg hraw]
      have howner := refers_method h r _ _ _ hmethod
      exact (howner.member _).arguments (hargs.refers h hsub.2)
  | callInstance hobject _ hargs =>
      rw [Expr.subterms, List.forall_mem_cons, List.forall_mem_append] at hsub
      rw [Expr.references]
      exact ((hobject.refers h hsub.2.1).member _).arguments (hargs.refers h hsub.2.2)
  | @callSuper _ _ _ _ _ _ target _ _ htarget hobject hargs =>
      rw [Expr.subterms, List.forall_mem_cons, List.forall_mem_append] at hsub
      have howner := refers_class (owner_of_resolve h htarget)
      have hprototype := howner.plain (show Mentions [] ".prototype" by decide) (by decide)
      have hslot := hprototype.member (methodName target)
      have hcall := hslot.plain (show Mentions [] ".call" by decide) (by decide)
      rw [Expr.references, Job.methodReferences, htarget, List.append_assoc]
      exact hcall.arguments (.cons (hobject.refers h hsub.2.1) (hargs.refers h hsub.2.2))
  | @construct owner _ _ _ _ _ _ _ _ hargs =>
      rw [Expr.subterms, List.forall_mem_cons] at hsub
      rw [Expr.references]
      have howner := refers_class (hsub.1.1 owner List.mem_cons_self)
      have hnew := howner.within [] (show Opening [] "new " by decide)
        (show Mentions [] "()" by decide) (by decide)
      exact (hnew.member _).arguments (hargs.refers h hsub.2)
  | @newArray type _ _ _ _ hlength =>
      rw [Expr.subterms, List.forall_mem_cons] at hsub
      rw [Expr.references]
      exact refers_newArray (hlength.refers h hsub.2) type
  | arrayLength harray =>
      rw [Expr.subterms, List.forall_mem_cons] at hsub
      rw [Expr.references]
      exact (harray.refers h hsub.2).plain (by decide) (by decide)
  | arrayGet harray hindex =>
      rw [Expr.subterms, List.forall_mem_cons, List.forall_mem_append] at hsub
      rw [Expr.references]
      have hboth := (harray.refers h hsub.2.1).separated (show Separates ".data[" by decide)
        (hindex.refers h hsub.2.2)
      have hentry := hboth.within [] (show Opening [] "(" by decide)
        (show Mentions [] "])" by decide) (by decide)
      simpa only [String.append_assoc, List.nil_append] using hentry
  | ternary hcond hyes hno =>
      rw [Expr.subterms, List.forall_mem_cons, List.forall_mem_append, List.forall_mem_append]
        at hsub
      rw [Expr.references]
      have hall := ((hcond.refers h hsub.2.1.1).separated (show Separates " ? " by decide)
        (hyes.refers h hsub.2.1.2)).separated (show Separates " : " by decide)
        (hno.refers h hsub.2.2)
      have hgroup := hall.within [] (show Opening [] "(" by decide)
        (show Mentions [] ")" by decide) (by decide)
      simpa only [String.append_assoc, List.nil_append] using hgroup

theorem LowersExprs.refers (h : job.program.OwnersAreWords) : ∀ {es : List Expr} {s t : State}
    {texts : List String}, LowersExprs job caller es s texts t →
      (∀ d ∈ subtermsOfAll es, d.IsLegible job) → ReferInTurn (referencesOfAll job es) texts
  | _, _, _, _, .nil _, _ => .nil
  | _, _, _, _, .cons hfirst hrest, hsub => by
      rw [subtermsOfAll, List.forall_mem_append] at hsub
      exact .cons (hfirst.refers h hsub.1) (hrest.refers h hsub.2)

end

/-- The names in the text of an expression, where it is lowered, are those of its
references. -/
theorem refers_expr (h : job.program.OwnersAreWords) {e : Expr} {s t : State} {text : String}
    (hrun : (lowerExpr job caller e).run s = (.ok text, t)) (hsub : ∀ d ∈ e.subterms, d.IsLegible job) :
    Refers (e.references job) text :=
  (lowersExpr_of_run e hrun).refers h hsub

theorem refers_exprs (h : job.program.OwnersAreWords) {es : List Expr} {s t : State}
    {texts : List String} (hrun : (lowerExprs job caller es).run s = (.ok texts, t))
    (hsub : ∀ d ∈ subtermsOfAll es, d.IsLegible job) : ReferInTurn (referencesOfAll job es) texts :=
  (lowersExprs_of_run es hrun).refers h hsub

end Emission

end ClassScript
