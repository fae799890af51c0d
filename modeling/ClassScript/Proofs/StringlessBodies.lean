import ClassScript.Proofs.BodyFaults
import ClassScript.Proofs.LoweredNodes
import ClassScript.Proofs.PoolHistory

/-!
Bodies without string literals. Lowering one asks nothing of the string pool and
leaves it as it is, so it ends alike with every pool, and if the body is malformed,
an operation in it is to blame.
-/

namespace ClassScript

/-- No string literal stands in the body. -/
def Body.Stringless (body : Body) : Prop :=
  ∀ text, .literal (.string text) ∉ body.stmt.expressions

/-- What a body is malformed by if this operation in it is not defined. -/
def Expr.malformation? : Expr → Option Emission.Malformed
  | .unary op kind _ => some (.unary op kind)
  | .binary op kind _ _ => some (.binary op kind)
  | .cast _ source target => some (.conversion source target)
  | _ => none

namespace Emission

theorem not_mem_nodesIn_of_stringless {body : Body} (h : body.Stringless) (job : Job) (text : String) :
    .literal (.string text) ∉ job.nodesIn body :=
  fun hmem => h text (Job.nodesIn_mem_expressions hmem nofun nofun)

/-- Apart from templates, it is undefined operations that make a body malformed. -/
theorem malformation_of_faultAt {job : Job} {caller : MethodRef} {e : Expr} {cause : Malformed}
    (h : .malformedBody cause ∈ job.faultAt caller e)
    (hstring : ∀ r args text, e = .callStatic r args → .literal (.string text) ∉ args) :
    e.malformation? = some cause := by
  cases e with
  | unary | binary | cast =>
      obtain rfl := EmitError.malformedBody.inj (of_mem_unanswered h).1
      rfl
  | instanceField | staticField | callInstance | callSuper | construct =>
      cases (of_mem_unanswered h).1
  | callStatic r args =>
      simp only [Job.faultAt] at h
      split at h
      · split at h
        · exact absurd List.mem_cons_self (hstring _ _ _ rfl)
        · cases List.mem_singleton.1 h
      · cases (of_mem_unanswered h).1
  | _ => cases h

/-- A body without string literals is malformed by one of its operations. -/
theorem exists_malformation {job : Job} {owner : ClassName} {m : Method} {body : Body}
    {cause : Malformed} (h : body.Stringless)
    (hfails : ((lowerBody job owner m body).runFrom .initial).1 = .error (.malformedBody cause)) :
    ∃ e ∈ body.stmt.expressions, e.malformation? = some cause := by
  obtain ⟨-, hends⟩ := lowerBody_meets job owner m body .initial job.ordered_initial
  rw [← Emit.runFrom, hfails] at hends
  generalize hfaults : job.bodyFaults owner m body = faults at hends
  cases hends with
  | first _ later =>
      have hmem : .malformedBody cause ∈ job.bodyFaults owner m body := by
        rw [hfaults]
        exact List.mem_cons_self
      obtain ⟨e, he, hfault⟩ := List.mem_flatMap.1 hmem
      have hstring : ∀ r args text, e = .callStatic r args → .literal (.string text) ∉ args := by
        rintro r args text rfl hliteral
        have hcall := Job.nodesIn_mem_expressions he (fun _ _ h => by cases h) fun _ h => by cases h
        have harg := List.mem_cons_of_mem (.callStatic r args) (mem_subtermsOfAll hliteral)
        exact h text (body.stmt.expressions_closed _ hcall harg)
      have hmalformed := malformation_of_faultAt hfault hstring
      refine ⟨e, Job.nodesIn_mem_expressions he ?_ ?_, hmalformed⟩
      · rintro object r rfl
        cases hmalformed
      · rintro r rfl
        cases hmalformed

section Runs

variable {job : Job} {S : State → State → Prop}

theorem Immediate.agree {α : Type} {x : Emit α} (h : Immediate x) : Agree S Eq x x := by
  cases h with
  | pure a => exact .pure rfl
  | throw e => exact .throw e

variable (hrender : ∀ site text, Agree S Eq (job.render site text) (job.render site text))
  (hname : ∀ f, Agree S Eq (job.declaredFieldName f) (job.declaredFieldName f))

include hrender hname

/-- Two runs of the own step of a node agree if those of naming and rendering do
and the node is no string literal. -/
theorem NodeStep.agree {caller : MethodRef} {α : Type} {e : Expr} {x : Emit α}
    (h : NodeStep job caller e x) (hstring : ∀ text, e ≠ .literal (.string text)) : Agree S Eq x x := by
  cases h with
  | literal v =>
      rcases run_literal v with ⟨text, rfl⟩ | hrun
      · exact absurd rfl (hstring text)
      · intro s t hst
        rw [hrun, hrun]
        exact .ok rfl hst
  | plain _ a => exact .pure rfl
  | instanceField _ r => exact (Immediate.field job r).agree.bindEq hname
  | staticField r =>
      exact (Immediate.field job r).agree.bindEq fun f => (hname f).bindEq fun _ => .pure rfl
  | unary | binary | cast => exact (Immediate.definedOr _ _).agree
  | rawCall _ args =>
      unfold Job.rawCall
      split
      · exact (hrender _ _).bindEq fun _ => .pure rfl
      · exact .throw _
  | callStatic => exact (Immediate.method job _).agree
  | callInstance | construct => exact (Immediate.method job _).agree.bindEq fun _ => .pure rfl
  | callSuper => exact (Immediate.superMethod job _ _).agree

/-- The same for the steps of nodes in turn. -/
theorem Steps.agree {caller : MethodRef} {α : Type} {nodes : List Expr} {x : Emit α}
    (h : Steps job caller nodes x) (hstring : ∀ text, .literal (.string text) ∉ nodes) :
    Agree S Eq x x := by
  induction h with
  | pure a => exact .pure rfl
  | node h => exact h.agree hrender hname fun text he => hstring text (List.mem_singleton.2 he.symm)
  | bind _ _ ih ihrest =>
      refine (ih fun text hmem => hstring text (List.mem_append_left _ hmem)).bindEq fun a => ?_
      exact ihrest a fun text hmem => hstring text (List.mem_append_right _ hmem)

end Runs

/-- States with these pools and with memos that the program determines. -/
structure WithPools (p : Program) (pool pool' : Output.StringPool) (s t : State) : Prop where
  left : s.pool = pool ∧ Determined p s.fieldNames
  right : t.pool = pool' ∧ Determined p t.fieldNames

/-- A body without string literals is lowered alike with whatever pools there are,
and these stay. -/
theorem lowerBody_stringless {job : Job} (hacyclic : job.program.Acyclic)
    (howns : job.program.OwnsFields) {body : Body} (h : body.Stringless) (owner : ClassName)
    (m : Method) (pool pool' : Output.StringPool) :
    Agree (WithPools job.program pool pool') Eq (lowerBody job owner m body)
      (lowerBody job owner m body) := by
  refine (lowerBody_steps job owner m body).agree ?_ ?_ (not_mem_nodesIn_of_stringless h job)
  · intro site text s t hst
    rw [run_render, run_render]
    cases job.templater site text with
    | ok out => exact .ok rfl ⟨hst.left, hst.right⟩
    | error e => exact .error ⟨hst.left, hst.right⟩
  · exact declaredFieldName_agree hacyclic howns (fun hst => ⟨hst.left.2, hst.right.2⟩)
      fun hst hfilled hfilled' => ⟨⟨hst.left.1, hfilled⟩, hst.right.1, hfilled'⟩

end Emission

end ClassScript
