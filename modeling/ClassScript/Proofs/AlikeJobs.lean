import ClassScript.Emission.Class
import ClassScript.Proofs.FieldNaming
import ClassScript.Proofs.TwoRuns

/-!
Jobs whose smallest steps agree. Then their expressions agree, and when their bodies
lower to related documents, so do their methods and classes, for any relation that
putting documents together keeps. For expressions alone the two jobs may be on two
programs, if these answer alike.
-/

namespace ClassScript.Emission

open Output

/-- Jobs for one program and target that name fields, pool literals, render
templates and write notes alike. -/
structure Alike (S : State → State → Prop) (job job' : Job) : Prop where
  program : job'.program = job.program
  target : job'.config.target = job.config.target
  literal : ∀ v, Agree S Eq (literal v) (literal v)
  render : ∀ site text, Agree S Eq (job.render site text) (job'.render site text)
  declaredName : ∀ f, job.program.Declares f →
    Agree S Eq (job.declaredFieldName f) (job'.declaredFieldName f)
  note : ∀ level message values, Agree S Eq (note level message values) (note level message values)

/-- Methods that calls and accesses do not tell apart. -/
structure SameSlots (m m' : Method) : Prop where
  owner : m'.owner = m.owner
  methodName : methodName m' = methodName m
  slotName : ∀ r, slotName m' r = slotName m r

/-- Jobs, perhaps on two programs, that give every expression the same answers. -/
structure AlikeNodes (S : State → State → Prop) (job job' : Job) : Prop where
  literal : ∀ v, Agree S Eq (literal v) (literal v)
  rawCall : ∀ caller call name args,
    Agree S Eq (job.rawCall caller call name args) (job'.rawCall caller call name args)
  fieldName : ∀ r, Agree S Eq (job.fieldName r) (job'.fieldName r)
  staticField : ∀ r, Agree S Eq (job.staticField r) (job'.staticField r)
  instanceTest : ∀ value type, job'.instanceTest value type = job.instanceTest value type
  resolve : ∀ r, Option.Rel SameSlots (job.program.resolve r) (job'.program.resolve r)

/-- A relation between states with the same tables, kept by whatever the smallest
steps of an emission add on both sides. -/
structure Parallel (S : State → State → Prop) : Prop where
  fieldNames : ∀ {s t}, S s t → s.fieldNames = t.fieldNames
  pool : ∀ {s t}, S s t → s.pool = t.pool
  setFieldNames : ∀ {s t} names, S s t → S { s with fieldNames := names } { t with fieldNames := names }
  setPool : ∀ {s t} pool, S s t → S { s with pool } { t with pool }
  render : ∀ {s t} call, S s t →
    S { s with renders := s.renders ++ [call] } { t with renders := t.renders ++ [call] }
  note : ∀ {s t} event, S s t → S { s with log := s.log ++ [event] } { t with log := t.log ++ [event] }

namespace Parallel

variable {S : State → State → Prop} {job job' : Job}

theorem eq : Parallel Eq where
  fieldNames h := congrArg _ h
  pool h := congrArg _ h
  setFieldNames _ h := h ▸ rfl
  setPool _ h := h ▸ rfl
  render _ h := h ▸ rfl
  note _ h := h ▸ rfl

theorem literal (h : Parallel S) (v : Literal) : Agree S Eq (literal v) (literal v) := by
  intro s t hs
  cases v with
  | string text =>
      change Matching S Eq (.ok ("S[" ++ Text.natural (s.pool.alloc text).1 ++ "]"),
        { s with pool := (s.pool.alloc text).2 }) (.ok ("S[" ++ Text.natural (t.pool.alloc text).1 ++ "]"),
        { t with pool := (t.pool.alloc text).2 })
      rw [h.pool hs]
      exact .ok rfl (h.setPool _ hs)
  | _ => exact .ok rfl hs

theorem rendered (h : Parallel S) (htemplater : job'.templater = job.templater) (site : Site)
    (text : String) : Agree S Eq (job.render site text) (job'.render site text) := by
  intro s t hs
  change Matching S Eq (job.templater site text, _) (job'.templater site text, _)
  rw [htemplater]
  cases job.templater site text with
  | ok out => exact .ok rfl (h.render _ hs)
  | error e => exact .error (h.render _ hs)

theorem noted (h : Parallel S) (level : Level) (message : String) (values : List (String × String)) :
    Agree S Eq (Emission.note level message values) (Emission.note level message values) :=
  fun _ _ hs => .ok rfl (h.note _ hs)

theorem declaredFieldName (h : Parallel S) (hprogram : job'.program = job.program) (f : Field) :
    Agree S Eq (job.declaredFieldName f) (job'.declaredFieldName f) := by
  intro s t hs
  rw [Job.declaredFieldName, Job.declaredFieldName, run_bind_ok (run_get s), run_bind_ok (run_get t),
    h.fieldNames hs, hprogram]
  generalize (nameField job.program (namingDepth job.program) f.reference).run t.fieldNames = named
  obtain ⟨result, names⟩ := named
  cases result with
  | ok name => exact .ok rfl (h.setFieldNames names hs)
  | error field => exact .error (h.setFieldNames names hs)

/-- Jobs that differ in nothing that the smallest steps look at are alike. -/
theorem alike (h : Parallel S) (hprogram : job'.program = job.program)
    (htarget : job'.config.target = job.config.target) (htemplater : job'.templater = job.templater) :
    Alike S job job' where
  program := hprogram
  target := htarget
  literal := h.literal
  render := h.rendered htemplater
  declaredName f _ := h.declaredFieldName hprogram f
  note := h.noted

end Parallel

namespace Alike

variable {S : State → State → Prop} {job job' : Job}

theorem field (h : Alike S job job') (r : FieldRef) :
    Agree S (fun f g => f = g ∧ job.program.Declares f) (job.field r) (job'.field r) := by
  simp only [Job.field, h.program]
  cases hfound : job.program.findField r with
  | none => exact .throw _
  | some f => exact .pure ⟨rfl, Program.declares_of_findField hfound⟩

theorem fieldName (h : Alike S job job') (r : FieldRef) :
    Agree S Eq (job.fieldName r) (job'.fieldName r) := by
  apply (h.field r).bind
  rintro f _ ⟨rfl, hdeclared⟩
  exact h.declaredName f hdeclared

theorem staticField (h : Alike S job job') (r : FieldRef) :
    Agree S Eq (job.staticField r) (job'.staticField r) := by
  apply (h.field r).bind
  rintro f _ ⟨rfl, hdeclared⟩
  exact (h.declaredName f hdeclared).bindEq fun name => .pure rfl

theorem rawCall (h : Alike S job job') (caller : MethodRef) (call : Expr) (name : String)
    (args : List Expr) :
    Agree S Eq (job.rawCall caller call name args) (job'.rawCall caller call name args) := by
  unfold Job.rawCall
  split
  · exact (h.render _ _).bindEq fun text => .pure rfl
  · exact .throw _

theorem nodes (h : Alike S job job') : AlikeNodes S job job' where
  literal := h.literal
  rawCall := h.rawCall
  fieldName := h.fieldName
  staticField := h.staticField
  instanceTest value type := by
    unfold Job.instanceTest
    rw [h.program]
  resolve r := by
    rw [h.program]
    cases job.program.resolve r with
    | none => exact .none
    | some m => exact .some ⟨rfl, rfl, fun _ => rfl⟩

end Alike

namespace AlikeNodes

variable {S : State → State → Prop} {job job' : Job}

theorem method (h : AlikeNodes S job job') (r : MethodRef) :
    Agree S SameSlots (job.method r) (job'.method r) := by
  have hresolve := h.resolve r
  unfold Job.method
  generalize job.program.resolve r = found at hresolve ⊢
  generalize job'.program.resolve r = found' at hresolve ⊢
  cases hresolve with
  | none => exact .throw _
  | some hsame => exact .pure hsame

theorem methodRefName (h : AlikeNodes S job job') (r : MethodRef) :
    Agree S Eq (job.methodRefName r) (job'.methodRefName r) :=
  (h.method r).bind fun _ _ hsame => .pure (hsame.slotName r).symm

theorem definedOr (S : State → State → Prop) (cause : Malformed) (text : Option String) :
    Agree S Eq (definedOr cause text) (definedOr cause text) := by
  cases text with
  | none => exact .throw _
  | some text => exact .pure rfl

mutual

/-- They give an expression the same text. -/
theorem expression (h : AlikeNodes S job job') (caller : MethodRef) : ∀ e : Expr,
    Agree S Eq (lowerExpr job caller e) (lowerExpr job' caller e)
  | .literal v => by
      simp only [lowerExpr]
      exact h.literal v
  | .slot _ | .param _ | .this | .caught => by
      simp only [lowerExpr]
      exact .pure rfl
  | .instanceField object field => by
      simp only [lowerExpr]
      apply (h.expression caller object).bindEq
      intro _
      exact (h.fieldName field).bindEq fun _ => .pure rfl
  | .staticField field => by
      simp only [lowerExpr]
      exact h.staticField field
  | .unary _ _ operand | .cast operand _ _ => by
      simp only [lowerExpr]
      exact (h.expression caller operand).bindEq fun _ => definedOr S _ _
  | .binary _ _ left right => by
      simp only [lowerExpr]
      apply (h.expression caller left).bindEq
      intro _
      exact (h.expression caller right).bindEq fun _ => definedOr S _ _
  | .instanceOf value type => by
      simp only [lowerExpr, h.instanceTest]
      exact (h.expression caller value).bindEq fun _ => .pure rfl
  | .checkCast value _ | .newArray _ value | .arrayLength value => by
      simp only [lowerExpr]
      exact (h.expression caller value).bindEq fun _ => .pure rfl
  | .callStatic method args => by
      simp only [lowerExpr]
      split
      · exact h.rawCall _ _ _ _
      · apply (h.method method).bind
        intro m m' hsame
        rw [hsame.owner, hsame.slotName]
        exact (h.expressions caller args).bindEq fun _ => .pure rfl
  | .callInstance object method args => by
      simp only [lowerExpr]
      apply (h.expression caller object).bindEq
      intro _
      apply (h.methodRefName method).bindEq
      intro _
      exact (h.expressions caller args).bindEq fun _ => .pure rfl
  | .callSuper object method args => by
      have hresolve := h.resolve method
      simp only [lowerExpr]
      generalize job.program.resolve method = found at hresolve ⊢
      generalize job'.program.resolve method = found' at hresolve ⊢
      cases hresolve with
      | none => exact .throw _
      | some hsame =>
          simp only [hsame.owner, hsame.methodName]
          apply (h.expression caller object).bindEq
          intro _
          exact (h.expressions caller args).bindEq fun _ => .pure rfl
  | .construct _ ctor args => by
      simp only [lowerExpr]
      apply (h.methodRefName ctor).bindEq
      intro _
      exact (h.expressions caller args).bindEq fun _ => .pure rfl
  | .arrayGet array index => by
      simp only [lowerExpr]
      apply (h.expression caller array).bindEq
      intro _
      exact (h.expression caller index).bindEq fun _ => .pure rfl
  | .ternary cond yes no => by
      simp only [lowerExpr]
      apply (h.expression caller cond).bindEq
      intro _
      apply (h.expression caller yes).bindEq
      intro _
      exact (h.expression caller no).bindEq fun _ => .pure rfl

theorem expressions (h : AlikeNodes S job job') (caller : MethodRef) : ∀ es : List Expr,
    Agree S Eq (lowerExprs job caller es) (lowerExprs job' caller es)
  | [] => by
      simp only [lowerExprs]
      exact .pure rfl
  | e :: rest => by
      simp only [lowerExprs]
      apply (h.expression caller e).bindEq
      intro _
      exact (h.expressions caller rest).bindEq fun _ => .pure rfl

end

end AlikeNodes

end ClassScript.Emission
