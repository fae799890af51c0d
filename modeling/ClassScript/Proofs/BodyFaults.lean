import ClassScript.Proofs.Assembly
import ClassScript.Proofs.FieldNumbering
import ClassScript.Proofs.SwitchLowering

/-!
What makes the lowering of a body fail. Every node of a body asks at most one
question that may have no answer: for a field, a method, the meaning of an
operator or the rendering of a template. Lowering succeeds if each has its answer,
and fails on the first that has none.
-/

namespace ClassScript

/-- Fields can be named if no class extends itself and every field belongs to the
class that lists it. -/
def Program.NamesFields (p : Program) : Prop :=
  p.Acyclic ∧ p.OwnsFields

namespace Script

/-- Whether an operator is defined does not depend on its operands. -/
theorem isNone_unary? (op : UnaryOp) (kind : OperandKind) (v w : String) :
    (unary? op kind v).isNone = (unary? op kind w).isNone := by
  cases op <;> cases kind <;> rfl

open Operator in
theorem isNone_binary? (op : BinaryOp) (kind : OperandKind) (l r l' r' : String) :
    (binary? op kind l r).isNone = (binary? op kind l' r').isNone := by
  cases kind with
  | int => cases op <;> simp only [binary?, intBinary?, Option.isNone_some, Option.isNone_map]
  | long => simp only [binary?, Option.isNone_map]
  | float | double =>
      cases op <;>
        simp only [binary?, realBinary?, arithmetic?, Option.isNone_some, Option.isNone_map]
  | bool => cases op <;> simp only [binary?, boolBinary?, Option.isNone_some]
  | ref => cases op <;> simp only [binary?, refBinary?, Option.isNone_some]

theorem isNone_convert? (source target : Ty) (v w : String) :
    (convert? source target v).isNone = (convert? source target w).isNone := by
  unfold convert?
  split
  · split <;> rfl
  · split <;> rfl

end Script

namespace Emission

open Output

/-- The error of a question without an answer. -/
def unanswered {α : Type} (answer : Option α) (error : EmitError) : List EmitError :=
  if answer.isNone then [error] else []

theorem of_mem_unanswered {α : Type} {answer : Option α} {fault error : EmitError}
    (h : fault ∈ unanswered answer error) : fault = error ∧ answer = none := by
  unfold unanswered at h
  split at h
  · next hnone => exact ⟨List.mem_singleton.1 h, Option.isNone_iff_eq_none.1 hnone⟩
  · cases h

def Job.renderFaults (job : Job) (site : Site) (text : String) : List EmitError :=
  match job.templater site text with
  | .ok _ => []
  | .error error => [error]

/-- The error of the node itself, if its question has no answer. -/
def Job.faultAt (job : Job) (caller : MethodRef) : Expr → List EmitError
  | .instanceField _ r | .staticField r => unanswered (job.program.findField r) (.unresolvedField r)
  | .unary op kind _ => unanswered (Script.unary? op kind "") (.malformedBody (.unary op kind))
  | .binary op kind _ _ =>
      unanswered (Script.binary? op kind "" "") (.malformedBody (.binary op kind))
  | .cast _ source target =>
      unanswered (Script.convert? source target "") (.malformedBody (.conversion source target))
  | .callStatic r args =>
      if isRawCall r then
        match args with
        | .literal (.string text) :: _ => job.renderFaults .rawCall text
        | _ => [.rawCallArgument (.callStatic r args) caller]
      else unanswered (job.program.resolve r) (.unresolvedMethod r)
  | .callInstance _ r _ | .construct _ r _ =>
      unanswered (job.program.resolve r) (.unresolvedMethod r)
  | .callSuper _ r _ => unanswered (job.program.resolve r) (.unresolvedSuperCall caller.owner r)
  | _ => []

theorem Job.faultAt_of_isPlain {job : Job} {caller : MethodRef} {e : Expr} (h : e.isPlain = true) :
    job.faultAt caller e = [] := by
  cases e <;> first | rfl | cases h

/-- How a step with these faults can end: well if there is none, otherwise on the
first of them, or on a field that cannot be named. -/
inductive EndsOn (p : Program) {α : Type} : List EmitError → Except EmitError α → Prop where
  | ok (a : α) : EndsOn p [] (.ok a)
  | first (fault : EmitError) (later : List EmitError) : EndsOn p (fault :: later) (.error fault)
  | unnamed (faults : List EmitError) (field : FieldRef) (h : ¬ p.NamesFields) :
      EndsOn p faults (.error (.resolverInvariant field))

/-- The names given so far are the settled ones if fields can be named. -/
def Job.Ordered (job : Job) (s : State) : Prop :=
  job.program.NamesFields → Settled job.program s.fieldNames

theorem Job.ordered_initial (job : Job) : job.Ordered .initial := by
  intro _ r name h
  simp [State.initial] at h

/-- The step ends on the first of these faults, or well if there is none. -/
def Meets (job : Job) {α : Type} (faults : List EmitError) (x : Emit α) : Prop :=
  ∀ s, job.Ordered s → job.Ordered (x.run s).2 ∧ EndsOn job.program faults (x.run s).1

namespace Meets

variable {job : Job} {α β ι : Type} {faults others : List EmitError}

theorem pure (a : α) : Meets job [] (Pure.pure a : Emit α) :=
  fun _ hs => ⟨hs, .ok a⟩

theorem throw (fault : EmitError) : Meets job [fault] (MonadExcept.throw fault : Emit α) :=
  fun _ hs => ⟨hs, .first fault []⟩

/-- Faults of the first step come before those of what follows. -/
theorem bind {x : Emit α} {f : α → Emit β} (h : Meets job faults x)
    (hrest : ∀ a, Meets job others (f a)) : Meets job (faults ++ others) (x >>= f) := by
  intro s hs
  obtain ⟨hstate, hend⟩ := h s hs
  generalize hx : x.run s = r at hstate hend
  obtain ⟨result, t⟩ := r
  cases hend with
  | ok a =>
      rw [run_bind_ok hx]
      exact hrest a t hstate
  | first fault later =>
      rw [run_bind_error hx]
      exact ⟨hstate, .first fault _⟩
  | unnamed _ field h =>
      rw [run_bind_error hx]
      exact ⟨hstate, .unnamed _ field h⟩

/-- A first step that cannot be at fault. -/
theorem after {x : Emit α} {f : α → Emit β} (h : Meets job [] x)
    (hrest : ∀ a, Meets job others (f a)) : Meets job others (x >>= f) :=
  h.bind hrest

/-- Last steps that cannot be at fault. -/
theorem before {x : Emit α} {f : α → Emit β} (h : Meets job faults x)
    (hrest : ∀ a, Meets job [] (f a)) : Meets job faults (x >>= f) := by
  have hboth := h.bind hrest
  rwa [List.append_nil] at hboth

theorem mapM {f : ι → Emit α} {g : ι → List EmitError} {items : List ι}
    (h : ∀ i ∈ items, Meets job (g i) (f i)) : Meets job (items.flatMap g) (items.mapM f) := by
  induction items with
  | nil => exact .pure []
  | cons i rest ih =>
      rw [List.mapM_cons, List.flatMap_cons]
      refine (h i List.mem_cons_self).bind fun a => ?_
      exact (ih fun j hj => h j (List.mem_cons_of_mem _ hj)).before fun as => .pure (a :: as)

/-- A first step that asks a question; what follows may count on the answer. -/
theorem ask {x : Emit α} {f : α → Emit β} {answer : Option α} {error : EmitError}
    (hx : x = answer.elim (MonadExcept.throw error) Pure.pure)
    (hrest : ∀ a, answer = some a → Meets job others (f a)) :
    Meets job (unanswered answer error ++ others) (x >>= f) := by
  subst hx
  cases answer with
  | none => exact fun s hs => ⟨hs, .first error others⟩
  | some a => exact hrest a rfl

/-- A last step that asks a question. -/
theorem answer {x : Emit α} {answer : Option α} {error : EmitError}
    (hx : x = answer.elim (MonadExcept.throw error) Pure.pure) :
    Meets job (unanswered answer error) x := by
  subst hx
  cases answer with
  | none => exact .throw error
  | some a => exact .pure a

theorem literal (v : Literal) : Meets job [] (literal v) := by
  intro s hs
  rcases run_literal v with ⟨text, rfl⟩ | hrun
  · exact ⟨hs, .ok _⟩
  · rw [hrun]
    exact ⟨hs, .ok _⟩

theorem render (site : Site) (text : String) :
    Meets job (job.renderFaults site text) (job.render site text) := by
  intro s hs
  rw [run_render]
  refine ⟨hs, ?_⟩
  unfold Job.renderFaults
  cases job.templater site text with
  | ok out => exact .ok out
  | error fault => exact .first fault []

/-- Notes and the like keep the names and succeed. -/
theorem silent {x : Emit Unit} (h : ∀ s, Yields (SameSoFar s) x ()) : Meets job [] x := by
  intro s hs
  obtain ⟨t, hrun, ht⟩ := h s s (.refl s)
  rw [hrun]
  refine ⟨fun hnames => ?_, .ok ()⟩
  rw [← ht.fieldNames]
  exact hs hnames

/-- A declared field gets its name, unless the program is one whose fields cannot
be named. -/
theorem declaredFieldName {f : Field} (hf : job.program.Declares f) :
    Meets job [] (job.declaredFieldName f) := by
  intro s hs
  by_cases hnames : job.program.NamesFields
  · obtain ⟨t, hrun, ht⟩ := declaredFieldName_yields hnames.1 hnames.2 hf s (hs hnames)
    rw [hrun]
    exact ⟨fun _ => ht, .ok _⟩
  · refine ⟨fun h => absurd h hnames, ?_⟩
    rw [Job.declaredFieldName, run_bind_ok (run_get s)]
    generalize (nameField job.program (namingDepth job.program) f.reference).run s.fieldNames = named
    obtain ⟨result, known⟩ := named
    cases result with
    | ok name => exact .ok name
    | error field => exact .unnamed [] field hnames

theorem field (r : FieldRef) {f : Field → Emit β}
    (hrest : ∀ g, job.program.Declares g → Meets job others (f g)) :
    Meets job (unanswered (job.program.findField r) (.unresolvedField r) ++ others)
      (job.field r >>= f) := by
  refine ask ?_ fun g hg => hrest g (Program.declares_of_findField hg)
  unfold Job.field
  cases job.program.findField r <;> rfl

theorem fieldName (r : FieldRef) :
    Meets job (unanswered (job.program.findField r) (.unresolvedField r)) (job.fieldName r) := by
  have hname : Meets job (unanswered (job.program.findField r) (.unresolvedField r) ++ [])
      (job.fieldName r) := field r fun _ hf => declaredFieldName hf
  rwa [List.append_nil] at hname

theorem staticField (r : FieldRef) :
    Meets job (unanswered (job.program.findField r) (.unresolvedField r)) (job.staticField r) := by
  have hname : Meets job (unanswered (job.program.findField r) (.unresolvedField r) ++ [])
      (job.staticField r) := field r fun _ hf => (declaredFieldName hf).before fun _ => .pure _
  rwa [List.append_nil] at hname

theorem method (r : MethodRef) :
    Meets job (unanswered (job.program.resolve r) (.unresolvedMethod r)) (job.method r) := by
  apply answer
  unfold Job.method
  cases job.program.resolve r <;> rfl

theorem methodRefName (r : MethodRef) :
    Meets job (unanswered (job.program.resolve r) (.unresolvedMethod r)) (job.methodRefName r) :=
  (method r).before fun _ => .pure _

/-- Operators are as defined for any operands as for these. -/
theorem definedOr {cause : Malformed} {text text' : Option String}
    (h : text.isNone = text'.isNone) :
    Meets job (unanswered text' (.malformedBody cause)) (definedOr cause text) := by
  have hanswer : Meets job (unanswered text (.malformedBody cause)) (Emission.definedOr cause text) := by
    apply answer
    cases text <;> rfl
  rwa [unanswered, h] at hanswer

theorem rawCall (caller r : MethodRef) (name : String) (args : List Expr) (h : isRawCall r = true) :
    Meets job (job.faultAt caller (.callStatic r args))
      (job.rawCall caller (.callStatic r args) name args) := by
  simp only [Job.rawCall, Job.faultAt, h, reduceIte]
  -- Both sides look for a string literal in front, each in a match of its own.
  cases args with
  | nil => exact .throw _
  | cons first rest =>
      cases first with
      | literal v =>
          cases v with
          | string text => exact (render _ _).before fun _ => .pure _
          | _ => exact .throw _
      | _ => exact .throw _

theorem superMethod (caller r : MethodRef) :
    Meets job (unanswered (job.program.resolve r) (.unresolvedSuperCall caller.owner r))
      (job.superMethod caller r) := by
  apply answer
  unfold Job.superMethod
  cases job.program.resolve r <;> rfl

/-- The own step of a node ends on the fault of the node. -/
theorem nodeStep {caller : MethodRef} {e : Expr} {x : Emit α} (h : NodeStep job caller e x) :
    Meets job (job.faultAt caller e) x := by
  cases h with
  | literal v => exact .literal v
  | plain h a =>
      rw [Job.faultAt_of_isPlain h]
      exact .pure a
  | instanceField _ r => exact fieldName r
  | staticField r => exact staticField r
  | unary op kind => exact definedOr (Script.isNone_unary? op kind _ _)
  | binary op kind => exact definedOr (Script.isNone_binary? op kind _ _ _ _)
  | cast _ source target => exact definedOr (Script.isNone_convert? source target _ _)
  | rawCall hraw args => exact rawCall caller _ _ args hraw
  | @callStatic r hraw args =>
      simp only [Job.faultAt, hraw]
      exact method r
  | callInstance _ r | construct _ r => exact methodRefName r
  | callSuper _ r => exact superMethod caller r

/-- Steps of nodes end on the first fault of these. -/
theorem steps {caller : MethodRef} {nodes : List Expr} {x : Emit α} (h : Steps job caller nodes x) :
    Meets job (nodes.flatMap (job.faultAt caller)) x :=
  h.holds (P := fun _ => Meets job) pure nodeStep bind

end Meets

/-- What the lowering of a body as that of a method can fail on. -/
def Job.bodyFaults (job : Job) (owner : ClassName) (m : Method) (body : Body) : List EmitError :=
  (job.nodesIn body).flatMap (job.faultAt ⟨owner, m.name, m.type⟩)

theorem lowerBody_meets (job : Job) (owner : ClassName) (m : Method) (body : Body) :
    Meets job (job.bodyFaults owner m body) (lowerBody job owner m body) :=
  .steps (lowerBody_steps job owner m body)

/-- A body without faults is lowered, where fields can be named. -/
theorem exists_lowerBody_run {job : Job} (hnames : job.program.NamesFields) {owner : ClassName}
    {m : Method} {body : Body} (hnone : job.bodyFaults owner m body = []) {s : State}
    (hs : job.Ordered s) : ∃ d t, (lowerBody job owner m body).run s = (.ok d, t) := by
  obtain ⟨-, hend⟩ := lowerBody_meets job owner m body s hs
  rw [hnone] at hend
  generalize (lowerBody job owner m body).run s = r at hend ⊢
  obtain ⟨result, t⟩ := r
  cases hend with
  | ok d => exact ⟨d, t, rfl⟩
  | unnamed _ field h => exact absurd hnames h

end Emission

end ClassScript
