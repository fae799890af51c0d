import ClassScript.Emission.Program
import ClassScript.Proofs.NodeSteps
import ClassScript.Proofs.TwoRuns

/-!
What an emission can do, said once. Every step, from an expression to a class, is
put together from a few small ones: it gives a literal its text, renders a
template, names a field or writes a note. What holds of these and survives
doing one step after another and catching a failure holds of all steps, also of
those for classes and methods that the program does not have.
-/

namespace ClassScript.Emission

section SmallSteps

theorem run_literal_string (text : String) (s : State) :
    (literal (.string text)).run s =
      (.ok ("S[" ++ Text.natural (s.pool.alloc text).1 ++ "]"),
        { s with pool := (s.pool.alloc text).2 }) := rfl

/-- A literal changes nothing but the pool, and that only if it is a string. -/
theorem run_literal (v : Literal) :
    (∃ text, v = .string text) ∨ ∀ s, (literal v).run s = (.ok (Script.constant v), s) := by
  cases v with
  | string text => exact .inl ⟨text, rfl⟩
  | _ => exact .inr fun s => rfl

theorem run_render (job : Job) (site : Site) (text : String) (s : State) :
    (job.render site text).run s =
      (job.templater site text, { s with renders := s.renders ++ [(site, text)] }) := by
  change (ExceptT.mk (Pure.pure (job.templater site text)) : Emit String).run _ = _
  rfl

theorem run_note (level : Level) (message : String) (values : List (String × String)) (s : State) :
    (note level message values).run s =
      (.ok ⟨⟩, { s with log := s.log ++ [⟨level, message, values⟩] }) := rfl

/-- Naming a field changes nothing but the memo. -/
theorem run_declaredFieldName (job : Job) (f : Field) (s : State) :
    ∃ result known, (job.declaredFieldName f).run s = (result, { s with fieldNames := known }) := by
  rw [Job.declaredFieldName, run_bind_ok (run_get s)]
  generalize (nameField job.program (namingDepth job.program) f.reference).run s.fieldNames = named
  obtain ⟨result, known⟩ := named
  cases result with
  | ok name => exact ⟨_, known, rfl⟩
  | error field => exact ⟨_, known, rfl⟩

end SmallSteps

/-- A step that only gives a value or fails. -/
inductive Immediate {α : Type} : Emit α → Prop where
  | pure (a : α) : Immediate (Pure.pure a)
  | throw (e : EmitError) : Immediate (MonadExcept.throw e : Emit α)

namespace Immediate

theorem state_eq {α : Type} {x : Emit α} (h : Immediate x) {s t : State}
    {result : Except EmitError α} (hrun : x.run s = (result, t)) : t = s := by
  cases h with
  | pure a => exact (Prod.mk.inj hrun).2.symm
  | throw e => exact (Prod.mk.inj hrun).2.symm

variable (job : Job)

theorem field (r : FieldRef) : Immediate (job.field r) := by
  unfold Job.field
  split
  · exact .pure _
  · exact .throw _

theorem method (r : MethodRef) : Immediate (job.method r) := by
  unfold Job.method
  split
  · exact .pure _
  · exact .throw _

theorem superMethod (caller r : MethodRef) : Immediate (job.superMethod caller r) := by
  unfold Job.superMethod
  split
  · exact .pure _
  · exact .throw _

theorem definedOr (cause : Malformed) (text : Option String) : Immediate (definedOr cause text) := by
  cases text with
  | none => exact .throw _
  | some text => exact .pure _

theorem parentBase (c : Class) : Immediate (parentBase job c) := by
  unfold Emission.parentBase
  split
  · exact .pure _
  · split
    · exact .throw _
    · exact .pure _

theorem relatedClasses (c : Class) : Immediate (relatedClasses job c) := by
  unfold Emission.relatedClasses
  split
  · exact .pure _
  · exact .throw _

end Immediate

/-- Steps put together from the small ones; `noting` says whether notes may be
among them. -/
inductive Assembled (job : Job) (noting : Prop) : {α : Type} → Emit α → Prop where
  | pure {α : Type} (a : α) : Assembled job noting (Pure.pure a)
  | throw {α : Type} (e : EmitError) : Assembled job noting (MonadExcept.throw e : Emit α)
  | literal (v : Literal) : Assembled job noting (literal v)
  | render (site : Site) (text : String) : Assembled job noting (job.render site text)
  | declaredFieldName (f : Field) : Assembled job noting (job.declaredFieldName f)
  | note (h : noting) (level : Level) (message : String) (values : List (String × String)) :
      Assembled job noting (note level message values)
  | bind {α β : Type} {x : Emit α} {f : α → Emit β} (h : Assembled job noting x)
      (hrest : ∀ a, Assembled job noting (f a)) : Assembled job noting (x >>= f)
  | tryCatch {α : Type} {x : Emit α} {handle : EmitError → Emit α} (h : Assembled job noting x)
      (hhandle : ∀ e, Assembled job noting (handle e)) :
      Assembled job noting (tryCatchThe EmitError x handle)

namespace Assembled

variable {job : Job} {noting : Prop} {α β : Type}

/-- A relation between states that the small steps respect, and that composes,
holds between the two ends of every run. -/
theorem leads {P : State → State → Prop} (hrefl : ∀ s, P s s)
    (htrans : ∀ {s t u}, P s t → P t u → P s u)
    (hliteral : ∀ v s, P s ((Emission.literal v).run s).2)
    (hrender : ∀ site text s, P s ((job.render site text).run s).2)
    (hname : ∀ f s, P s ((job.declaredFieldName f).run s).2)
    (hnote : noting → ∀ level message values s,
      P s ((Emission.note level message values).run s).2)
    {x : Emit α} (h : Assembled job noting x) (s : State) : P s (x.run s).2 := by
  induction h generalizing s with
  | pure a => exact hrefl s
  | throw e => exact hrefl s
  | literal v => exact hliteral v s
  | render site text => exact hrender site text s
  | declaredFieldName f => exact hname f s
  | note hnoting level message values => exact hnote hnoting level message values s
  | @bind _ _ x f _ _ ih ihrest =>
      have hfirst := ih s
      generalize hx : x.run s = r at hfirst
      obtain ⟨result, u⟩ := r
      cases result with
      | ok a =>
          rw [run_bind_ok hx]
          exact htrans hfirst (ihrest a u)
      | error e =>
          rw [run_bind_error hx]
          exact hfirst
  | @tryCatch _ x handle _ _ ih ihhandle =>
      have hfirst := ih s
      generalize hx : x.run s = r at hfirst
      obtain ⟨result, u⟩ := r
      cases result with
      | ok a =>
          rw [run_tryCatch_ok hx]
          exact hfirst
      | error e =>
          rw [run_tryCatch_error hx]
          exact htrans hfirst (ihhandle e u)

/-- A step without notes leaves the log as it is. -/
theorem log_eq (h : Assembled job False x) (s : State) : (x.run s).2.log = s.log := by
  refine (h.leads (P := fun s t => s.log = t.log) (fun _ => rfl) Eq.trans ?_ ?_ ?_ ?_ s).symm
  · intro v s
    rcases run_literal v with ⟨text, rfl⟩ | hrun
    · rfl
    · rw [hrun]
  · intro site text s
    rw [run_render]
  · intro f s
    obtain ⟨result, known, hrun⟩ := run_declaredFieldName job f s
    rw [hrun]
  · exact fun hnoting => hnoting.elim

/-- Two runs of one step agree where those of the small steps do. -/
theorem agree {S : State → State → Prop}
    (hliteral : ∀ v, Agree S Eq (Emission.literal v) (Emission.literal v))
    (hrender : ∀ site text, Agree S Eq (job.render site text) (job.render site text))
    (hname : ∀ f, Agree S Eq (job.declaredFieldName f) (job.declaredFieldName f))
    (hnote : noting → ∀ level message values,
      Agree S Eq (Emission.note level message values) (Emission.note level message values))
    {x : Emit α} (h : Assembled job noting x) : Agree S Eq x x := by
  induction h with
  | pure a => exact .pure rfl
  | throw e => exact .throw e
  | literal v => exact hliteral v
  | render site text => exact hrender site text
  | declaredFieldName f => exact hname f
  | note hnoting level message values => exact hnote hnoting level message values
  | bind _ _ ih ihrest => exact ih.bindEq ihrest
  | tryCatch _ _ ih ihhandle => exact ih.tryCatch ihhandle

theorem map {x : Emit α} (h : Assembled job noting x) (f : α → β) :
    Assembled job noting (f <$> x) := by
  rw [map_eq_pure_bind]
  exact h.bind fun a => .pure (f a)

theorem mapM {ι : Type} {f : ι → Emit α} (h : ∀ i, Assembled job noting (f i)) (items : List ι) :
    Assembled job noting (items.mapM f) := by
  induction items with
  | nil => exact .pure []
  | cons i rest ih =>
      rw [List.mapM_cons]
      exact (h i).bind fun a => ih.bind fun as => .pure (a :: as)

end Assembled

namespace Assembled

variable {job : Job} {noting : Prop}

theorem immediate {α : Type} {x : Emit α} (h : Immediate x) : Assembled job noting x := by
  cases h with
  | pure a => exact .pure a
  | throw e => exact .throw e

section Names

theorem fieldName (r : FieldRef) : Assembled job noting (job.fieldName r) :=
  (immediate (.field job r)).bind fun f => .declaredFieldName f

theorem staticField (r : FieldRef) : Assembled job noting (job.staticField r) :=
  (immediate (.field job r)).bind fun f => (declaredFieldName f).bind fun _ => .pure _

theorem methodRefName (r : MethodRef) : Assembled job noting (job.methodRefName r) :=
  (immediate (.method job r)).bind fun _ => .pure _

end Names

section Nodes

theorem rawCall (caller : MethodRef) (call : Expr) (name : String) (args : List Expr) :
    Assembled job noting (job.rawCall caller call name args) := by
  unfold Job.rawCall
  split
  · exact (render _ _).bind fun _ => .pure _
  · exact .throw _

variable {α : Type} {caller : MethodRef} {x : Emit α}

theorem nodeStep {e : Expr} (h : NodeStep job caller e x) : Assembled job noting x := by
  cases h with
  | literal v => exact .literal v
  | plain _ a => exact .pure a
  | instanceField _ r => exact fieldName r
  | staticField r => exact staticField r
  | unary | binary | cast => exact immediate (.definedOr _ _)
  | rawCall _ args => exact rawCall _ _ _ _
  | callStatic => exact immediate (.method job _)
  | callInstance | construct => exact methodRefName _
  | callSuper => exact immediate (.superMethod job _ _)

theorem steps {nodes : List Expr} (h : Steps job caller nodes x) : Assembled job noting x := by
  induction h with
  | pure a => exact .pure a
  | node h => exact nodeStep h
  | bind _ _ ih ihrest => exact ih.bind ihrest

end Nodes

section Methods

theorem body (owner : ClassName) (m : Method) (body : Body) :
    Assembled job noting (lowerBody job owner m body) :=
  steps (lowerBody_steps job owner m body)

theorem generated (owner : ClassName) (m : Method) :
    Assembled job noting (lowerGenerated job owner m) := by
  unfold lowerGenerated
  split
  · exact (body owner m _).bind fun _ => .pure _
  · exact .pure _

theorem native (text : String) : Assembled job noting (lowerNative job text) :=
  (render _ text).bind fun _ => .pure _

/-- Binding a slot writes no note. -/
theorem bindMethod (owner : ClassName) (m : Method) (slot : String) :
    Assembled job noting (bindMethod job owner m slot) := by
  have hguarded : ∀ (natives : List (String × String)) (fallback : Output.Doc),
      Assembled job noting (do
        let guarded ← natives.mapM fun n => do return (n.1, ← lowerNative job n.2)
        if guarded.isEmpty then return bindFunction m slot fallback
        else return guardChain (bindFunction m slot) fallback guarded) := by
    intro natives fallback
    have hnative : ∀ n : String × String,
        Assembled job noting (do return (n.1, ← lowerNative job n.2)) :=
      fun n => (native n.2).bind fun _ => .pure _
    have hnatives := mapM hnative natives
    apply hnatives.bind
    intro guarded
    cases guarded with
    | nil => exact .pure _
    | cons first rest => exact .pure _
  simp only [Emission.bindMethod]
  split
  · apply (generated owner m).bind
    intro found
    cases found with
    | none => exact .pure _
    | some doc => exact .pure _
  · split
    · exact (native _).bind fun fallback => hguarded _ fallback
    · exact ((generated owner m).map _).bind fun fallback => hguarded _ fallback

theorem methodDoc (h : noting) (owner : ClassName) (m : Method) :
    Assembled job noting (lowerMethod job owner m) := by
  refine (bindMethod owner m _).tryCatch fun e => ?_
  split
  · exact (note h _ _ _).bind fun _ => .pure _
  · exact .throw e

end Methods

section Classes

theorem fieldDefault (f : Field) : Assembled job noting (fieldDefault job f) :=
  (declaredFieldName f).bind fun _ => (literal f.initial).bind fun _ => .pure _

theorem staticInit (c : Class) : Assembled job noting (lowerStaticInit job c) := by
  unfold lowerStaticInit
  dsimp only
  split
  · exact .pure _
  · exact (mapM fieldDefault _).bind fun _ => .pure _

theorem classDoc (h : noting) (c : Class) : Assembled job noting (lowerClass job c) := by
  unfold lowerClass
  exact (immediate (.parentBase job c)).bind fun _ => (mapM fieldDefault _).bind fun _ =>
    (immediate (.relatedClasses job c)).bind fun _ => (staticInit c).bind fun _ =>
    (mapM (methodDoc h c.name) _).bind fun _ => (mapM (methodDoc h c.name) _).bind fun _ => .pure _

theorem orCopy (h : noting) (c : Class) : Assembled job noting (lowerOrCopy job c) := by
  unfold lowerOrCopy
  split
  · exact .pure _
  · exact classDoc h c

end Classes

section Programs

theorem fragment (f : Fragment) : Assembled job noting (resolveFragment job f) := by
  have hhalf : ∀ half : Option String, Assembled job noting (half.mapM (job.render .includeFile)) := by
    intro half
    cases half with
    | none => exact .pure none
    | some text => exact (render _ text).map some
  unfold resolveFragment
  dsimp only
  split
  · exact (hhalf _).bind fun _ => (hhalf _).bind fun _ => .pure _
  · exact .pure _

theorem start (entry : Class) (custom : Option String) :
    Assembled job noting (startStatement job entry custom) := by
  cases custom with
  | some text => exact render _ text
  | none =>
      unfold startStatement mainCall
      dsimp only
      split
      · exact .pure _
      · exact .throw _

end Programs

end Assembled

end ClassScript.Emission
