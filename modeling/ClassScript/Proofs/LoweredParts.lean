import ClassScript.Proofs.MethodOutcome
import ClassScript.Proofs.PoolSlots
import ClassScript.Proofs.StatementPlaces

/-!
What lowering asks for and leaves behind, read off the source alone. A body asks
the pool for the strings in it from left to right, and in debug mode its document
has the marks of the positions in it. Arguments of raw calls are no part of this,
nor are the arms of a chain that no value selects.
-/

namespace ClassScript

mutual

/-- The string literals in an expression from left to right. The arguments of a
raw call are script text and not literals. -/
def Expr.pooled : Expr → List String
  | .literal value => value.string?.toList
  | .slot _ | .param _ | .this | .caught | .staticField _ => []
  | .instanceField e _ | .unary _ _ e | .cast e _ _ | .instanceOf e _ | .checkCast e _
  | .newArray _ e | .arrayLength e => e.pooled
  | .binary _ _ left right => left.pooled ++ right.pooled
  | .callStatic method args => if Emission.isRawCall method then [] else pooledInAll args
  | .callInstance object _ args | .callSuper object _ args => object.pooled ++ pooledInAll args
  | .construct _ _ args => pooledInAll args
  | .arrayGet array index => array.pooled ++ index.pooled
  | .ternary cond yes no => cond.pooled ++ yes.pooled ++ no.pooled

/-- The string literals in several expressions, one after the other. -/
def pooledInAll : List Expr → List String
  | [] => []
  | e :: rest => e.pooled ++ pooledInAll rest

end

namespace Expr

/-- The string that an expression is itself, if it is one. -/
def ownString : Expr → List String
  | .literal value => value.string?.toList
  | _ => []

theorem ownString_of_isPlain {e : Expr} (h : e.isPlain = true) : e.ownString = [] := by
  cases e <;> first | rfl | cases h

end Expr

mutual

/-- The string literals are those of the nodes. -/
theorem Expr.pooled_eq : ∀ e : Expr, e.pooled = e.nodes.flatMap Expr.ownString
  | .literal _ | .slot _ | .param _ | .this | .caught | .staticField _ => by
      simp [Expr.pooled, Expr.nodes, Expr.ownString]
  | .instanceField e _ | .unary _ _ e | .cast e _ _ | .instanceOf e _ | .checkCast e _
  | .newArray _ e | .arrayLength e => by
      simp [Expr.pooled, Expr.nodes, Expr.ownString, Expr.pooled_eq e]
  | .binary _ _ left right | .arrayGet left right => by
      simp [Expr.pooled, Expr.nodes, Expr.ownString, Expr.pooled_eq left, Expr.pooled_eq right]
  | .callStatic method args => by
      simp only [Expr.pooled, Expr.nodes, List.flatMap_cons, Expr.ownString, List.nil_append]
      split
      · rfl
      · exact pooledInAll_eq args
  | .callInstance object _ args | .callSuper object _ args => by
      simp [Expr.pooled, Expr.nodes, Expr.ownString, Expr.pooled_eq object, pooledInAll_eq args]
  | .construct _ _ args => by
      simp [Expr.pooled, Expr.nodes, Expr.ownString, pooledInAll_eq args]
  | .ternary cond yes no => by
      simp [Expr.pooled, Expr.nodes, Expr.ownString, Expr.pooled_eq cond, Expr.pooled_eq yes,
        Expr.pooled_eq no]

theorem pooledInAll_eq : ∀ es : List Expr, pooledInAll es = (nodesOfAll es).flatMap Expr.ownString
  | [] => rfl
  | e :: rest => by
      simp [pooledInAll, nodesOfAll, Expr.pooled_eq e, pooledInAll_eq rest]

end

namespace Stmt

/-- The string literals in the expressions of the statement, without those of
its parts. -/
def ownStrings : Stmt → List String
  | .eval e | .ret (some e) | .setSlot _ e | .setStaticField _ e | .when e _ | .choose e _ _
  | .loop _ e _ | .switch e _ _ | .throw e => e.pooled
  | .setInstanceField object _ value => object.pooled ++ value.pooled
  | .setArray array index value => array.pooled ++ index.pooled ++ value.pooled
  | .fillArray array _ values => array.pooled ++ pooledInAll values
  | _ => []

/-- The position that the statement marks. -/
def position? : Stmt → Option Mark
  | .position file line => some ⟨file, line⟩
  | _ => none

end Stmt

namespace Emission

open Output

/-- The marks that statements leave. -/
def Job.marksIn (job : Job) (parts : List Stmt) : List Mark :=
  if job.config.debug then parts.filterMap Stmt.position? else []

/-- Whenever the step succeeds without leaving a stub, it has asked the pool for
these strings in this order. -/
def Demands {α : Type} (strings : List String) (x : Emit α) : Prop :=
  ∀ s a t, x.run s = (.ok a, t) →
    s.stubs <+: t.stubs ∧ (t.stubs = s.stubs → t.pool = s.pool.allocAll strings)

namespace Demands

variable {α β ι : Type} {strings others : List String}

theorem pure (a : α) : Demands [] (Pure.pure a) := by
  intro s b t h
  obtain ⟨_, rfl⟩ := eq_of_run_pure h
  exact ⟨List.prefix_rfl, fun _ => rfl⟩

theorem throw (e : EmitError) : Demands strings (MonadExcept.throw e : Emit α) := by
  intro s a t h
  cases h

/-- What follows only counts for values that the first step can yield. -/
theorem bindOk {x : Emit α} {f : α → Emit β} (h : Demands strings x)
    (hrest : ∀ s a t, x.run s = (.ok a, t) → Demands others (f a)) :
    Demands (strings ++ others) (x >>= f) := by
  intro s b t hrun
  obtain ⟨a, u, hx, hf⟩ := exists_of_run_bind_ok hrun
  obtain ⟨hfirst, hpool⟩ := h s a u hx
  obtain ⟨hsecond, hpool'⟩ := hrest s a u hx u b t hf
  refine ⟨hfirst.trans hsecond, fun hsame => ?_⟩
  -- Stubs only come to the end, so there is none in the middle either.
  have hmiddle : u.stubs = s.stubs := (hsame ▸ hsecond).eq_of_length_le hfirst.length_le
  rw [hpool' (hsame.trans hmiddle.symm), hpool hmiddle, StringPool.allocAll_append]

theorem bind {x : Emit α} {f : α → Emit β} (h : Demands strings x) (hrest : ∀ a, Demands others (f a)) :
    Demands (strings ++ others) (x >>= f) :=
  h.bindOk fun _ a _ _ => hrest a

/-- A first step that asks for nothing. -/
theorem after {x : Emit α} {f : α → Emit β} (h : Demands [] x) (hrest : ∀ a, Demands others (f a)) :
    Demands others (x >>= f) :=
  h.bind hrest

/-- Last steps that ask for nothing. -/
theorem before {x : Emit α} {f : α → Emit β} (h : Demands strings x) (hrest : ∀ a, Demands [] (f a)) :
    Demands strings (x >>= f) := by
  have hboth := h.bind hrest
  rwa [List.append_nil] at hboth

theorem mapM {f : ι → Emit α} {g : ι → List String} {items : List ι} (h : ∀ i, Demands (g i) (f i)) :
    Demands (items.flatMap g) (items.mapM f) := by
  induction items with
  | nil => exact .pure []
  | cons i rest ih =>
      rw [List.mapM_cons, List.flatMap_cons]
      exact (h i).bind fun a => ih.before fun as => .pure (a :: as)

theorem literal (v : Literal) : Demands v.string?.toList (literal v) := by
  intro s a t h
  cases v with
  | string text =>
      rw [run_literal_string, Prod.mk.injEq] at h
      rw [← h.2]
      exact ⟨List.prefix_rfl, fun _ => rfl⟩
  | _ => exact pure _ s a t h

variable {job : Job}

theorem render (site : Site) (text : String) : Demands [] (job.render site text) := by
  intro s a t h
  rw [run_render, Prod.mk.injEq] at h
  rw [← h.2]
  exact ⟨List.prefix_rfl, fun _ => rfl⟩

theorem declaredFieldName (f : Field) : Demands [] (job.declaredFieldName f) := by
  intro s a t h
  obtain ⟨result, known, hrun⟩ := run_declaredFieldName job f s
  rw [hrun, Prod.mk.injEq] at h
  rw [← h.2]
  exact ⟨List.prefix_rfl, fun _ => rfl⟩

theorem immediate {x : Emit α} (h : Immediate x) : Demands [] x := by
  cases h with
  | pure a => exact .pure a
  | throw e => exact .throw e

theorem fieldName (r : FieldRef) : Demands [] (job.fieldName r) :=
  (immediate (.field job r)).after fun f => declaredFieldName f

theorem staticField (r : FieldRef) : Demands [] (job.staticField r) :=
  (immediate (.field job r)).after fun f => (declaredFieldName f).after fun _ => .pure _

theorem methodRefName (r : MethodRef) : Demands [] (job.methodRefName r) :=
  (immediate (.method job r)).after fun _ => .pure _

theorem rawCall (caller : MethodRef) (call : Expr) (name : String) (args : List Expr) :
    Demands [] (job.rawCall caller call name args) := by
  unfold Job.rawCall
  split
  · exact (render _ _).after fun _ => .pure _
  · exact .throw _

variable {caller : MethodRef}

/-- Of the nodes, only string literals ask for strings. -/
theorem nodeStep {e : Expr} {x : Emit α} (h : NodeStep job caller e x) :
    Demands e.ownString x := by
  cases h with
  | literal v => exact .literal v
  | plain h a =>
      rw [Expr.ownString_of_isPlain h]
      exact .pure a
  | instanceField _ r => exact fieldName r
  | staticField r => exact staticField r
  | unary | binary | cast => exact immediate (.definedOr _ _)
  | rawCall => exact rawCall _ _ _ _
  | callStatic => exact immediate (.method job _)
  | callInstance | construct => exact methodRefName _
  | callSuper => exact immediate (.superMethod job _ _)

theorem steps {nodes : List Expr} {x : Emit α} (h : Steps job caller nodes x) :
    Demands (nodes.flatMap Expr.ownString) x :=
  h.holds (P := fun _ => Demands) pure nodeStep bind

end Demands

section Marks

variable {job : Job}

theorem marksIn_nil : job.marksIn [] = [] := by
  rw [Job.marksIn]
  exact ite_self _

theorem marksIn_append (parts others : List Stmt) :
    job.marksIn (parts ++ others) = job.marksIn parts ++ job.marksIn others := by
  unfold Job.marksIn
  split
  · exact List.filterMap_append
  · rfl

/-- Only positions leave marks. -/
theorem marksIn_cons {s : Stmt} (h : s.position? = none) (rest : List Stmt) :
    job.marksIn (s :: rest) = job.marksIn rest := by
  unfold Job.marksIn
  rw [List.filterMap_cons_none h]

mutual

theorem marksIn_of_isEmpty (native : Bool) :
    ∀ s : Stmt, s.isEmpty = true → job.marksIn (s.lowered native) = []
  | .nop, _ => by
      rw [Stmt.lowered, marksIn_cons rfl, marksIn_nil]
      all_goals exact nofun
  | .block body, h => by
      rw [Stmt.isEmpty] at h
      rw [Stmt.lowered, marksIn_cons rfl]
      exact marksIn_of_allEmpty native body h

theorem marksIn_of_allEmpty (native : Bool) :
    ∀ body : List Stmt, Stmt.allEmpty body = true → job.marksIn (loweredInAll native body) = []
  | [], _ => by
      rw [loweredInAll, marksIn_nil]
  | s :: rest, h => by
      rw [Stmt.allEmpty, Bool.and_eq_true] at h
      rw [loweredInAll, marksIn_append, marksIn_of_isEmpty native s h.1,
        marksIn_of_allEmpty native rest h.2, List.append_nil]

end

end Marks

/-- The string literals of a statement are those of its nodes. -/
theorem ownStrings_eq (s : Stmt) : s.ownStrings = s.ownNodes.flatMap Expr.ownString := by
  cases s with
  | ret value => cases value <;> simp [Stmt.ownStrings, Stmt.ownNodes, Expr.pooled_eq]
  | _ => simp [Stmt.ownStrings, Stmt.ownNodes, Expr.pooled_eq, pooledInAll_eq, Expr.ownString]

section Runs

variable {job : Job} {ctx : Context}

theorem marks_of_lineText? {chain : Option Nat} {s : Stmt} {x : Emit String}
    (h : lineText? job ctx chain s = some x) (native : Bool) : job.marksIn (s.lowered native) = [] := by
  have hnone : s.position? = none := by
    cases s with
    | position file line => cases h
    | _ => rfl
  rw [lowered_of_lineText? h, marksIn_cons hnone, marksIn_nil]

mutual

/-- The document of a statement has the marks of the positions that are lowered in it. -/
theorem LowersStmt.marks {chain : Option Nat} {s : Stmt} {p q : Nat × State} {d : Doc}
    (h : LowersStmt job ctx chain s p d q) :
    d.marks = job.marksIn (s.lowered job.config.nativeSwitch) := by
  cases h with
  | position =>
      simp only [Stmt.lowered, Job.marksIn]
      split
      · rfl
      · rfl
  | nop =>
      simp only [Stmt.lowered]
      rw [marksIn_cons rfl, marksIn_nil, Doc.marks_empty]
  | line hline => rw [marks_of_lineText? hline, Doc.marks_line]
  | block hbody =>
      simp only [Stmt.lowered]
      rw [marksIn_cons rfl]
      exact hbody.marks
  | when _ hyes =>
      simp only [Stmt.lowered]
      rw [marksIn_cons rfl]
      exact hyes.marks
  | choose _ hyes hno =>
      simp only [Stmt.lowered]
      rw [marksIn_cons rfl, marksIn_append, ← hyes.marks, ← hno.marks]
      rfl
  | loop _ hbody =>
      simp only [Stmt.lowered]
      rw [marksIn_cons rfl]
      exact hbody.marks
  | switch hnative _ hcases hotherwise =>
      simp only [Stmt.lowered]
      rw [marksIn_cons rfl, marksIn_append, ← hcases.marks hnative, ← hotherwise.marks]
      simp
  | @chain _ _ cases _ _ _ _ _ _ _ _ e hchains _ hcases hotherwise =>
      simp only [Stmt.lowered]
      rw [marksIn_cons rfl, marksIn_append, ← hcases.marks hchains, Doc.marks_block,
        Doc.marks_append, Doc.marks_append, Doc.marks_line, List.nil_append]
      -- A default that is left out has no marks.
      congr 1
      split
      · exact hotherwise.marks
      · split
        · next hempty => exact (marksIn_of_isEmpty _ _ hempty).symm
        · exact hotherwise.marks
  | tryCatch hbody hhandler =>
      simp only [Stmt.lowered]
      rw [marksIn_cons rfl, marksIn_append, ← hbody.marks, ← hhandler.marks]
      rfl

theorem LowersStmts.marks {chain : Option Nat} {body : List Stmt} {p q : Nat × State} {d : Doc}
    (h : LowersStmts job ctx chain body p d q) :
    d.marks = job.marksIn (loweredInAll job.config.nativeSwitch body) := by
  cases h with
  | nil => rw [loweredInAll, marksIn_nil, Doc.marks_empty]
  | cons hfirst hrest =>
      rw [loweredInAll, marksIn_append, Doc.marks_append, hfirst.marks, hrest.marks]

theorem LowersArms.marks (hnative : job.config.nativeSwitch = true) {cases : List SwitchCase}
    {p q : Nat × State} {d : Doc} (h : LowersArms job ctx cases p d q) :
    d.marks = job.marksIn (loweredInCases job.config.nativeSwitch cases) := by
  cases h with
  | nil => rw [loweredInCases, marksIn_nil, Doc.marks_empty]
  | cons hbody hrest =>
      have hfirst := hbody.marks
      have hothers := hrest.marks hnative
      rw [hnative] at hfirst hothers
      simp only [loweredInCases, hnative, Bool.true_or, reduceIte, marksIn_append, ← hfirst, ← hothers]
      simp

theorem LowersLinks.marks (hchains : job.config.nativeSwitch = false) {n : Nat} {first : Bool}
    {cases : List SwitchCase} {p q : Nat × State} {d : Doc}
    (h : LowersLinks job ctx n first cases p d q) :
    d.marks = job.marksIn (loweredInCases job.config.nativeSwitch cases) := by
  cases h with
  | nil => rw [loweredInCases, marksIn_nil, Doc.marks_empty]
  | skip hrest =>
      have hothers := hrest.marks hchains
      rw [hchains] at hothers
      simpa [loweredInCases, hchains] using hothers
  | cons hvalues hbody hrest =>
      have hsome := List.isEmpty_eq_false_iff.2 hvalues
      have hfirst := hbody.marks
      have hothers := hrest.marks hchains
      rw [hchains] at hfirst hothers
      simp only [loweredInCases, hchains, hsome, Bool.not_false, Bool.or_true, reduceIte,
        marksIn_append, ← hfirst, ← hothers]
      rfl

end

end Runs

/-- A body asks for the strings of its statement and leaves its marks. -/
theorem lowerBody_leaves (job : Job) (owner : ClassName) (m : Method) (body : Body) :
    Demands ((body.stmt.lowered job.config.nativeSwitch).flatMap Stmt.ownStrings)
        (lowerBody job owner m body) ∧
      ∀ s d t, (lowerBody job owner m body).run s = (.ok d, t) →
        d.marks = job.marksIn (body.stmt.lowered job.config.nativeSwitch) := by
  constructor
  · have hstrings : (job.nodesIn body).flatMap Expr.ownString =
        (body.stmt.lowered job.config.nativeSwitch).flatMap Stmt.ownStrings := by
      rw [Job.nodesIn, List.flatMap_assoc]
      exact congrArg (List.flatMap · _) (funext fun s => (ownStrings_eq s).symm)
    exact hstrings ▸ Demands.steps (lowerBody_steps job owner m body)
  · intro s d t h
    obtain ⟨text, n, hstmt, rfl⟩ := lowersStmt_of_lowerBody h
    have hfront : ((declarationTexts body ++ initializerTexts (staticInitTargets job.program owner
        body)).flatMap (textEntries 0)).filterMap Entry.mark? = [] := by
      rw [List.filterMap_flatMap, List.flatMap_eq_nil_iff]
      exact fun line _ => marks_textEntries 0 line
    rw [← Doc.mark_entriesAt 0, entriesAt_body, List.filterMap_append, hfront, List.nil_append,
      Doc.mark_entriesAt, hstmt.marks]

end Emission

end ClassScript
