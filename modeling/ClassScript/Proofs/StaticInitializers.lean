import ClassScript.Proofs.ClosedReferences
import ClassScript.Proofs.LoweredNodes
import ClassScript.Proofs.StatementRuns

/-!
Which static initialisers a body forces before its statement. The body touches a class
where it reads or assigns a static field of it, calls a static method of it, or
constructs an object of it, however deep inside. Each other class that is emitted and
touched is forced once, so whatever the text of the statement reads, assigns, calls or
constructs has its class initialised.
-/

namespace ClassScript

/-- An expression touches the class whose static field it reads, whose static method it
calls without splicing, or that it constructs. -/
inductive Expr.Touches (p : Program) : Expr → ClassName → Prop where
  | staticField {r : FieldRef} {f : Field} (h : p.findField r = some f) :
      Touches p (.staticField r) f.owner
  | callStatic {r : MethodRef} {args : List Expr} {m : Method}
      (hraw : ¬ Emission.isRawCall r = true) (h : p.resolve r = some m) :
      Touches p (.callStatic r args) m.owner
  | construct (owner : ClassName) (ctor : MethodRef) (args : List Expr) :
      Touches p (.construct owner ctor args) owner

/-- A statement assigns to a static field of the class. -/
inductive Stmt.Assigns (p : Program) : Stmt → ClassName → Prop where
  | staticField {r : FieldRef} {value : Expr} {f : Field} (h : p.findField r = some f) :
      Assigns p (.setStaticField r value) f.owner

/-- A statement touches the class in one of its own expressions, however deep. -/
def Stmt.Uses (p : Program) (s : Stmt) (name : ClassName) : Prop :=
  ∃ d ∈ s.operands, ∃ e, d.Contains e ∧ e.Touches p name

/-- A statement itself touches the class, by what it uses or by what it assigns to. -/
def Stmt.Touches (p : Program) (s : Stmt) (name : ClassName) : Prop :=
  s.Uses p name ∨ s.Assigns p name

/-- The class is emitted, and it is not the one that the body is emitted for. -/
structure Program.EmitsBeside (p : Program) (owner name : ClassName) : Prop where
  other : name ≠ owner
  emitted : ∃ c, p.class? name = some c ∧ c.isNative = false

/-- Whether lowering the expression leaves an access to a static member or a
construction. -/
def Expr.isStaticUse : Expr → Bool
  | .staticField _ | .construct _ _ _ => true
  | .callStatic r _ => !Emission.isRawCall r
  | _ => false

theorem Expr.isStaticUse_of_isPlain (e : Expr) (h : e.isPlain = true) : e.isStaticUse = false := by
  cases e <;> first | rfl | cases h

namespace Emission

section Targets

variable {p : Program} {owner name : ClassName}

theorem touchedBy_eq_some {e : Expr} : touchedBy p e = some name ↔ e.Touches p name := by
  constructor
  · intro h
    cases e with
    | staticField r =>
        obtain ⟨f, hf, rfl⟩ := Option.map_eq_some_iff.1 h
        exact .staticField hf
    | callStatic r args =>
        rw [touchedBy, Option.ite_none_left_eq_some] at h
        obtain ⟨m, hm, rfl⟩ := Option.map_eq_some_iff.1 h.2
        exact .callStatic h.1 hm
    | construct other ctor args =>
        obtain rfl := Option.some.inj h
        exact .construct other ctor args
    | _ => cases h
  · intro h
    cases h with
    | staticField h => rw [touchedBy, h, Option.map_some]
    | callStatic hraw h => rw [touchedBy, if_neg hraw, h, Option.map_some]
    | construct other ctor args => rfl

theorem writtenBy_eq_some {s : Stmt} : writtenBy p s = some name ↔ s.Assigns p name := by
  constructor
  · intro h
    cases s with
    | setStaticField r value =>
        obtain ⟨f, hf, rfl⟩ := Option.map_eq_some_iff.1 h
        exact .staticField hf
    | _ => cases h
  · intro h
    cases h with
    | staticField h => rw [writtenBy, h, Option.map_some]

/-- What is kept of names in turn are their first occurrences. -/
theorem firstOccurrences_eq (names : List ClassName) :
    staticInitTargets.firstOccurrences names = names.eraseDups := by
  induction names using List.reverseRecOn with
  | nil => rfl
  | append_singleton names name ih =>
      rw [staticInitTargets.firstOccurrences] at ih ⊢
      rw [List.foldl_append, ih, eraseDups_concat]
      simp only [List.foldl_cons, List.foldl_nil, List.mem_eraseDups]

/-- The classes that a body touches, as they are come across. -/
def touchedIn (p : Program) (body : Body) : List ClassName :=
  body.stmt.expressions.filterMap (touchedBy p) ++ body.stmt.substatements.filterMap (writtenBy p)

theorem staticInitTargets_eq (p : Program) (owner : ClassName) (body : Body) :
    staticInitTargets p owner body = (touchedIn p body).eraseDups.filter fun name =>
      name ≠ owner && (p.class? name).any (!·.isNative) := by
  rw [staticInitTargets, firstOccurrences_eq, touchedIn]

theorem nodup_staticInitTargets (p : Program) (owner : ClassName) (body : Body) :
    (staticInitTargets p owner body).Nodup := by
  rw [staticInitTargets_eq]
  exact (nodup_eraseDups _).filter _

theorem mem_touchedIn {body : Body} :
    name ∈ touchedIn p body ↔ ∃ part, body.stmt.Contains part ∧ part.Touches p name := by
  simp only [touchedIn, List.mem_append, List.mem_filterMap, touchedBy_eq_some, writtenBy_eq_some,
    Stmt.mem_expressions, Stmt.mem_substatements, Stmt.Computes, Stmt.Touches, Stmt.Uses]
  constructor
  · rintro (⟨e, ⟨part, hpart, d, hd, he⟩, htouches⟩ | ⟨part, hpart, hassigns⟩)
    · exact ⟨part, hpart, .inl ⟨d, hd, e, he, htouches⟩⟩
    · exact ⟨part, hpart, .inr hassigns⟩
  · rintro ⟨part, hpart, ⟨d, hd, e, he, htouches⟩ | hassigns⟩
    · exact .inl ⟨e, ⟨part, hpart, d, hd, he⟩, htouches⟩
    · exact .inr ⟨part, hpart, hassigns⟩

theorem mem_staticInitTargets {body : Body} :
    name ∈ staticInitTargets p owner body ↔
      p.EmitsBeside owner name ∧ ∃ part, body.stmt.Contains part ∧ part.Touches p name := by
  have hkept : (name ≠ owner && (p.class? name).any (!·.isNative)) = true ↔
      p.EmitsBeside owner name := by
    rw [Bool.and_eq_true, decide_eq_true_eq, Option.any_eq_true]
    constructor
    · rintro ⟨hne, c, hc, hemitted⟩
      exact ⟨hne, c, hc, by simpa using hemitted⟩
    · rintro ⟨hne, c, hc, hemitted⟩
      exact ⟨hne, c, hc, by simpa using hemitted⟩
  rw [staticInitTargets_eq, List.mem_filter, List.mem_eraseDups, mem_touchedIn, hkept, and_comm]

end Targets

section Nodes

variable {job : Job} {caller : MethodRef} {name : ClassName}

theorem eq_of_run_field {r : FieldRef} {f : Field} {s t : State}
    (h : (job.field r).run s = (.ok f, t)) : job.program.findField r = some f := by
  rw [Job.field] at h
  cases hfound : job.program.findField r with
  | none =>
      rw [hfound] at h
      cases h
  | some g =>
      rw [hfound] at h
      exact congrArg some (eq_of_run_pure h).1

theorem eq_of_run_method {r : MethodRef} {m : Method} {s t : State}
    (h : (job.method r).run s = (.ok m, t)) : job.program.resolve r = some m := by
  rw [Job.method] at h
  cases hfound : job.program.resolve r with
  | none =>
      rw [hfound] at h
      cases h
  | some other =>
      rw [hfound] at h
      exact congrArg some (eq_of_run_pure h).1

/-- A static use that is lowered touches a class: its reference means something. -/
theorem NodeStep.touches {α : Type} {e : Expr} {x : Emit α} (h : NodeStep job caller e x)
    {s t : State} {a : α} (hrun : x.run s = (.ok a, t)) (huse : e.isStaticUse = true) :
    ∃ name, e.Touches job.program name := by
  cases h with
  | staticField r =>
      rw [Job.staticField] at hrun
      obtain ⟨f, u, hfield, -⟩ := exists_of_run_bind_ok hrun
      exact ⟨f.owner, .staticField (eq_of_run_field hfield)⟩
  | callStatic hraw args => exact ⟨a.owner, .callStatic hraw (eq_of_run_method hrun)⟩
  | construct owner ctor args => exact ⟨owner, .construct owner ctor args⟩
  | rawCall hraw args => simp [Expr.isStaticUse, hraw] at huse
  | plain hplain a => simp [e.isStaticUse_of_isPlain hplain] at huse
  | literal _ | instanceField _ _ | unary _ _ _ _ | binary _ _ _ _ _ _ | cast _ _ _ _
  | callInstance _ _ _ | callSuper _ _ _ => cases huse

theorem Steps.touches {α : Type} {nodes : List Expr} {x : Emit α} (h : Steps job caller nodes x) :
    ∀ s t a, x.run s = (.ok a, t) →
      ∀ e ∈ nodes, e.isStaticUse = true → ∃ name, e.Touches job.program name := by
  induction h with
  | pure a => exact fun _ _ _ _ e he => absurd he List.not_mem_nil
  | node hnode =>
      intro s t a hrun e he
      obtain rfl := List.mem_singleton.1 he
      exact hnode.touches hrun
  | bind _ _ ih ihrest =>
      intro s t b hrun e he
      obtain ⟨a, u, hfirst, hlater⟩ := exists_of_run_bind_ok hrun
      rcases List.mem_append.1 he with he | he
      · exact ih s u a hfirst e he
      · exact ihrest a u t b hlater e he

end Nodes

end Emission

section Parts

variable {p : Program} {name : ClassName}

/-- What a lowered node touches, a statement of the body touches. -/
theorem touches_of_node {job : Emission.Job} {body : Body} {e : Expr} (h : e ∈ job.nodesIn body)
    (htouches : e.Touches p name) : ∃ part, body.stmt.Contains part ∧ part.Touches p name := by
  obtain ⟨part, hpart, ⟨d, hd, he⟩ | ⟨object, r, value, rfl, rfl⟩ | ⟨r, value, rfl, rfl⟩⟩ :=
    Emission.Job.mem_nodesIn h
  · exact ⟨part, hpart, .inl ⟨d, hd, e, he, htouches⟩⟩
  · cases htouches
  · cases htouches with
    | staticField h => exact ⟨_, hpart, .inr (.staticField h)⟩

end Parts

theorem Expr.Touches.base? {p : Program} {e : Expr} {name : ClassName} (h : e.Touches p name) :
    e.base? p = some name := by
  cases h with
  | staticField h => rw [Expr.base?, h, Option.map_some]
  | callStatic hraw h => rw [Expr.base?, if_neg hraw, h, Option.map_some]
  | construct owner ctor args => rfl

namespace Emission

open Output

/-- The names are those of the classes that the body touches and whose initialiser it has
to force, each once. -/
structure ForcedBy (p : Program) (owner : ClassName) (body : Body) (names : List ClassName) :
    Prop where
  nodup : names.Nodup
  members : ∀ name, name ∈ names ↔
    p.EmitsBeside owner name ∧ ∃ part, body.stmt.Contains part ∧ part.Touches p name

/-- Between the declarations and its statement a body forces the initialisers of all
other emitted classes that it touches, each once and on a line of its own, and nothing
else stands there. Every static use that is lowered has a class as the base of its text,
and if that class is emitted beside this one, it is among them. -/
theorem staticInits_cover {job : Job} {owner : ClassName} {m : Method} {body : Body} {s t : State}
    {d : Doc} (h : (lowerBody job owner m body).run s = (.ok d, t)) :
    let names := staticInitTargets job.program owner body
    ForcedBy job.program owner body names ∧
    (∃ text n,
      LowersStmt job ⟨⟨owner, m.name, m.type⟩, m.returnsThis⟩ none body.stmt (0, s) text (n, t) ∧
      ∀ level, d.linesAt level =
        (declarationTexts body ++ names.map fun name => name.identifier ++ ".SI();").flatMap
          (Doc.textLines level) ++ text.linesAt level) ∧
    ∀ e ∈ job.nodesIn body, e.isStaticUse = true → ∃ name, e.Touches job.program name ∧
      (∀ caller u v access, (lowerExpr job caller e).run u = (.ok access, v) →
        Based name.identifier e access) ∧
      (job.program.EmitsBeside owner name → name ∈ names) := by
  intro names
  obtain ⟨text, n, hstmt, rfl⟩ := lowersStmt_of_lowerBody h
  have hforced : ForcedBy job.program owner body names :=
    ⟨nodup_staticInitTargets .., fun name => mem_staticInitTargets⟩
  refine ⟨hforced, ⟨text, n, hstmt, fun level => linesAt_body body names text level⟩,
    fun e he huse => ?_⟩
  obtain ⟨name, htouches⟩ := (lowerBody_steps job owner m body).touches s t _ h e he huse
  refine ⟨name, htouches, fun caller u v access hrun => lowerExpr_based htouches.base? hrun,
    fun hbeside => ?_⟩
  exact (hforced.members name).2 ⟨hbeside, touches_of_node he htouches⟩

section Examples

/-- A class without a parent that has one static field. -/
def staticHolder (name field : String) : Class :=
  { Class.bare name none with fields := [⟨field, ⟨name⟩, true, .int, none⟩] }

/-- Two classes with static fields beside the entry class. -/
def holding : Program where
  classes := [Class.bare "Main" none, staticHolder "app.X" "f", staticHolder "app.Y" "g"]
  entry := ⟨"Main"⟩
  customMains := []
  distinct := by decide
  hasEntry := by decide

/-- A body that assigns to the field of the one class and then reads that of the other. -/
def assigning : Body where
  locals := []
  stmt := .block [.setStaticField ⟨⟨"app.X"⟩, "f", .int⟩ (.literal (.int 1)),
    .eval (.staticField ⟨⟨"app.Y"⟩, "g", .int⟩)]

theorem findField_holding :
    holding.findField ⟨⟨"app.X"⟩, "f", .int⟩ = some ⟨"f", ⟨"app.X"⟩, true, .int, none⟩ ∧
      holding.findField ⟨⟨"app.Y"⟩, "g", .int⟩ = some ⟨"g", ⟨"app.Y"⟩, true, .int, none⟩ :=
  ⟨Program.findField_own rfl rfl, Program.findField_own rfl rfl⟩

/-- The assignment is met first, but the read comes first among the names. -/
theorem staticInitTargets_assigning :
    staticInitTargets holding ⟨"Main"⟩ assigning = [⟨"app.Y"⟩, ⟨"app.X"⟩] := by
  have htouched : touchedIn holding assigning = [⟨"app.Y"⟩, ⟨"app.X"⟩] := by
    simp [touchedIn, assigning, Stmt.expressions, expressionsOfAll, Expr.subterms,
      Stmt.substatements, substatementsOfAll, List.filterMap_cons, touchedBy, writtenBy,
      findField_holding]
  rw [staticInitTargets_eq, htouched]
  decide +kernel

/-- The body is lowered as that of any method. -/
theorem exists_run_assigning (m : Method) :
    ∃ d t, (lowerBody ⟨holding, {}, plainTemplater⟩ ⟨"Main"⟩ m assigning).run .initial = (.ok d, t) := by
  have hacyclic : holding.Acyclic := by
    refine Program.acyclic_of_rank (fun _ => 0) ?_
    simp [holding, staticHolder, ExtendsIn, Class.bare]
  have howns : holding.OwnsFields := by
    simp [Program.OwnsFields, holding, staticHolder, Class.bare]
  refine exists_lowerBody_run ⟨hacyclic, howns⟩ ?_ (Job.ordered_initial _)
  simp [Job.bodyFaults, Job.nodesIn, assigning, Stmt.lowered, loweredInAll, Stmt.ownNodes, Expr.nodes,
    Job.faultAt, unanswered, findField_holding]

/-- Both classes are forced in that body, before its statement. -/
theorem staticInits_cover_assigning :
    let job : Job := ⟨holding, {}, plainTemplater⟩
    let m := Method.mentioning "Main" "hello" .nop
    ∃ d t text n, (lowerBody job ⟨"Main"⟩ m assigning).run .initial = (.ok d, t) ∧
      ForcedBy holding ⟨"Main"⟩ assigning [⟨"app.Y"⟩, ⟨"app.X"⟩] ∧
      LowersStmt job ⟨⟨⟨"Main"⟩, m.name, m.type⟩, m.returnsThis⟩ none assigning.stmt (0, .initial) text
        (n, t) ∧
      d.linesAt 1 = [(1, "app_Y.SI();"), (1, "app_X.SI();")] ++ text.linesAt 1 := by
  intro job m
  obtain ⟨d, t, hrun⟩ := exists_run_assigning m
  obtain ⟨hforced, ⟨text, n, hstmt, hlines⟩, -⟩ := staticInits_cover hrun
  rw [show staticInitTargets job.program ⟨"Main"⟩ assigning = _ from staticInitTargets_assigning]
    at hforced hlines
  exact ⟨d, t, text, n, hrun, hforced, hstmt,
    (hlines 1).trans (congrArg (· ++ text.linesAt 1) (by decide +kernel))⟩

end Examples

end Emission

end ClassScript
