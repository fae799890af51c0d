import ClassScript.Proofs.StaticInitializers

/-!
In which order a body forces static initialisers. The classes that its expressions touch
come first, in the order of the text, and then those that it only assigns to. So where
a class is touched before another one, it is forced before it, unless that first touch
is an assignment and an expression touches the other class before one touches it.
-/

namespace ClassScript

theorem Expr.Touches.unique {p : Program} {e : Expr} {x y : ClassName} (h : e.Touches p x)
    (h' : e.Touches p y) : x = y :=
  Option.some.inj ((Emission.touchedBy_eq_some.2 h).symm.trans (Emission.touchedBy_eq_some.2 h'))

namespace Emission

open Output

section Order

variable {p : Program} {owner : ClassName} {body : Body} {x y : ClassName}

theorem earlier_touchedIn : Earlier (· = x) (· = y) (touchedIn p body) ↔
    Earlier (fun e : Expr => e.Touches p x) (fun e => e.Touches p y) body.stmt.expressions ∨
    (∀ e ∈ body.stmt.expressions, ¬ e.Touches p y) ∧
      Earlier (fun s : Stmt => s.Assigns p x) (fun s => s.Assigns p y) body.stmt.substatements := by
  have hnone : (∀ a ∈ body.stmt.expressions.filterMap (touchedBy p), ¬ a = y) ↔
      ∀ e ∈ body.stmt.expressions, ¬ e.Touches p y := by
    simp only [List.mem_filterMap, touchedBy_eq_some]
    exact ⟨fun h e he htouches => h y ⟨e, he, htouches⟩ rfl,
      fun h a ⟨e, he, htouches⟩ hay => h e he (hay ▸ htouches)⟩
  rw [touchedIn, Earlier.append_iff, hnone, Earlier.filterMap_iff, Earlier.filterMap_iff]
  simp only [touchedBy_eq_some, writtenBy_eq_some]

/-- Two classes are forced in the order in which they are come across. -/
theorem pair_sublist_staticInitTargets (hx : x ∈ staticInitTargets p owner body)
    (hy : y ∈ staticInitTargets p owner body) (hne : x ≠ y) :
    [x, y].Sublist (staticInitTargets p owner body) ↔
      Earlier (fun e : Expr => e.Touches p x) (fun e => e.Touches p y) body.stmt.expressions ∨
      (∀ e ∈ body.stmt.expressions, ¬ e.Touches p y) ∧
        Earlier (fun s : Stmt => s.Assigns p x) (fun s => s.Assigns p y) body.stmt.substatements := by
  rw [staticInitTargets_eq] at hx hy ⊢
  rw [pair_sublist_kept hx hy hne, earlier_touchedIn]

/-- What the first statement that touches a class uses comes first among the expressions. -/
theorem earlier_expressions
    (h : Earlier (fun s : Stmt => s.Uses p x) (fun s => s.Touches p y) body.stmt.substatements) :
    Earlier (fun e : Expr => e.Touches p x) (fun e => e.Touches p y) body.stmt.expressions := by
  have hmem : ∀ {s : Stmt} {e : Expr}, e ∈ subtermsOfAll s.operands ↔
      ∃ d ∈ s.operands, d.Contains e := by
    intro s e
    rw [subtermsOfAll_eq_flatMap, List.mem_flatMap]
    simp only [Expr.mem_subterms]
  rw [Stmt.expressions_eq_flatMap]
  refine h.flatMap ?_ ?_
  · rintro s ⟨d, hd, e, he, htouches⟩
    exact ⟨e, hmem.2 ⟨d, hd, he⟩, htouches⟩
  · intro s hnone e he htouches
    obtain ⟨d, hd, he⟩ := hmem.1 he
    exact hnone (.inl ⟨d, hd, e, he, htouches⟩)

/-- Where a class is touched before another one, it is forced before it exactly if no
expression touches the other class before one touches it. -/
theorem pair_sublist_of_earlier (hx : x ∈ staticInitTargets p owner body)
    (hy : y ∈ staticInitTargets p owner body)
    (h : Earlier (fun s : Stmt => s.Touches p x) (fun s => s.Touches p y) body.stmt.substatements) :
    [x, y].Sublist (staticInitTargets p owner body) ↔
      ¬ Earlier (fun e : Expr => e.Touches p y) (fun e => e.Touches p x) body.stmt.expressions := by
  have hne : x ≠ y := by
    rintro rfl
    exact h.asymm h
  rw [pair_sublist_staticInitTargets hx hy hne]
  constructor
  · rintro (hfirst | ⟨hnone, -⟩)
    · exact hfirst.asymm
    · rintro ⟨before, e, after, hsplit, htouches, -⟩
      exact hnone e (hsplit ▸ List.mem_append_right _ List.mem_cons_self) htouches
  · intro hnot
    by_cases hnone : ∀ e ∈ body.stmt.expressions, ¬ e.Touches p y
    · by_cases huses : ∃ e ∈ body.stmt.expressions, e.Touches p x
      · exact .inl (.of_forall huses hnone)
      · -- neither class is touched by an expression, so both are only assigned to
        refine .inr ⟨hnone, ?_⟩
        obtain ⟨before, s, after, hsplit, hs, hbefore⟩ := h
        refine ⟨before, s, after, hsplit, hs.resolve_left ?_, fun other hother hassigns =>
          hbefore other hother (.inr hassigns)⟩
        rintro ⟨d, hd, e, he, htouches⟩
        have hpart : s ∈ body.stmt.substatements := hsplit ▸ List.mem_append_right _ List.mem_cons_self
        exact huses ⟨e, Stmt.mem_expressions.2 ⟨s, Stmt.mem_substatements.1 hpart, d, hd, he⟩, htouches⟩
    · simp only [not_forall, not_not] at hnone
      obtain ⟨e, he, htouches⟩ := hnone
      have hone := Earlier.total (P := fun e : Expr => e.Touches p y) (Q := fun e => e.Touches p x)
        (fun e hy hx => hne (hx.unique hy)) ⟨e, he, htouches⟩
      exact .inl (hone.resolve_left hnot)

end Order

/-- A body forces static initialisers in the order in which its expressions touch the
classes, and then in the order of its assignments. The order of first touches over the
statements, assignments included, is kept exactly where no expression touches the later
class before one touches the earlier class, and so wherever the first touch of the
earlier class is not an assignment. -/
theorem staticInits_ordered {job : Job} {owner : ClassName} {m : Method} {body : Body} {s t : State}
    {d : Doc} (h : (lowerBody job owner m body).run s = (.ok d, t)) :
    let p := job.program
    let expressions := body.stmt.expressions
    let statements := body.stmt.substatements
    ∃ names text, ForcedBy p owner body names ∧
      d = declareLocals body.locals ++
        (if body.hasTraps then statement ("var " ++ exceptionSlot ++ " = null") else .empty) ++
        Doc.lines (names.map fun name => name.identifier ++ ".SI();") ++ text ∧
      ∀ x ∈ names, ∀ y ∈ names,
        (x ≠ y → ([x, y].Sublist names ↔
          Earlier (fun e : Expr => e.Touches p x) (fun e => e.Touches p y) expressions ∨
          (∀ e ∈ expressions, ¬ e.Touches p y) ∧
            Earlier (fun s : Stmt => s.Assigns p x) (fun s => s.Assigns p y) statements)) ∧
        (Earlier (fun s : Stmt => s.Touches p x) (fun s => s.Touches p y) statements →
          ([x, y].Sublist names ↔
            ¬ Earlier (fun e : Expr => e.Touches p y) (fun e => e.Touches p x) expressions)) ∧
        (Earlier (fun s : Stmt => s.Uses p x) (fun s => s.Touches p y) statements →
          [x, y].Sublist names) := by
  intro p expressions statements
  obtain ⟨text, -, -, hdoc⟩ := lowersStmt_of_lowerBody h
  refine ⟨_, text, ⟨nodup_staticInitTargets .., fun name => mem_staticInitTargets⟩, hdoc,
    fun x hx y hy => ⟨pair_sublist_staticInitTargets hx hy, pair_sublist_of_earlier hx hy,
      fun huses => ?_⟩⟩
  have hfirst := earlier_expressions huses
  refine (pair_sublist_staticInitTargets hx hy ?_).2 (.inl hfirst)
  rintro rfl
  exact hfirst.asymm hfirst

section Examples

/-- The assignment touches the one class before anything touches the other. -/
theorem earlier_assigning : Earlier (fun s : Stmt => s.Touches holding ⟨"app.X"⟩)
    (fun s => s.Touches holding ⟨"app.Y"⟩) assigning.stmt.substatements := by
  have hvalue : ∀ e, (Expr.literal (.int 1)).Contains e → ¬ e.Touches holding ⟨"app.Y"⟩ := by
    intro e he htouches
    obtain rfl := List.mem_singleton.1 (Expr.mem_subterms.2 he)
    cases htouches
  refine ⟨[assigning.stmt], .setStaticField ⟨⟨"app.X"⟩, "f", .int⟩ (.literal (.int 1)), _, rfl,
    .inr (.staticField findField_holding.1), fun s hs => ?_⟩
  rcases List.mem_cons.1 hs with rfl | hs
  · rintro (⟨d, hd, -⟩ | hassigns)
    · cases hd
    · cases hassigns
  · obtain rfl := List.mem_singleton.1 hs
    rintro (⟨d, hd, e, he, htouches⟩ | hassigns)
    · obtain rfl := List.mem_singleton.1 hd
      exact hvalue e he htouches
    · have howner := writtenBy_eq_some.2 hassigns
      rw [writtenBy, findField_holding.1] at howner
      exact absurd howner (by decide)

/-- The class that is touched first, by an assignment, is forced after the other one. -/
theorem staticInits_misordered :
    let job : Job := ⟨holding, {}, plainTemplater⟩
    let m := Method.mentioning "Main" "hello" .nop
    let names := staticInitTargets holding ⟨"Main"⟩ assigning
    (∃ d t text, (lowerBody job ⟨"Main"⟩ m assigning).run .initial = (.ok d, t) ∧
      d = .empty ++ .empty ++ Doc.lines ["app_Y.SI();", "app_X.SI();"] ++ text) ∧
    Earlier (fun s : Stmt => s.Touches holding ⟨"app.X"⟩)
      (fun s => s.Touches holding ⟨"app.Y"⟩) assigning.stmt.substatements ∧
    ⟨"app.X"⟩ ∈ names ∧ ⟨"app.Y"⟩ ∈ names ∧ ¬ [⟨"app.X"⟩, ⟨"app.Y"⟩].Sublist names := by
  intro job m names
  have hnames : names = [⟨"app.Y"⟩, ⟨"app.X"⟩] := staticInitTargets_assigning
  have hcalls : initializerTexts names = ["app_Y.SI();", "app_X.SI();"] := by
    rw [hnames]
    decide +kernel
  obtain ⟨d, t, hrun⟩ := exists_run_assigning m
  obtain ⟨text, -, -, rfl⟩ := lowersStmt_of_lowerBody hrun
  refine ⟨⟨_, t, text, hrun, hcalls ▸ rfl⟩, earlier_assigning, ?_⟩
  rw [hnames]
  decide

/-- An expression touches the other class before one touches the class that is touched
first, for that one is only assigned to. -/
theorem staticInits_ordered_assigning :
    let job : Job := ⟨holding, {}, plainTemplater⟩
    let m := Method.mentioning "Main" "hello" .nop
    ∃ d t names, (lowerBody job ⟨"Main"⟩ m assigning).run .initial = (.ok d, t) ∧
      ForcedBy holding ⟨"Main"⟩ assigning names ∧
      ([⟨"app.X"⟩, ⟨"app.Y"⟩].Sublist names ↔
        ¬ Earlier (fun e : Expr => e.Touches holding ⟨"app.Y"⟩)
          (fun e => e.Touches holding ⟨"app.X"⟩) assigning.stmt.expressions) := by
  intro job m
  obtain ⟨d, t, hrun⟩ := exists_run_assigning m
  obtain ⟨names, text, hforced, -, horder⟩ := staticInits_ordered hrun
  have hmem : ∀ name ∈ [(⟨"app.Y"⟩ : ClassName), ⟨"app.X"⟩], name ∈ names := fun name hname =>
    (hforced.members name).2 (mem_staticInitTargets.1 (staticInitTargets_assigning ▸ hname))
  exact ⟨d, t, names, hrun, hforced,
    (horder _ (hmem _ (by simp)) _ (hmem _ (by simp))).2.1 earlier_assigning⟩

end Examples

end Emission

end ClassScript
