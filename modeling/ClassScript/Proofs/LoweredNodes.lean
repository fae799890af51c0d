import ClassScript.Proofs.NodeSteps
import ClassScript.Proofs.StatementParts

/-!
What is lowered of a body stands in its text. The statements that are lowered are parts
of the body, in the order of the text, and their nodes stand in the operands of these,
but for the accesses that assignments count as.
-/

namespace ClassScript

theorem mem_subtermsOfAll {e : Expr} {es : List Expr} (h : e ∈ es) : e ∈ subtermsOfAll es := by
  rw [subtermsOfAll_eq_flatMap]
  exact List.mem_flatMap.2 ⟨e, h, Expr.mem_subterms.2 .refl⟩

/-- The subterms of an expression of a statement are expressions of it. -/
theorem Stmt.expressions_closed (s : Stmt) (e : Expr) (h : e ∈ s.expressions) :
    e.subterms ⊆ s.expressions := by
  intro d hd
  obtain ⟨part, hpart, operand, hoperand, he⟩ := mem_expressions.1 h
  exact mem_expressions.2 ⟨part, hpart, operand, hoperand, he.trans (Expr.mem_subterms.1 hd)⟩

mutual

/-- What is lowered of a statement stands in it, in the same order. -/
theorem Stmt.lowered_sublist (native : Bool) : ∀ s : Stmt,
    (s.lowered native).Sublist s.substatements
  | .block body => by
      simp only [Stmt.lowered, Stmt.substatements]
      exact (loweredInAll_sublist native body).cons_cons _
  | .when _ part | .loop _ _ part => by
      simp only [Stmt.lowered, Stmt.substatements]
      exact (part.lowered_sublist native).cons_cons _
  | .choose _ first second | .tryCatch first second => by
      simp only [Stmt.lowered, Stmt.substatements]
      exact ((first.lowered_sublist native).append (second.lowered_sublist native)).cons_cons _
  | .switch _ cases otherwise => by
      simp only [Stmt.lowered, Stmt.substatements]
      exact ((loweredInCases_sublist native cases).append
        (otherwise.lowered_sublist native)).cons_cons _
  | .position _ _ | .nop | .eval _ | .ret _ | .setSlot _ _ | .setInstanceField _ _ _
  | .setStaticField _ _ | .setArray _ _ _ | .fillArray _ _ _ | .leave _ | .again _ | .throw _
  | .rethrow => by
      simp only [Stmt.lowered, Stmt.substatements]
      exact List.Sublist.refl _

theorem loweredInAll_sublist (native : Bool) :
    ∀ body : List Stmt, (loweredInAll native body).Sublist (substatementsOfAll body)
  | [] => List.Sublist.refl _
  | s :: rest => (s.lowered_sublist native).append (loweredInAll_sublist native rest)

theorem loweredInCases_sublist (native : Bool) :
    ∀ cases : List SwitchCase,
      (loweredInCases native cases).Sublist (substatementsOfCases cases)
  | [] => List.Sublist.refl _
  | .arm values body :: rest => by
      simp only [loweredInCases, substatementsOfCases]
      split
      · exact (body.lowered_sublist native).append (loweredInCases_sublist native rest)
      · exact (List.nil_sublist _).append (loweredInCases_sublist native rest)

end

mutual

/-- What is lowered of an expression is one of its subterms. -/
theorem Expr.nodes_subset : ∀ e : Expr, e.nodes ⊆ e.subterms
  | .literal _ | .slot _ | .param _ | .this | .caught | .staticField _ => by
      simp only [Expr.nodes, Expr.subterms]
      exact List.Subset.refl _
  | .instanceField operand _ | .unary _ _ operand | .cast operand _ _ | .instanceOf operand _
  | .checkCast operand _ | .newArray _ operand | .arrayLength operand => by
      have hoperand := operand.nodes_subset
      simp only [Expr.nodes, Expr.subterms]
      grind
  | .binary _ _ left right | .arrayGet left right => by
      have hleft := left.nodes_subset
      have hright := right.nodes_subset
      simp only [Expr.nodes, Expr.subterms]
      grind
  | .callStatic method args => by
      have hargs := nodesOfAll_subset args
      simp only [Expr.nodes, Expr.subterms]
      grind
  | .construct _ _ args => by
      have hargs := nodesOfAll_subset args
      simp only [Expr.nodes, Expr.subterms]
      grind
  | .callInstance object _ args | .callSuper object _ args => by
      have hobject := object.nodes_subset
      have hargs := nodesOfAll_subset args
      simp only [Expr.nodes, Expr.subterms]
      grind
  | .ternary cond yes no => by
      have hcond := cond.nodes_subset
      have hyes := yes.nodes_subset
      have hno := no.nodes_subset
      simp only [Expr.nodes, Expr.subterms]
      grind

theorem nodesOfAll_subset : ∀ es : List Expr, nodesOfAll es ⊆ subtermsOfAll es
  | [] => List.Subset.refl _
  | e :: rest => by
      have hfirst := e.nodes_subset
      have hrest := nodesOfAll_subset rest
      simp only [nodesOfAll, subtermsOfAll]
      grind

end

/-- The nodes of a statement stand in its operands, but for the access that an
assignment counts as. -/
theorem Stmt.mem_ownNodes {s : Stmt} {e : Expr} (h : e ∈ s.ownNodes) :
    (∃ d ∈ s.operands, e ∈ d.subterms) ∨
    (∃ object r value, s = .setInstanceField object r value ∧ e = .instanceField object r) ∨
    ∃ r value, s = .setStaticField r value ∧ e = .staticField r := by
  have hone : ∀ {d : Expr}, e ∈ d.nodes → e ∈ d.subterms := fun {d} he => d.nodes_subset he
  have hall : ∀ {es : List Expr}, e ∈ nodesOfAll es → ∃ d ∈ es, e ∈ d.subterms := fun {es} he => by
    have hmem := nodesOfAll_subset es he
    rwa [subtermsOfAll_eq_flatMap, List.mem_flatMap] at hmem
  cases s with
  | ret value =>
      cases value with
      | none => cases h
      | some value => exact .inl ⟨value, List.mem_singleton_self _, hone h⟩
  | fillArray array start values =>
      rcases List.mem_append.1 h with h | h
      · exact .inl ⟨array, List.mem_cons_self, hone h⟩
      · obtain ⟨d, hd, he⟩ := hall h
        exact .inl ⟨d, List.mem_cons_of_mem _ hd, he⟩
  | _ =>
      simp only [Stmt.ownNodes, Stmt.operands, List.mem_append] at h ⊢
      grind

/-- A node of a body stands in an operand of one of its statements, or it is the access
that an assignment counts as. -/
theorem Emission.Job.mem_nodesIn {job : Job} {body : Body} {e : Expr} (h : e ∈ job.nodesIn body) :
    ∃ part, body.stmt.Contains part ∧
      ((∃ d ∈ part.operands, d.Contains e) ∨
        (∃ object r value, part = .setInstanceField object r value ∧ e = .instanceField object r) ∨
        ∃ r value, part = .setStaticField r value ∧ e = .staticField r) := by
  obtain ⟨part, hpart, he⟩ := List.mem_flatMap.1 h
  refine ⟨part, Stmt.mem_substatements.1 ((body.stmt.lowered_sublist _).subset hpart), ?_⟩
  have hcases := Stmt.mem_ownNodes he
  simp only [Expr.mem_subterms] at hcases
  exact hcases

/-- What is lowered of a body is among its expressions, but for the access that an
assignment counts as. -/
theorem Emission.Job.nodesIn_mem_expressions {job : Job} {body : Body} {e : Expr}
    (h : e ∈ job.nodesIn body) (hfield : ∀ object r, e ≠ .instanceField object r)
    (hstatic : ∀ r, e ≠ .staticField r) : e ∈ body.stmt.expressions := by
  obtain ⟨part, hpart, ⟨d, hd, he⟩ | ⟨object, r, _, -, he⟩ | ⟨r, _, -, he⟩⟩ := mem_nodesIn h
  · exact Stmt.mem_expressions.2 ⟨part, hpart, d, hd, he⟩
  · exact absurd he (hfield object r)
  · exact absurd he (hstatic r)

end ClassScript
