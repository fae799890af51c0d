import ClassScript.Proofs.AlikeJobs
import ClassScript.Proofs.StatementRuns

/-!
Statements of jobs that give every expression the same answers. What is one line is the
same line in both. Statements with parts are put together alike if the two jobs have one
form for switch statements, up to what they make of positions.
-/

namespace ClassScript.Emission

open Output

/-- A relation between documents that putting them together keeps. -/
structure Congruence (R : Doc → Doc → Prop) : Prop where
  refl : ∀ d, R d d
  seq : ∀ {a a' b b'}, R a a' → R b b' → R (a ++ b) (a' ++ b')
  block : ∀ {head after b b'}, R b b' → R (.block head b after) (.block head b' after)
  indented : ∀ {b b'}, R b b' → R (.indented b) (.indented b')
  splice : ∀ {b b'}, R b b' → R (.splice b) (.splice b')

theorem Congruence.eq : Congruence Eq where
  refl _ := rfl
  seq h h' := h ▸ h' ▸ rfl
  block h := h ▸ rfl
  indented h := h ▸ rfl
  splice h := h ▸ rfl

/-- The document that marks a position, if the job asks for it. -/
def Job.positionDoc (job : Job) (m : Mark) : Doc :=
  if job.config.debug then .mark m else .empty

section Statements

variable {S : State → State → Prop} {R : Doc → Doc → Prop} {job job' : Job}

/-- What such jobs write as one line is one line in both, and the same but where a `break`
leaves another chain. -/
theorem AlikeNodes.line (h : AlikeNodes S job job') (ctx : Context) {s : Stmt}
    {chain : Option Nat} {x : Emit String} (hx : lineText? job ctx chain s = some x)
    (chain' : Option Nat) : ∃ x', lineText? job' ctx chain' s = some x' ∧
      Agree S (fun text text' => chain = chain' → text = text') x x' := by
  have hsame : ∀ {x x' : Emit String}, Agree S Eq x x' →
      Agree S (fun text text' => chain = chain' → text = text') x x' := fun h =>
    h.mono fun _ _ heq _ => heq
  cases s with
  | eval value =>
      cases hx
      exact ⟨_, rfl, hsame (h.expression _ value)⟩
  | ret value? =>
      cases value? <;> cases hx
      · exact ⟨_, rfl, .pure fun _ => rfl⟩
      · next value => exact ⟨_, rfl, hsame ((h.expression _ value).bindEq fun _ => .pure rfl)⟩
  | setSlot _ value | throw value =>
      cases hx
      exact ⟨_, rfl, hsame ((h.expression _ value).bindEq fun _ => .pure rfl)⟩
  | setInstanceField object field value =>
      cases hx
      exact ⟨_, rfl, hsame ((h.expression _ object).bindEq fun _ => (h.expression _ value).bindEq
        fun _ => (h.fieldName field).bindEq fun _ => .pure rfl)⟩
  | setStaticField field value =>
      cases hx
      exact ⟨_, rfl, hsame ((h.expression _ value).bindEq fun _ =>
        (h.staticField field).bindEq fun _ => .pure rfl)⟩
  | setArray array index value =>
      cases hx
      exact ⟨_, rfl, hsame ((h.expression _ array).bindEq fun _ => (h.expression _ index).bindEq
        fun _ => (h.expression _ value).bindEq fun _ => .pure rfl)⟩
  | fillArray array _ values =>
      cases hx
      exact ⟨_, rfl, hsame ((h.expression _ array).bindEq fun _ =>
        (h.expressions _ values).bindEq fun _ => .pure rfl)⟩
  | leave label? =>
      cases label? <;> cases hx
      · exact ⟨_, rfl, .pure fun hchain => by rw [hchain]⟩
      · exact ⟨_, rfl, .pure fun _ => rfl⟩
  | again label? =>
      cases label? <;> cases hx <;> exact ⟨_, rfl, .pure fun _ => rfl⟩
  | rethrow =>
      cases hx
      exact ⟨_, rfl, .pure fun _ => rfl⟩
  | _ => cases hx

theorem AlikeNodes.sameLine (h : AlikeNodes S job job') (hR : Congruence R) {ctx : Context}
    {chain : Option Nat} {s : Stmt} {x : Emit String} (hx : lineText? job ctx chain s = some x) :
    AgreeInStep S R (lowerStmt job ctx chain s) (lowerStmt job' ctx chain s) := by
  obtain ⟨x', hx', hagree⟩ := h.line ctx hx chain
  rw [lowerStmt_line hx, lowerStmt_line hx']
  exact .liftEq (hagree.mono fun _ _ heq => heq rfl) fun _ => .pure (hR.refl _)

/-- Two jobs that put switch statements in the same form, and positions in
related documents. -/
structure SameForm (R : Doc → Doc → Prop) (job job' : Job) : Prop where
  native : job'.config.nativeSwitch = job.config.nativeSwitch
  position : ∀ m, R (job.positionDoc m) (job'.positionDoc m)

mutual

/-- Jobs that differ only in positions lower a statement to related documents,
and number its switches alike. -/
theorem AlikeNodes.sameStmt (h : AlikeNodes S job job') (hR : Congruence R) (hform : SameForm R job job')
    (ctx : Context) : ∀ (s : Stmt) (chain : Option Nat),
      AgreeInStep S R (lowerStmt job ctx chain s) (lowerStmt job' ctx chain s)
  | .position file line, _ => by
      simp only [lowerStmt]
      exact .pure (hform.position ⟨file, line⟩)
  | .nop, _ => by
      simp only [lowerStmt]
      exact .pure (hR.refl _)
  | .eval _, _ | .ret none, _ | .ret (some _), _ | .setSlot _ _, _ | .setInstanceField _ _ _, _
  | .setStaticField _ _, _ | .setArray _ _ _, _ | .fillArray _ _ _, _ | .leave none, _
  | .leave (some _), _ | .again none, _ | .again (some _), _ | .throw _, _ | .rethrow, _ =>
      h.sameLine hR rfl
  | .block body, chain => by
      simp only [lowerStmt]
      exact h.sameStmts hR hform ctx body chain
  | .when cond yes, chain => by
      simp only [lowerStmt]
      apply AgreeInStep.liftEq (h.expression _ cond)
      intro _
      exact (h.sameStmt hR hform ctx yes chain).bind fun _ _ hyes => .pure (hR.block hyes)
  | .choose cond yes no, chain => by
      simp only [lowerStmt]
      apply AgreeInStep.liftEq (h.expression _ cond)
      intro _
      apply (h.sameStmt hR hform ctx yes chain).bind
      intro _ _ hyes
      apply (h.sameStmt hR hform ctx no chain).bind
      intro _ _ hno
      exact .pure (hR.seq (hR.block hyes) (hR.block hno))
  | .loop _ cond body, _ => by
      simp only [lowerStmt]
      apply AgreeInStep.liftEq (h.expression _ cond)
      intro _
      exact (h.sameStmt hR hform ctx body none).bind fun _ _ hbody => .pure (hR.block hbody)
  | .switch subject cases otherwise, _ => by
      simp only [lowerStmt, hform.native]
      apply AgreeInStep.liftEq (h.expression _ subject)
      intro _
      split
      · apply (h.sameArms hR hform ctx cases).bind
        intro _ _ harms
        apply (h.sameStmt hR hform ctx otherwise none).bind
        intro _ _ hotherwise
        exact .pure (hR.block (hR.seq (hR.seq harms (hR.refl _))
          (hR.indented (hR.seq hotherwise (hR.refl _)))))
      · refine .draw fun n => ?_
        apply (h.sameLinks hR hform ctx n true cases).bind
        intro _ _ hlinks
        apply (h.sameStmt hR hform ctx otherwise (some n)).bind
        intro _ _ hotherwise
        refine .pure (hR.block (hR.seq (hR.seq (hR.refl _) hlinks) ?_))
        split
        · exact hotherwise
        · split
          · exact hR.refl _
          · exact hR.block hotherwise
  | .tryCatch body handler, chain => by
      simp only [lowerStmt]
      apply (h.sameStmt hR hform ctx body chain).bind
      intro _ _ hbody
      apply (h.sameStmt hR hform ctx handler chain).bind
      intro _ _ hhandler
      exact .pure (hR.seq (hR.block hbody) (hR.block (hR.seq (hR.refl _) hhandler)))

theorem AlikeNodes.sameStmts (h : AlikeNodes S job job') (hR : Congruence R) (hform : SameForm R job job')
    (ctx : Context) : ∀ (body : List Stmt) (chain : Option Nat),
      AgreeInStep S R (lowerStmts job ctx chain body) (lowerStmts job' ctx chain body)
  | [], _ => by
      simp only [lowerStmts]
      exact .pure (hR.refl _)
  | s :: rest, chain => by
      simp only [lowerStmts]
      apply (h.sameStmt hR hform ctx s chain).bind
      intro _ _ hfirst
      exact (h.sameStmts hR hform ctx rest chain).bind fun _ _ hrest => .pure (hR.seq hfirst hrest)

theorem AlikeNodes.sameArms (h : AlikeNodes S job job') (hR : Congruence R) (hform : SameForm R job job')
    (ctx : Context) : ∀ cases : List SwitchCase,
      AgreeInStep S R (lowerArms job ctx cases) (lowerArms job' ctx cases)
  | [] => by
      simp only [lowerArms]
      exact .pure (hR.refl _)
  | .arm _ body :: rest => by
      simp only [lowerArms]
      apply (h.sameStmt hR hform ctx body none).bind
      intro _ _ hbody
      apply (h.sameArms hR hform ctx rest).bind
      intro _ _ hrest
      exact .pure (hR.seq (hR.seq (hR.refl _) (hR.indented (hR.seq hbody (hR.refl _)))) hrest)

theorem AlikeNodes.sameLinks (h : AlikeNodes S job job') (hR : Congruence R) (hform : SameForm R job job')
    (ctx : Context) (n : Nat) : ∀ (first : Bool) (cases : List SwitchCase),
      AgreeInStep S R (lowerLinks job ctx n first cases) (lowerLinks job' ctx n first cases)
  | _, [] => by
      simp only [lowerLinks]
      exact .pure (hR.refl _)
  | first, .arm values body :: rest => by
      simp only [lowerLinks]
      split
      · exact h.sameLinks hR hform ctx n first rest
      · apply (h.sameStmt hR hform ctx body (some n)).bind
        intro _ _ hbody
        apply (h.sameLinks hR hform ctx n false rest).bind
        intro _ _ hrest
        exact .pure (hR.seq (hR.block hbody) hrest)

end

end Statements

end ClassScript.Emission
