import ClassScript.Proofs.AlikeClasses
import ClassScript.Proofs.DocLines

/-!
Switch statements as such and as chains of conditions. Where every arm lists a
value, the two lowerings pass through the same statements in the same order, so
they fail alike, ask for the same names, slots and templates, and leave the same
marks.
-/

namespace ClassScript

/-- Whether each arm of a switch statement has a value that selects it. -/
def Stmt.listsValues : Stmt → Bool
  | .switch _ cases _ => cases.all (!·.values.isEmpty)
  | _ => true

/-- The same for every switch statement of the bodies. -/
def Program.ListsValues (p : Program) : Prop :=
  ∀ c ∈ p.classes, ∀ m ∈ c.methods, ∀ body ∈ m.body,
    ∀ s ∈ body.stmt.substatements, s.listsValues = true

namespace Emission

open Output

/-- The message of the note that a stub leaves. -/
def stubMessage : String := "method body replaced by stub"

/-- The methods that have been replaced by stubs, as they were noted. -/
def State.stubs (s : State) : List Event :=
  s.log.filter (·.message = stubMessage)

/-- States that have seen the same, but for notes that are not about stubs. -/
structure SameSoFar (s t : State) : Prop where
  fieldNames : s.fieldNames = t.fieldNames
  pool : s.pool = t.pool
  renders : s.renders = t.renders
  stubs : s.stubs = t.stubs

namespace SameSoFar

theorem refl (s : State) : SameSoFar s s := ⟨rfl, rfl, rfl, rfl⟩

theorem symm {s t : State} (h : SameSoFar s t) : SameSoFar t s :=
  ⟨h.fieldNames.symm, h.pool.symm, h.renders.symm, h.stubs.symm⟩

theorem trans {s t u : State} (h : SameSoFar s t) (h' : SameSoFar t u) : SameSoFar s u :=
  ⟨h.fieldNames.trans h'.fieldNames, h.pool.trans h'.pool, h.renders.trans h'.renders,
    h.stubs.trans h'.stubs⟩

theorem after {s t u v : State} (h : SameSoFar s t) (hu : SameSoFar s u) (hv : SameSoFar t v) :
    SameSoFar u v :=
  hu.symm.trans (h.trans hv)

theorem parallel : Parallel SameSoFar where
  fieldNames h := h.fieldNames
  pool h := h.pool
  setFieldNames _ h := ⟨rfl, h.pool, h.renders, h.stubs⟩
  setPool _ h := ⟨h.fieldNames, rfl, h.renders, h.stubs⟩
  render _ h := ⟨h.fieldNames, h.pool, by rw [h.renders], h.stubs⟩
  note event h := by
    refine ⟨h.fieldNames, h.pool, h.renders, ?_⟩
    have hstubs := h.stubs
    simp only [State.stubs] at hstubs
    simp only [State.stubs, List.filter_append, hstubs]

end SameSoFar

/-- The job with switch statements as such or as chains. -/
def Job.switching (job : Job) (native : Bool) : Job :=
  { job with config := { job.config with nativeSwitch := native } }

/-- Documents with the same marks; there are none if that is asked for. -/
def SameMarks (none : Bool) (d e : Doc) : Prop :=
  d.marks = e.marks ∧ (none = true → e.marks = [])

theorem SameMarks.refl (d : Doc) : SameMarks false d d :=
  ⟨rfl, nofun⟩

theorem SameMarks.congruence : Congruence (SameMarks false) where
  refl := .refl
  seq h h' := ⟨congrArg₂ (· ++ ·) h.1 h'.1, nofun⟩
  block h := ⟨h.1, nofun⟩
  indented h := ⟨h.1, nofun⟩
  splice h := ⟨h.1, nofun⟩

/-- The two forms of switch statements make no difference to the smallest steps. -/
theorem alike_switching (job : Job) (native native' : Bool) :
    Alike SameSoFar (job.switching native) (job.switching native') :=
  SameSoFar.parallel.alike rfl rfl rfl

section Statements

variable {S : State → State → Prop} {job job' : Job}

/-- What tells the two jobs apart, as far as statements can see. -/
structure Switching (job job' : Job) : Prop where
  native : job.config.nativeSwitch = true
  chains : job'.config.nativeSwitch = false
  debug : job'.config.debug = job.config.debug

/-- What is one line leaves no mark in either form. -/
theorem Alike.markedLine (h : Alike S job job') {ctx : Context} {chain : Option Nat} {s : Stmt}
    {x : Emit String} (hx : lineText? job ctx chain s = some x) (chain' : Option Nat) (e : Bool) :
    AgreeCounting S (SameMarks e) (lowerStmt job ctx chain s) (lowerStmt job' ctx chain' s) := by
  obtain ⟨x', hx', hagree⟩ := h.nodes.line ctx hx chain'
  rw [lowerStmt_line hx, lowerStmt_line hx']
  exact .lift hagree fun _ _ _ => .pure ⟨rfl, fun _ => rfl⟩

/-- The last part of a chain has the marks of the default; one that gets no link
has none. -/
theorem marks_last {otherwise : Stmt} {d e : Doc} (h : SameMarks otherwise.isEmpty d e)
    (behind : Bool) :
    (if behind then e else if otherwise.isEmpty then .empty else .block "else" e "").marks =
      e.marks := by
  split
  · rfl
  · split
    · next hempty => exact (h.2 hempty).symm
    · rfl

mutual

/-- A statement whose switches list values leaves the same marks in both forms,
and none if it is nothing but empty blocks. -/
theorem Alike.stmt (h : Alike S job job') (hforms : Switching job job') (ctx : Context) :
    ∀ (s : Stmt), (∀ part ∈ s.substatements, part.listsValues = true) → ∀ chain chain',
      AgreeCounting S (SameMarks s.isEmpty) (lowerStmt job ctx chain s) (lowerStmt job' ctx chain' s)
  | .position file line, _, _, _ => by
      simp only [lowerStmt, hforms.debug]
      exact .pure ⟨rfl, nofun⟩
  | .nop, _, _, _ => by
      simp only [lowerStmt]
      exact .pure ⟨rfl, fun _ => rfl⟩
  | .block body, hparts, chain, chain' => by
      simp only [lowerStmt, Stmt.isEmpty]
      refine h.stmts hforms ctx body (fun part hpart => hparts part ?_) chain chain'
      simp [Stmt.substatements, hpart]
  | .eval _, _, _, _ | .ret none, _, _, _ | .ret (some _), _, _, _ | .setSlot _ _, _, _, _
  | .setInstanceField _ _ _, _, _, _ | .setStaticField _ _, _, _, _ | .setArray _ _ _, _, _, _
  | .fillArray _ _ _, _, _, _ | .leave none, _, _, _ | .leave (some _), _, _, _
  | .again none, _, _, _ | .again (some _), _, _, _ | .throw _, _, _, _ | .rethrow, _, _, _ =>
      h.markedLine rfl _ _
  | .when cond yes, hparts, chain, chain' => by
      have hyes := h.stmt hforms ctx yes fun part hpart => hparts part (by simp [Stmt.substatements, hpart])
      simp only [lowerStmt]
      apply AgreeCounting.liftEq (h.nodes.expression _ cond)
      intro _
      exact (hyes chain chain').bind fun d e hde => .pure ⟨hde.1, nofun⟩
  | .choose cond yes no, hparts, chain, chain' => by
      have hyes := h.stmt hforms ctx yes fun part hpart => hparts part (by simp [Stmt.substatements, hpart])
      have hno := h.stmt hforms ctx no fun part hpart => hparts part (by simp [Stmt.substatements, hpart])
      simp only [lowerStmt]
      apply AgreeCounting.liftEq (h.nodes.expression _ cond)
      intro _
      apply (hyes chain chain').bind
      intro d e hde
      refine (hno chain chain').bind fun d' e' hde' => .pure ⟨?_, nofun⟩
      exact congrArg₂ (· ++ ·) hde.1 hde'.1
  | .loop _ cond body, hparts, chain, chain' => by
      have hbody := h.stmt hforms ctx body fun part hpart => hparts part (by simp [Stmt.substatements, hpart])
      simp only [lowerStmt]
      apply AgreeCounting.liftEq (h.nodes.expression _ cond)
      intro _
      exact (hbody none none).bind fun d e hde => .pure ⟨hde.1, nofun⟩
  | .switch subject cases otherwise, hparts, chain, chain' => by
      have hlists : cases.all (!·.values.isEmpty) = true :=
        hparts (.switch subject cases otherwise) (by simp [Stmt.substatements])
      have hcases : ∀ part ∈ substatementsOfCases cases, part.listsValues = true :=
        fun part hpart => hparts part (by simp [Stmt.substatements, hpart])
      have hotherwise := h.stmt hforms ctx otherwise fun part hpart =>
        hparts part (by simp [Stmt.substatements, hpart])
      simp only [lowerStmt, hforms.native, hforms.chains, Bool.false_eq_true, reduceIte]
      refine .liftEq (h.nodes.expression _ subject) fun _ => .drawRight fun n => ?_
      apply (h.arms hforms ctx cases hlists hcases n true).bind
      intro d e hde
      refine (hotherwise none (some n)).bind fun d' e' hde' => .pure ⟨?_, nofun⟩
      have hlast := marks_last hde' (cases.all (·.values.isEmpty))
      simp only [statement, Doc.marks_append, Doc.marks_block, Doc.marks_indented, Doc.marks_line,
        List.append_nil, List.nil_append, hlast, hde.1, hde'.1]
  | .tryCatch body handler, hparts, chain, chain' => by
      have hbody := h.stmt hforms ctx body fun part hpart => hparts part (by simp [Stmt.substatements, hpart])
      have hhandler := h.stmt hforms ctx handler fun part hpart =>
        hparts part (by simp [Stmt.substatements, hpart])
      simp only [lowerStmt]
      apply (hbody chain chain').bind
      intro d e hde
      refine (hhandler chain chain').bind fun d' e' hde' => .pure ⟨?_, nofun⟩
      exact congrArg₂ (· ++ ·) hde.1 hde'.1

theorem Alike.stmts (h : Alike S job job') (hforms : Switching job job') (ctx : Context) :
    ∀ (body : List Stmt), (∀ part ∈ substatementsOfAll body, part.listsValues = true) →
      ∀ chain chain', AgreeCounting S (SameMarks (Stmt.allEmpty body)) (lowerStmts job ctx chain body)
        (lowerStmts job' ctx chain' body)
  | [], _, _, _ => by
      simp only [lowerStmts]
      exact .pure ⟨rfl, fun _ => rfl⟩
  | s :: rest, hparts, chain, chain' => by
      have hfirst := h.stmt hforms ctx s fun part hpart => hparts part (by simp [substatementsOfAll, hpart])
      have hrest := h.stmts hforms ctx rest fun part hpart =>
        hparts part (by simp [substatementsOfAll, hpart])
      simp only [lowerStmts, Stmt.allEmpty]
      apply (hfirst chain chain').bind
      intro d e hde
      refine (hrest chain chain').bind fun d' e' hde' => .pure ⟨?_, fun hempty => ?_⟩
      · exact congrArg₂ (· ++ ·) hde.1 hde'.1
      · rw [Bool.and_eq_true] at hempty
        rw [Doc.marks_append, hde.2 hempty.1, hde'.2 hempty.2, List.append_nil]

/-- The arms of a switch against the links of a chain. -/
theorem Alike.arms (h : Alike S job job') (hforms : Switching job job') (ctx : Context) :
    ∀ (cases : List SwitchCase), cases.all (!·.values.isEmpty) = true →
      (∀ part ∈ substatementsOfCases cases, part.listsValues = true) → ∀ n first,
        AgreeCounting S (SameMarks false) (lowerArms job ctx cases) (lowerLinks job' ctx n first cases)
  | [], _, _, _, _ => by
      simp only [lowerArms, lowerLinks]
      exact .pure ⟨rfl, nofun⟩
  | .arm values body :: rest, hlists, hparts, n, first => by
      have hbody := h.stmt hforms ctx body fun part hpart =>
        hparts part (by simp [substatementsOfCases, hpart])
      rw [List.all_cons, Bool.and_eq_true, Bool.not_eq_true'] at hlists
      have hrest := h.arms hforms ctx rest hlists.2 fun part hpart =>
        hparts part (by simp [substatementsOfCases, hpart])
      have hvalues : values.isEmpty = false := hlists.1
      simp only [lowerArms, lowerLinks, hvalues, Bool.false_eq_true, reduceIte]
      apply (hbody none (some n)).bind
      intro d e hde
      refine (hrest n false).bind fun d' e' hde' => .pure ⟨?_, nofun⟩
      simp [caseLabels, statement, hde.1, hde'.1]

end

end Statements

theorem bodies_agree {job : Job} (hlists : job.program.ListsValues) :
    Alike.Bodies SameSoFar (SameMarks false) (job.switching true) (job.switching false) := by
  rintro owner m body ⟨c, hc, method, hmethod, hbody⟩
  have hforms : Switching (job.switching true) (job.switching false) := ⟨rfl, rfl, rfl⟩
  have hstmt := (alike_switching job true false).stmt hforms
    { caller := ⟨owner, m.name, m.type⟩, returnsThis := m.returnsThis } body.stmt
    (hlists c hc method hmethod body hbody) none none
  simp only [lowerBody]
  apply (hstmt 0 0).bind
  intro p q hpq
  exact .pure (SameMarks.congruence.seq (.refl _) ⟨hpq.1, nofun⟩)

end Emission

end ClassScript
