import ClassScript.Proofs.LoweredNames
import ClassScript.Proofs.PlainExits

/-!
The names in the text of a statement, line by line. They are those of its references, in
the same order, whether it is written with switch statements or with chains.
-/

namespace ClassScript.Words

open Emission Output Script

variable {refs others : List Reference} {text : String}

/-- A document whose lines have the references for names, one line after the other. -/
inductive DocRefers : List Reference → Doc → Prop where
  | empty : DocRefers [] .empty
  | mark (m : Mark) : DocRefers [] (.mark m)
  | line {refs : List Reference} {text : String} (h : Refers refs text) : DocRefers refs (.line text)
  | seq {refs others : List Reference} {d e : Doc} (h : DocRefers refs d) (h' : DocRefers others e) :
      DocRefers (refs ++ others) (.seq d e)
  | block {refs others : List Reference} {head after : String} {d : Doc} (hhead : Refers refs head)
      (hbody : DocRefers others d) (hafter : Mentions [] after) :
      DocRefers (refs ++ others) (.block head d after)
  | indented {refs : List Reference} {d : Doc} (h : DocRefers refs d) : DocRefers refs (.indented d)

section Text

/-- Text behind which a word may begin, with the names in it. -/
def Passes (names : List String) (chars : List Char) : Prop :=
  (Cursor.code.read chars).2 = .code ∧ named (Cursor.code.read chars).1 = names

theorem Passes.append {names more : List String} {chars rest : List Char} (h : Passes names chars)
    (hrest : Passes more rest) : Passes (names ++ more) (chars ++ rest) := by
  rw [Passes, Cursor.read_append, h.1, named_append, h.2, hrest.2]
  exact ⟨hrest.1, rfl⟩

/-- The end of a line ends the word before it. -/
theorem Refers.passes (h : Refers refs text) (level : Nat) :
    Passes (spelled refs) (String.join ((textEntries level text).map Entry.render)).toList := by
  obtain ⟨honeLine, hsettled, hnames⟩ := h
  have hline : Passes (spelled refs) (text.toList ++ ['\n']) := by
    have hend := Cursor.read_break hsettled (show isVariableChar '\n' = false by decide) []
    rw [Passes, Cursor.read_append, hend, ← hnames, namesIn]
    refine ⟨rfl, ?_⟩
    rw [named_append, named_append, named_append]
    exact congrArg _ (List.append_nil _)
  have hindent : Passes [] (List.replicate level '\t') := by
    have htab : Passes [] ['\t'] := ⟨by decide, by decide⟩
    induction level with
    | zero => exact ⟨rfl, rfl⟩
    | succ level ih => exact htab.append ih
  rw [textEntries_single level honeLine, List.map_singleton, String.join_cons, String.join_nil,
    String.append_empty, toList_render (level, text), shownLine]
  split
  · next hempty =>
      obtain rfl : text = "" := String.isEmpty_iff.1 hempty
      exact hline
  · rw [List.append_assoc]
    exact hindent.append hline

theorem DocRefers.passes {d : Doc} (h : DocRefers refs d) (level : Nat) :
    Passes (spelled refs) (String.join ((d.entriesAt level).map Entry.render)).toList := by
  induction h generalizing level with
  | empty | mark m => exact ⟨rfl, rfl⟩
  | line h => exact h.passes level
  | seq _ _ ih ih' =>
      rw [Doc.entriesAt, List.map_append, String.join_append, String.toList_append, spelled_append]
      exact (ih level).append (ih' level)
  | @block refs others head after d hhead _ hafter ih =>
      have hopen : Refers refs (head ++ " \x7b") := hhead.plain (by decide) (by decide)
      have hclose : Refers [] ("\x7d" ++ after) :=
        (refers_nil hafter).behind [] (show Opening [] "\x7d" by decide)
      rw [Doc.entriesAt]
      simp only [List.map_append, String.join_append, String.toList_append]
      rw [← List.append_nil (refs ++ others), spelled_append, spelled_append]
      exact ((hopen.passes level).append (ih (level + 1))).append (hclose.passes level)
  | indented _ ih => exact ih (level + 1)

/-- The names in the text of a document are those of its references. -/
theorem DocRefers.names_text {d : Doc} (h : DocRefers refs d) :
    namesIn d.text.toList = spelled refs := by
  obtain ⟨hcode, hnames⟩ := h.passes 0
  rw [Doc.text_eq, namesIn, hcode]
  exact (congrArg named (List.append_nil _)).trans hnames

end Text

end ClassScript.Words

namespace ClassScript.Emission

open Output Script Words

section Statements

variable {job : Job} {ctx : Context} {refs others : List Reference} {text : String}

theorem refers_statement (h : Refers refs text) : DocRefers refs (statement text) :=
  .line (h.plain (by decide) (by decide))

theorem refers_subject (n : Nat) : Refers [.subject n] (switchSubject n) :=
  mentions_word (isVariableChar_numbered (by decide) (by decide) n)

theorem refers_chain (n : Nat) : Refers [.chain n] (switchLabel n) :=
  mentions_word (isVariableChar_numbered (by decide) (by decide) n)

/-- What a link compares with its values is always the subject. -/
theorem refers_caseCondition (n : Nat) (values : List Int32) :
    Refers (values.map fun _ => .subject n) (caseCondition (switchSubject n) values) := by
  have hlist : ReferInTurn (values.map fun _ => .subject n)
      (values.map fun v => switchSubject n ++ " == " ++ Text.integer v.toInt) := by
    induction values with
    | nil => exact .nil
    | cons v rest ih =>
        have hone : Refers ([.subject n] ++ []) (switchSubject n ++ " == " ++ Text.integer v.toInt) :=
          (refers_subject n).separated (by decide) (refers_nil (mentions_integer _))
        exact .cons hone ih
  exact hlist.intercalate (by decide)

theorem refers_caseLabels (values : List Int32) : DocRefers [] (caseLabels values) := by
  unfold caseLabels
  induction values with
  | nil => exact .empty
  | cons v rest ih =>
      have hlabel : Refers [] ("case " ++ Text.integer v.toInt ++ ":") :=
        (refers_nil (mentions_integer _)).within [] (by decide) (by decide) (by decide)
      exact .seq (.line hlabel) ih

mutual

/-- An empty statement refers to nothing. -/
theorem references_of_isEmpty : ∀ (s : Stmt) (around : Option Construct) (n : Nat),
    s.isEmpty = true → s.references job around n = []
  | .nop, _, _, _ => by rw [Stmt.references]
  | .block body, around, n, h => by
      rw [Stmt.references]
      exact references_of_allEmpty body around n h
  | .position _ _, _, _, h | .eval _, _, _, h | .ret _, _, _, h | .setSlot _ _, _, _, h
  | .setInstanceField _ _ _, _, _, h | .setStaticField _ _, _, _, h
  | .setArray _ _ _, _, _, h | .fillArray _ _ _, _, _, h | .when _ _, _, _, h
  | .choose _ _ _, _, _, h | .loop _ _ _, _, _, h | .leave _, _, _, h
  | .again _, _, _, h | .switch _ _ _, _, _, h | .throw _, _, _, h
  | .tryCatch _ _, _, _, h | .rethrow, _, _, h => by simp [Stmt.isEmpty] at h

theorem references_of_allEmpty : ∀ (body : List Stmt) (around : Option Construct) (n : Nat),
    Stmt.allEmpty body = true → referencesInAll job around n body = []
  | [], _, _, _ => rfl
  | s :: rest, around, n, h => by
      rw [Stmt.allEmpty, Bool.and_eq_true] at h
      rw [referencesInAll, references_of_isEmpty s around n h.1,
        references_of_allEmpty rest around _ h.2, List.append_nil]

end

/-- A statement leaves the count behind the chains that it is written with. -/
theorem LowersStmt.count_eq {chain : Option Nat} {s : Stmt} {p q : Nat × State} {d : Doc}
    (h : LowersStmt job ctx chain s p d q) (around : Option Construct)
    (haround : leftChain job.config.nativeSwitch around = chain) : q.1 = p.1 + job.chains s :=
  (h.written rfl around haround).count

/-- The default of a chain refers to the same things wherever it stands, and may be left
out only if it refers to nothing. -/
theorem refers_last {otherwise : Stmt} {around : Option Construct} {n : Nat} {last : Doc}
    (alone : Bool) (h : DocRefers (otherwise.references job around n) last) :
    DocRefers (otherwise.references job around n)
      (if alone then last else if otherwise.isEmpty then .empty else .block "else" last "") := by
  split
  · exact h
  · split
    · next hempty =>
        rw [references_of_isEmpty otherwise around n hempty]
        exact .empty
    · exact .block (show Refers [] "else" by decide) h (by decide)

/-- The names in the text of a statement of one line. -/
theorem LineForm.refers {chain : Option Nat} {s : Stmt} {u v : State} {text : String}
    (hline : LineForm job ctx chain s u text v) (h : job.program.OwnersAreWords)
    {around : Option Construct} (haround : leftChain job.config.nativeSwitch around = chain)
    (number : Nat) (hsub : ∀ e ∈ s.expressions, e.IsLegible job) :
    DocRefers (s.references job around number) (statement text) := by
  cases hline with
  | eval hvalue =>
      rw [Stmt.references]
      exact refers_statement (refers_expr h hvalue hsub)
  | ret hvalue =>
      rw [Stmt.references]
      exact refers_statement ((refers_expr h hvalue hsub).behind [] (by decide))
  | retNone _ =>
      rw [Stmt.references]
      split
      · exact refers_statement (show Refers [] "return this" by decide)
      · exact refers_statement (show Refers [] "return" by decide)
  | @setSlot name _ _ _ _ hvalue =>
      rw [Stmt.references]
      exact refers_statement ((refers_variable name).separated (by decide) (refers_expr h hvalue hsub))
  | setInstanceField hobject hvalue _ =>
      simp only [Stmt.expressions, List.forall_mem_append] at hsub
      rw [Stmt.references]
      exact refers_statement (((refers_expr h hobject hsub.1).member _).separated (by decide)
        (refers_expr h hvalue hsub.2))
  | @setStaticField field _ _ _ _ _ _ hvalue htarget =>
      rw [Stmt.references]
      have htarget := refers_staticField h field _ _ _ htarget
      exact refers_statement (htarget.separated (by decide) (refers_expr h hvalue hsub))
  | setArray harray hindex hvalue =>
      simp only [Stmt.expressions, List.forall_mem_append] at hsub
      rw [Stmt.references]
      have hentry := (refers_expr h harray hsub.1.1).separated (show Separates ".data[" by decide)
        (refers_expr h hindex hsub.1.2)
      exact refers_statement (hentry.separated (show Separates "] = " by decide)
        (refers_expr h hvalue hsub.2))
  | @fillArray _ start _ _ _ _ _ _ harray hvalues =>
      simp only [Stmt.expressions, List.forall_mem_append] at hsub
      rw [Stmt.references]
      have hstart := (refers_expr h harray hsub.1).separated
        (show Separates ".setArraySlice(" by decide) (refers_nil (mentions_natural start.toNat))
      have hlist := ((refers_exprs h hvalues hsub.2).intercalate (show Separates ", " by decide)).plain
        (show Mentions [] "])" by decide) (by decide)
      have hcall := hstart.separated (show Separates ", [" by decide) hlist
      refine refers_statement ?_
      simpa only [String.append_assoc, List.append_nil] using hcall
  | leaveLabel label _ =>
      rw [Stmt.references]
      exact refers_statement ((refers_label label).behind [] (by decide))
  | leave _ =>
      rw [Stmt.references, haround]
      cases chain with
      | none => exact refers_statement (show Refers [] "break" by decide)
      | some n => exact refers_statement ((refers_chain n).behind [] (by decide))
  | againLabel label _ =>
      rw [Stmt.references]
      exact refers_statement ((refers_label label).behind [] (by decide))
  | again _ =>
      rw [Stmt.references]
      exact refers_statement (show Refers [] "continue" by decide)
  | throw hvalue =>
      rw [Stmt.references]
      exact refers_statement ((refers_expr h hvalue hsub).behind [] (by decide))
  | rethrow _ =>
      rw [Stmt.references]
      exact refers_statement (by decide)

mutual

/-- The names in the text of a statement are those of its references. -/
theorem LowersStmt.refers (h : job.program.OwnersAreWords) {chain : Option Nat} {s : Stmt}
    {p q : Nat × State} {d : Doc} (hlowers : LowersStmt job ctx chain s p d q)
    (around : Option Construct) (haround : leftChain job.config.nativeSwitch around = chain)
    (hsub : ∀ e ∈ s.expressions, e.IsLegible job) : DocRefers (s.references job around p.1) d := by
  cases hlowers with
  | position _ _ _ _ =>
      rw [Stmt.references]
      split
      · exact .mark _
      · exact .empty
  | nop _ _ =>
      rw [Stmt.references]
      exact .empty
  | line hline hrun => exact (lineForm_of_run hline hrun).refers h haround _ hsub
  | block hbody =>
      rw [Stmt.references]
      exact hbody.refers h around haround hsub
  | when hcond hyes =>
      simp only [Stmt.expressions, List.forall_mem_append] at hsub
      rw [Stmt.references]
      have hhead := refers_expr h hcond hsub.1
      exact .block (hhead.within [] (by decide) (by decide) (by decide))
        (hyes.refers h around haround hsub.2) (by decide)
  | choose hcond hyes hno =>
      simp only [Stmt.expressions, List.forall_mem_append] at hsub
      have hhead := refers_expr h hcond hsub.1.1
      have hfirst := hyes.refers h around haround hsub.1.2
      have hsecond := hno.refers h around haround hsub.2
      rw [hyes.count_eq around haround] at hsecond
      rw [Stmt.references]
      exact .seq (.block (hhead.within [] (by decide) (by decide) (by decide)) hfirst (by decide))
        (.block (show Refers [] "else" by decide) hsecond (by decide))
  | @loop _ label _ _ _ _ _ _ c _ hcond hbody =>
      simp only [Stmt.expressions, List.forall_mem_append] at hsub
      rw [Stmt.references]
      have hhead : Refers _ ("while (" ++ c ++ ")") :=
        (refers_expr h hcond hsub.1).within [] (by decide) (by decide) (by decide)
      refine .block ?_ (hbody.refers h (some .loop) rfl hsub.2) (by decide)
      cases label with
      | none => exact hhead
      | some label => exact (refers_label label).separated (by decide) hhead
  | @switch _ _ _ _ n _ _ _ _ _ _ _ hnative hsubject hcases hotherwise =>
      simp only [Stmt.expressions, List.forall_mem_append] at hsub
      have hhead := refers_expr h hsubject hsub.1.1
      have harms := hcases.refers h hnative n hsub.1.2
      have hlast := hotherwise.refers h (some (.switch n)) (leftChain_native hnative n) hsub.2
      rw [(hcases.written rfl hnative n).count] at hlast
      have hbreak := refers_statement (show Refers [] "break" by decide)
      have hdefault : DocRefers [] (.line "default:") := .line (by decide)
      have hparts := (harms.seq hdefault).seq (hlast.seq hbreak).indented
      rw [List.append_nil, List.append_nil] at hparts
      rw [Stmt.references, if_pos hnative, List.append_assoc]
      exact .block (hhead.within [] (by decide) (by decide) (by decide)) hparts (by decide)
  | @chain _ _ cases _ n _ _ _ _ _ _ _ hchains hsubject hcases hotherwise =>
      simp only [Stmt.expressions, List.forall_mem_append] at hsub
      have hhead := refers_expr h hsubject hsub.1.1
      have hlinks := hcases.refers h hchains hsub.1.2
      have hlast := hotherwise.refers h (some (.switch n)) (leftChain_chain hchains n) hsub.2
      rw [(hcases.written rfl hchains).count] at hlast
      have hdefault := refers_last (cases.all (·.values.isEmpty)) hlast
      have hvariable : Refers [.subject n] ("var " ++ switchSubject n) :=
        (refers_subject n).behind [] (by decide)
      have hdeclared := refers_statement
        (hvariable.separated (show Separates " = " by decide) hhead)
      have hlabel := (refers_chain n).plain (show Mentions [] ":" by decide) (by decide)
      have hchain := DocRefers.block hlabel ((hdeclared.seq hlinks).seq hdefault)
        (show Mentions [] "" by decide)
      rw [Stmt.references, if_neg (by simp [hchains])]
      simp only [List.append_assoc] at hchain ⊢
      exact hchain
  | tryCatch hbody hhandler =>
      simp only [Stmt.expressions, List.forall_mem_append] at hsub
      have hfirst := hbody.refers h around haround hsub.1
      have hsecond := hhandler.refers h around haround hsub.2
      rw [hbody.count_eq around haround] at hsecond
      rw [Stmt.references, List.append_assoc]
      have hstart : Refers [.caught, .handled] (exceptionSlot ++ " = J__i__exception__") := by decide
      have hcatch : Refers [.handled] "catch (J__i__exception__)" := by decide
      have hcaught := DocRefers.block hcatch ((refers_statement hstart).seq hsecond)
        (show Mentions [] "" by decide)
      exact .seq (.block (show Refers [] "try" by decide) hfirst (by decide)) hcaught

theorem LowersStmts.refers (h : job.program.OwnersAreWords) {chain : Option Nat} {body : List Stmt}
    {p q : Nat × State} {d : Doc} (hlowers : LowersStmts job ctx chain body p d q)
    (around : Option Construct) (haround : leftChain job.config.nativeSwitch around = chain)
    (hsub : ∀ e ∈ expressionsOfAll body, e.IsLegible job) :
    DocRefers (referencesInAll job around p.1 body) d := by
  cases hlowers with
  | nil _ _ => exact .empty
  | cons hfirst hrest =>
      rw [expressionsOfAll, List.forall_mem_append] at hsub
      have hothers := hrest.refers h around haround hsub.2
      rw [hfirst.count_eq around haround] at hothers
      rw [referencesInAll]
      exact .seq (hfirst.refers h around haround hsub.1) hothers

theorem LowersArms.refers (h : job.program.OwnersAreWords) (hnative : job.config.nativeSwitch = true)
    {cases : List SwitchCase} {p q : Nat × State} {d : Doc} (hlowers : LowersArms job ctx cases p d q)
    (number : Nat) (hsub : ∀ e ∈ expressionsOfCases cases, e.IsLegible job) :
    DocRefers (referencesInCases job number p.1 cases) d := by
  cases hlowers with
  | nil _ => exact .empty
  | @cons values _ _ _ _ _ _ _ hbody hrest =>
      rw [expressionsOfCases, List.forall_mem_append] at hsub
      have haround := leftChain_native hnative number
      have hinside := hbody.refers h (some (.switch number)) haround hsub.1
      have hothers := hrest.refers h hnative number hsub.2
      rw [hbody.count_eq _ haround] at hothers
      have hbreak := refers_statement (show Refers [] "break" by decide)
      have hparts := ((refers_caseLabels values).seq (hinside.seq hbreak).indented).seq hothers
      rw [List.append_nil, List.nil_append] at hparts
      rw [referencesInCases, if_pos hnative]
      exact hparts

theorem LowersLinks.refers (h : job.program.OwnersAreWords)
    (hchains : job.config.nativeSwitch = false) {n : Nat} {first : Bool} {cases : List SwitchCase}
    {p q : Nat × State} {d : Doc} (hlowers : LowersLinks job ctx n first cases p d q)
    (hsub : ∀ e ∈ expressionsOfCases cases, e.IsLegible job) :
    DocRefers (referencesInCases job n p.1 cases) d := by
  cases hlowers with
  | nil _ _ _ => exact .empty
  | skip hrest =>
      rw [expressionsOfCases, List.forall_mem_append] at hsub
      rw [referencesInCases, if_neg (by simp [hchains]), List.isEmpty_nil, if_pos rfl]
      exact hrest.refers h hchains hsub.2
  | @cons _ first values _ _ _ _ _ _ _ hvalues hbody hrest =>
      rw [expressionsOfCases, List.forall_mem_append] at hsub
      have haround := leftChain_chain hchains n
      have hinside := hbody.refers h (some (.switch n)) haround hsub.1
      have hothers := hrest.refers h hchains hsub.2
      rw [hbody.count_eq _ haround] at hothers
      have hcond := refers_caseCondition n values
      rw [referencesInCases, if_neg (by simp [hchains]), if_neg (by simpa using hvalues)]
      refine .seq (.block ?_ hinside (by decide)) hothers
      cases first with
      | true => exact hcond.within [] (show Opening [] ("if" ++ " (") by decide) (by decide) (by decide)
      | false =>
          exact hcond.within [] (show Opening [] ("else if" ++ " (") by decide) (by decide)
            (by decide)

end

end Statements

end ClassScript.Emission
