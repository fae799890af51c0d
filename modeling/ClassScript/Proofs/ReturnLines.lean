import ClassScript.Proofs.FunctionNames
import ClassScript.Proofs.LineOpenings
import ClassScript.Proofs.LoweredNodes
import ClassScript.Proofs.SourceLayout

/-!
The lines with which a function returns. Its document has one such line for each return
in the body that is lowered, in the same order, and one at its end if the method returns
its receiver; without a value, they return what the method does, whoever the body
belongs to. No other line begins with the word `return`.
-/

namespace ClassScript.Emission

open Output Script

/-- What a return statement returns. -/
def returned? : Stmt → Option (Option Expr)
  | .ret value => some value
  | _ => none

/-- The returns among statements, in order. -/
abbrev returnsIn (stmts : List Stmt) : List (Option Expr) :=
  stmts.filterMap returned?

theorem returnsIn_append (stmts others : List Stmt) :
    returnsIn (stmts ++ others) = returnsIn stmts ++ returnsIn others :=
  List.filterMap_append

theorem returnsIn_cons {s : Stmt} (h : returned? s = none) (stmts : List Stmt) :
    returnsIn (s :: stmts) = returnsIn stmts :=
  List.filterMap_cons_none h

/-- The line of a return: what the method returns if there is no value, and otherwise the
value, which is written as the receiver only if it is that. -/
def WritesReturn (job : Job) (ctx : Context) : Option Expr → String → Prop
  | none, line => line = if ctx.returnsThis then "return this;" else "return;"
  | some value, line => ∃ text s t, (lowerExpr job ctx.caller value).run s = (.ok text, t) ∧
      (text = "this" ↔ value.isReceiver = true) ∧ line = "return " ++ text ++ ";"

/-- Lines that return these values in turn, and between them lines that do not return. -/
inductive ReturnsAmong (loose : Prop) (job : Job) (ctx : Context) :
    List (Option Expr) → List String → Prop where
  | nil : ReturnsAmong loose job ctx [] []
  | other {values : List (Option Expr)} {line : String} {lines : List String}
      (h : ReturnsNot loose line) (hrest : ReturnsAmong loose job ctx values lines) :
      ReturnsAmong loose job ctx values (line :: lines)
  | returned {value : Option Expr} {values : List (Option Expr)} {line : String}
      {lines : List String} (h : WritesReturn job ctx value line)
      (hrest : ReturnsAmong loose job ctx values lines) :
      ReturnsAmong loose job ctx (value :: values) (line :: lines)

section Lines

variable {loose : Prop} {job : Job} {ctx : Context} {values others : List (Option Expr)}
  {lines lines' : List String} {line : String}

theorem ReturnsAmong.append (h : ReturnsAmong loose job ctx values lines)
    (h' : ReturnsAmong loose job ctx others lines') :
    ReturnsAmong loose job ctx (values ++ others) (lines ++ lines') := by
  induction h with
  | nil => exact h'
  | other hline _ ih => exact .other hline ih
  | returned hline _ ih => exact .returned hline ih

theorem isReturn_of_writesReturn {value : Option Expr} (h : WritesReturn job ctx value line) :
    IsReturn line := by
  have hfront : ∀ rest : String, IsReturn ("return " ++ rest) := fun rest => by
    rw [IsReturn, String.toList_append, List.takeWhile_append, if_neg (by decide)]
    decide
  cases value with
  | none =>
      obtain rfl : line = _ := h
      split
      · decide
      · decide
  | some value =>
      obtain ⟨text, _, _, -, -, rfl⟩ := h
      rw [String.append_assoc]
      exact hfront _

/-- Where names are not loose, the lines that begin with the word are those of the returns. -/
theorem ReturnsAmong.forall₂ (h : ReturnsAmong False job ctx values lines) :
    List.Forall₂ (WritesReturn job ctx) values (lines.filter (IsReturn ·)) := by
  induction h with
  | nil => exact .nil
  | @other _ line _ hline _ ih =>
      have hnone : ¬ IsReturn line := fun hreturn => (hline.2 hreturn).1
      rwa [List.filter_cons_of_neg (by simpa using hnone)]
  | returned hline _ ih =>
      rw [List.filter_cons_of_pos (by simpa using isReturn_of_writesReturn hline)]
      exact .cons hline ih

/-- A line that returns the receiver is that of a return which does. -/
theorem ReturnsAmong.receiver (h : ReturnsAmong loose job ctx values lines)
    (hmem : "return this;" ∈ lines) : ∃ value ∈ values, WritesReturn job ctx value "return this;" := by
  induction h with
  | nil => cases hmem
  | @other values line lines hline _ ih =>
      rcases List.mem_cons.1 hmem with rfl | hrest
      · obtain ⟨-, c, hc, haccess⟩ := hline.2 (by decide)
        have hnone : '.' ∉ "return this;".toList ∧ '[' ∉ "return this;".toList := by decide
        rcases haccess with rfl | rfl
        · exact absurd hc hnone.1
        · exact absurd hc hnone.2
      · exact ih hrest
  | @returned value values line lines hline _ ih =>
      rcases List.mem_cons.1 hmem with rfl | hrest
      · exact ⟨value, List.mem_cons_self, hline⟩
      · obtain ⟨other, hother, hwrites⟩ := ih hrest
        exact ⟨other, List.mem_cons_of_mem _ hother, hwrites⟩

end Lines

/-- The document has lines that return these values, at whatever level it stands. -/
def DocReturns (loose : Prop) (job : Job) (ctx : Context) (values : List (Option Expr))
    (d : Doc) : Prop :=
  ∀ level, ReturnsAmong loose job ctx values ((d.linesAt level).map Prod.snd)

namespace DocReturns

variable {loose : Prop} {job : Job} {ctx : Context} {values others : List (Option Expr)}
  {d e : Doc} {text head after : String}

theorem empty : DocReturns loose job ctx [] .empty := fun _ => .nil

theorem mark (m : Mark) : DocReturns loose job ctx [] (.mark m) := fun _ => .nil

theorem line (h : ReturnsNot loose text) : DocReturns loose job ctx [] (.line text) := by
  intro level
  rw [← Doc.textLines, Doc.textLines_single level h.1]
  exact .other h .nil

theorem seq (h : DocReturns loose job ctx values d) (h' : DocReturns loose job ctx others e) :
    DocReturns loose job ctx (values ++ others) (.seq d e) := by
  intro level
  change ReturnsAmong loose job ctx _ (((d ++ e).linesAt level).map Prod.snd)
  rw [Doc.linesAt_append, List.map_append]
  exact (h level).append (h' level)

theorem block (hhead : ReturnsNot loose head) (h : DocReturns loose job ctx values d)
    (hafter : '\n' ∉ after.toList) : DocReturns loose job ctx values (.block head d after) := by
  intro level
  have hopen : ReturnsNot loose (head ++ " \x7b") := hhead.append (by decide) (by decide)
  have hclose : ReturnsNot loose ("\x7d" ++ after) :=
    ((show Opens "\x7d" by decide).append hafter).returnsNot
  rw [Doc.linesAt_block, Doc.textLines_single level hopen.1, Doc.textLines_single level hclose.1,
    List.map_append, List.map_append, ← List.nil_append values, ← List.append_nil ([] ++ values)]
  exact ((ReturnsAmong.other hopen .nil).append (h (level + 1))).append (.other hclose .nil)

theorem indented (h : DocReturns loose job ctx values d) :
    DocReturns loose job ctx values (.indented d) := by
  intro level
  rw [Doc.linesAt_indented]
  exact h (level + 1)

theorem statement (h : ReturnsNot loose text) :
    DocReturns loose job ctx [] (Emission.statement text) :=
  .line (h.append (by decide) (by decide))

/-- A line that returns. -/
theorem single {value : Option Expr} (honeLine : '\n' ∉ text.toList)
    (h : WritesReturn job ctx value text) : DocReturns loose job ctx [value] (.line text) := by
  intro level
  rw [← Doc.textLines, Doc.textLines_single level honeLine]
  exact .returned h .nil

theorem lines {texts : List String} (h : ∀ text ∈ texts, ReturnsNot loose text) :
    DocReturns loose job ctx [] (Doc.lines texts) := by
  induction texts with
  | nil => exact .empty
  | cons text rest ih =>
      obtain ⟨htext, hrest⟩ := List.forall_mem_cons.1 h
      exact .seq (.line htext) (ih hrest)

end DocReturns

section Statements

variable {loose : Prop} {job : Job} {ctx : Context} {native : Bool}

mutual

/-- Nothing returns in blocks of nothing. -/
theorem returnsIn_of_isEmpty : ∀ s : Stmt, s.isEmpty = true → returnsIn (s.lowered native) = []
  | .nop, _ => rfl
  | .block body, h => by
      rw [Stmt.lowered, returnsIn_cons rfl]
      exact returnsIn_of_allEmpty body h
  | .position _ _, h | .eval _, h | .ret _, h | .setSlot _ _, h | .setInstanceField _ _ _, h
  | .setStaticField _ _, h | .setArray _ _ _, h | .fillArray _ _ _, h | .when _ _, h
  | .choose _ _ _, h | .loop _ _ _, h | .leave _, h | .again _, h | .switch _ _ _, h
  | .throw _, h | .tryCatch _ _, h | .rethrow, h => by simp [Stmt.isEmpty] at h

theorem returnsIn_of_allEmpty : ∀ body : List Stmt,
    Stmt.allEmpty body = true → returnsIn (loweredInAll native body) = []
  | [], _ => rfl
  | s :: rest, h => by
      rw [Stmt.allEmpty, Bool.and_eq_true] at h
      rw [loweredInAll, returnsIn_append, returnsIn_of_isEmpty s h.1,
        returnsIn_of_allEmpty rest h.2, List.append_nil]

end

theorem DocReturns.last {otherwise : Stmt} {last : Doc} (alone : Bool)
    (h : DocReturns loose job ctx (returnsIn (otherwise.lowered native)) last) :
    DocReturns loose job ctx (returnsIn (otherwise.lowered native))
      (if alone then last else if otherwise.isEmpty then .empty else .block "else" last "") := by
  split
  · exact h
  · split
    · next hempty =>
        rw [returnsIn_of_isEmpty otherwise hempty]
        exact .empty
    · exact .block (returnsNot_of_not (by decide) (by decide)) h (by decide)

theorem oneLine_numbered {front : String} (honeLine : '\n' ∉ front.toList) (n : Nat) :
    '\n' ∉ (front ++ Text.natural n ++ "__").toList :=
  Text.oneLine_append (Text.oneLine_append honeLine (Text.oneLine_natural n)) (by decide)

/-- The label of a chain opens with the letter of what the lowering names itself. -/
theorem returnsNot_switchLabel (n : Nat) : ReturnsNot loose (switchLabel n) := by
  have hhead : (switchLabel n).toList.head? = some 'J' := by
    rw [switchLabel, String.append_assoc, String.toList_append]
    rfl
  exact (returnsNot_of_head (oneLine_numbered (by decide) n) hhead (by decide)).1

theorem DocReturns.caseLabels (values : List Int32) :
    DocReturns loose job ctx [] (caseLabels values) := by
  refine .lines fun text htext => ?_
  obtain ⟨v, -, rfl⟩ := List.mem_map.1 htext
  exact (((show Opens "case " by decide).append (Text.oneLine_integer _)).append
    (by decide)).returnsNot

theorem DocReturns.break : DocReturns loose job ctx [] (.line "break;") :=
  .line (returnsNot_of_not (by decide) (by decide))

theorem oneLine_of_run (h : job.program.OwnersOpenLines loose) {caller : MethodRef} {e : Expr}
    {u v : State} {text : String} (hrun : (lowerExpr job caller e).run u = (.ok text, v))
    (hsub : ∀ d ∈ e.subterms, d.OpensLine loose) : '\n' ∉ text.toList :=
  ((lowersExpr_of_run e hrun).showsReceiver h hsub).1.1

/-- A statement of one line returns if it is a return. -/
theorem LineForm.returns {chain : Option Nat} {s : Stmt} {u v : State} {text : String}
    (hline : LineForm job ctx chain s u text v) (h : job.program.OwnersOpenLines loose)
    (hsub : ∀ e ∈ s.expressions, e.OpensLine loose) :
    DocReturns loose job ctx (returnsIn (s.lowered native)) (.line (text ++ ";")) := by
  have hshows : ∀ {e : Expr} {u v : State} {text : String},
      (lowerExpr job ctx.caller e).run u = (.ok text, v) → (∀ d ∈ e.subterms, d.OpensLine loose) →
        ShowsReceiver loose e text := fun hrun hparts => (lowersExpr_of_run _ hrun).showsReceiver h hparts
  cases hline with
  | eval hvalue => exact .statement (hshows hvalue hsub).1
  | @ret value _ _ text hvalue =>
      have hreceiver := hshows hvalue hsub
      have honeLine : '\n' ∉ ("return " ++ text ++ ";").toList :=
        Text.oneLine_append (Text.oneLine_append (by decide) hreceiver.1.1) (by decide)
      exact .single honeLine ⟨text, _, _, hvalue, hreceiver.2, rfl⟩
  | retNone _ =>
      cases hreturns : ctx.returnsThis with
      | true =>
          show DocReturns loose job ctx [none] (.line "return this;")
          exact .single (by decide) (by simp [WritesReturn, hreturns])
      | false =>
          show DocReturns loose job ctx [none] (.line "return;")
          exact .single (by decide) (by simp [WritesReturn, hreturns])
  | @setSlot name _ _ _ _ hvalue =>
      exact .statement ((returnsNot_variableName name).1.separated _ (by decide) (by decide)
        (hshows hvalue hsub).1.1)
  | setInstanceField hobject hvalue _ =>
      simp only [Stmt.expressions, List.forall_mem_append] at hsub
      exact .statement (((hshows hobject hsub.1).1.member _).1.separated _ (by decide) (by decide)
        (hshows hvalue hsub.2).1.1)
  | @setStaticField field _ _ _ _ _ _ hvalue htarget =>
      have hfield := returnsNot_staticField h field _ _ _ htarget
      exact .statement (hfield.1.separated _ (by decide) (by decide) (hshows hvalue hsub).1.1)
  | setArray harray hindex hvalue =>
      simp only [Stmt.expressions, List.forall_mem_append] at hsub
      have hentry := (hshows harray hsub.1.1).1.separated ".data[" (by decide) (by decide)
        (hshows hindex hsub.1.2).1.1
      exact .statement (hentry.separated "] = " (by decide) (by decide) (hshows hvalue hsub.2).1.1)
  | @fillArray _ start _ _ _ _ _ _ harray hvalues =>
      simp only [Stmt.expressions, List.forall_mem_append] at hsub
      have hstart := (hshows harray hsub.1).1.separated ".setArraySlice(" (by decide) (by decide)
        (Text.oneLine_natural start.toNat)
      have hlist := hstart.separated ", [" (by decide) (by decide) (Text.oneLine_intercalate
        (show '\n' ∉ ", ".toList by decide) ((lowersExprs_of_run _ hvalues).oneLine h hsub.2))
      exact .statement (hlist.append (by decide) (by decide))
  | leaveLabel label _ =>
      exact .statement ((show Opens "break " by decide).append (oneLine_variableName label)).returnsNot
  | leave _ =>
      cases chain with
      | none => exact .statement (returnsNot_of_not (by decide) (by decide))
      | some k =>
          exact .statement ((show Opens "break " by decide).append (oneLine_numbered (by decide) k)).returnsNot
  | againLabel label _ =>
      exact .statement ((show Opens ("continue" ++ " ") by decide).append
        (oneLine_variableName label)).returnsNot
  | again _ => exact .statement (returnsNot_of_not (by decide) (by decide))
  | throw hvalue =>
      exact .statement ((show Opens "throw " by decide).append (hshows hvalue hsub).1.1).returnsNot
  | rethrow _ => exact .statement (Opens.returnsNot (by decide))

mutual

/-- The lines of a statement return what the returns in it do. -/
theorem LowersStmt.returns (hnative : job.config.nativeSwitch = native)
    (h : job.program.OwnersOpenLines loose) {chain : Option Nat} {s : Stmt} {p q : Nat × State}
    {d : Doc} (hlowers : LowersStmt job ctx chain s p d q)
    (hsub : ∀ e ∈ s.expressions, e.OpensLine loose) :
    DocReturns loose job ctx (returnsIn (s.lowered native)) d := by
  cases hlowers with
  | position _ _ _ _ =>
      split
      · exact .mark _
      · exact .empty
  | nop _ _ => exact .empty
  | line hline hrun => exact (lineForm_of_run hline hrun).returns h hsub
  | block hbody => exact hbody.returns hnative h hsub
  | when hcond hyes =>
      simp only [Stmt.expressions, List.forall_mem_append] at hsub
      have hhead := ((show Opens "if (" by decide).append (oneLine_of_run h hcond hsub.1)).append
        (show '\n' ∉ ")".toList by decide)
      exact .block hhead.returnsNot (hyes.returns hnative h hsub.2) (by decide)
  | choose hcond hyes hno =>
      simp only [Stmt.expressions, List.forall_mem_append] at hsub
      have hhead := ((show Opens "if (" by decide).append (oneLine_of_run h hcond hsub.1.1)).append
        (show '\n' ∉ ")".toList by decide)
      rw [Stmt.lowered, returnsIn_cons rfl, returnsIn_append]
      exact .seq (.block hhead.returnsNot (hyes.returns hnative h hsub.1.2) (by decide))
        (.block (returnsNot_of_not (by decide) (by decide)) (hno.returns hnative h hsub.2) (by decide))
  | @loop _ label _ _ _ _ _ _ c _ hcond hbody =>
      simp only [Stmt.expressions, List.forall_mem_append] at hsub
      have hhead : Opens ("while (" ++ c ++ ")") :=
        ((show Opens "while (" by decide).append (oneLine_of_run h hcond hsub.1)).append (by decide)
      refine .block ?_ (hbody.returns hnative h hsub.2) (by decide)
      cases label with
      | none => exact hhead.returnsNot
      | some label =>
          exact (returnsNot_variableName label).1.separated _ (by decide) (by decide) hhead.1
  | switch hswitch hsubject hcases hotherwise =>
      simp only [Stmt.expressions, List.forall_mem_append] at hsub
      have hhead := ((show Opens "switch (" by decide).append
        (oneLine_of_run h hsubject hsub.1.1)).append (show '\n' ∉ ")".toList by decide)
      have hdefault : DocReturns loose job ctx [] (.line "default:") :=
        .line (returnsNot_of_not (by decide) (by decide))
      have hparts := ((hcases.returns hnative hswitch h hsub.1.2).seq hdefault).seq
        ((hotherwise.returns hnative h hsub.2).seq .break).indented
      rw [List.append_nil, List.append_nil] at hparts
      rw [Stmt.lowered, returnsIn_cons rfl, returnsIn_append]
      exact .block hhead.returnsNot hparts (by decide)
  | @chain _ _ cases _ n _ _ _ _ _ _ _ hswitch hsubject hcases hotherwise =>
      simp only [Stmt.expressions, List.forall_mem_append] at hsub
      have hlast := (hotherwise.returns hnative h hsub.2).last (cases.all (·.values.isEmpty))
      have hname : '\n' ∉ (switchSubject n).toList := oneLine_numbered (by decide) n
      have hdeclared : DocReturns loose job ctx []
          (statement ("var " ++ switchSubject n ++ " = " ++ _)) :=
        .statement ((((show Opens "var " by decide).append hname).append (by decide)).append
          (oneLine_of_run h hsubject hsub.1.1)).returnsNot
      have hlabel : ReturnsNot loose (switchLabel n ++ ":") :=
        (returnsNot_switchLabel n).append (by decide) (by decide)
      rw [Stmt.lowered, returnsIn_cons rfl, returnsIn_append]
      exact .block hlabel ((hdeclared.seq (hcases.returns hnative hswitch h hsub.1.2)).seq hlast)
        (by decide)
  | tryCatch hbody hhandler =>
      simp only [Stmt.expressions, List.forall_mem_append] at hsub
      have hstart : DocReturns loose job ctx [] (statement (exceptionSlot ++ " = J__i__exception__")) :=
        .statement (returnsNot_of_not (by decide) (by decide))
      rw [Stmt.lowered, returnsIn_cons rfl, returnsIn_append]
      exact .seq
        (.block (returnsNot_of_not (by decide) (by decide)) (hbody.returns hnative h hsub.1) (by decide))
        (.block (returnsNot_of_not (by decide) (by decide))
          (hstart.seq (hhandler.returns hnative h hsub.2)) (by decide))

theorem LowersStmts.returns (hnative : job.config.nativeSwitch = native)
    (h : job.program.OwnersOpenLines loose) {chain : Option Nat} {body : List Stmt}
    {p q : Nat × State} {d : Doc} (hlowers : LowersStmts job ctx chain body p d q)
    (hsub : ∀ e ∈ expressionsOfAll body, e.OpensLine loose) :
    DocReturns loose job ctx (returnsIn (loweredInAll native body)) d := by
  cases hlowers with
  | nil _ _ => exact .empty
  | cons hfirst hrest =>
      rw [expressionsOfAll, List.forall_mem_append] at hsub
      rw [loweredInAll, returnsIn_append]
      exact .seq (hfirst.returns hnative h hsub.1) (hrest.returns hnative h hsub.2)

theorem LowersArms.returns (hnative : job.config.nativeSwitch = native)
    (hswitch : job.config.nativeSwitch = true) (h : job.program.OwnersOpenLines loose)
    {cases : List SwitchCase} {p q : Nat × State} {d : Doc} (hlowers : LowersArms job ctx cases p d q)
    (hsub : ∀ e ∈ expressionsOfCases cases, e.OpensLine loose) :
    DocReturns loose job ctx (returnsIn (loweredInCases native cases)) d := by
  cases hlowers with
  | nil _ => exact .empty
  | @cons values _ _ _ _ _ _ _ hbody hrest =>
      rw [expressionsOfCases, List.forall_mem_append] at hsub
      have hinside := hbody.returns hnative h hsub.1
      have hothers := hrest.returns hnative hswitch h hsub.2
      have hparts := ((DocReturns.caseLabels values).seq (hinside.seq .break).indented).seq hothers
      rw [List.append_nil, List.nil_append] at hparts
      rw [loweredInCases, returnsIn_append, ← hnative, hswitch, Bool.true_or, if_pos rfl]
      rwa [← hnative, hswitch] at hparts

theorem LowersLinks.returns (hnative : job.config.nativeSwitch = native)
    (hswitch : job.config.nativeSwitch = false) (h : job.program.OwnersOpenLines loose) {n : Nat}
    {first : Bool} {cases : List SwitchCase} {p q : Nat × State} {d : Doc}
    (hlowers : LowersLinks job ctx n first cases p d q)
    (hsub : ∀ e ∈ expressionsOfCases cases, e.OpensLine loose) :
    DocReturns loose job ctx (returnsIn (loweredInCases native cases)) d := by
  cases hlowers with
  | nil _ _ _ => exact .empty
  | skip hrest =>
      rw [expressionsOfCases, List.forall_mem_append] at hsub
      have hothers := hrest.returns hnative hswitch h hsub.2
      rw [loweredInCases, returnsIn_append, ← hnative, hswitch, Bool.false_or]
      rwa [← hnative, hswitch] at hothers
  | @cons _ first values _ _ _ _ _ _ _ hvalues hbody hrest =>
      rw [expressionsOfCases, List.forall_mem_append] at hsub
      have hinside := hbody.returns hnative h hsub.1
      have hothers := hrest.returns hnative hswitch h hsub.2
      have hcond : '\n' ∉ (caseCondition (switchSubject n) values).toList :=
        oneLine_caseCondition (oneLine_numbered (by decide) n) values
      rw [← hnative, hswitch] at hinside hothers
      rw [loweredInCases, returnsIn_append, ← hnative, hswitch, Bool.false_or,
        if_pos (by simpa using hvalues)]
      refine .seq (.block ?_ hinside (by decide)) hothers
      cases first with
      | true =>
          exact (((show Opens ("if" ++ " (") by decide).append hcond).append (by decide)).returnsNot
      | false =>
          exact (((show Opens ("else if" ++ " (") by decide).append hcond).append
            (by decide)).returnsNot

end

end Statements

end ClassScript.Emission
