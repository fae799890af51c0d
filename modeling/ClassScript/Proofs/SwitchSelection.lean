import ClassScript.Proofs.ControlText
import ClassScript.Proofs.StatementRuns
import Mathlib.Data.List.Forall2

/-!
The text of a switch statement and that of its chain, taken apart: which parts
they have, and which of them is done for a value of the subject. In both it is
the arm that lists the value first, and the default if none does.
-/

namespace ClassScript.Emission

open Output Reading Integers

/-- Some run of the step gives the value. -/
def Gives {α : Type} (x : Lower α) (a : α) : Prop :=
  ∃ n s m t, (x.run n).run s = (.ok (a, m), t)

theorem LowersStmt.gives {job : Job} {ctx : Context} {chain : Option Nat} {s : Stmt}
    {p q : Nat × State} {d : Doc} (h : LowersStmt job ctx chain s p d q) :
    Gives (lowerStmt job ctx chain s) d :=
  ⟨p.1, p.2, q.1, q.2, h.run⟩

/-- A document that some run gives follows the rule of its statement. -/
theorem Gives.lowers {job : Job} {ctx : Context} {chain : Option Nat} {s : Stmt} {d : Doc}
    (h : Gives (lowerStmt job ctx chain s) d) : ∃ p q, LowersStmt job ctx chain s p d q :=
  let ⟨n, u, m, v, hrun⟩ := h
  ⟨(n, u), (m, v), lowersStmt_of_run s hrun⟩

/-- The arms of a switch statement, each with its values and its document. -/
abbrev Arms := List (List Int32 × Doc)

/-- The documents of arms under their labels. -/
def armsDoc : Arms → Doc
  | [] => .empty
  | (values, doc) :: rest =>
      caseLabels values ++ .indented (doc ++ statement "break") ++ armsDoc rest

/-- The documents of arms as the links of a chain. -/
def linksDoc (name : String) : Bool → Arms → Doc
  | _, [] => .empty
  | first, (values, doc) :: rest =>
      .block ((if first then "if" else "else if") ++ " (" ++ caseCondition name values ++ ")") doc "" ++
        linksDoc name false rest

/-- The arms come from the cases, in order and with the values of each. -/
def ComesFrom (job : Job) (ctx : Context) (chain : Option Nat) : List SwitchCase → Arms → Prop :=
  List.Forall₂ fun c arm => arm.1 = c.values ∧ Gives (lowerStmt job ctx chain c.body) arm.2

section Documents

variable {job : Job} {ctx : Context} {d : Doc}

/-- The arms are those of the cases. -/
theorem LowersArms.exists_arms {cases : List SwitchCase} {p q : Nat × State}
    (h : LowersArms job ctx cases p d q) : ∃ arms, ComesFrom job ctx none cases arms ∧ d = armsDoc arms := by
  induction cases generalizing p d with
  | nil =>
      cases h
      exact ⟨[], .nil, rfl⟩
  | cons c rest ih =>
      obtain ⟨values, body⟩ := c
      cases h with
      | @cons _ _ _ _ _ _ doc _ hbody hrest =>
          obtain ⟨arms, harms, rfl⟩ := ih hrest
          exact ⟨(values, doc) :: arms, .cons ⟨rfl, hbody.gives⟩ harms, rfl⟩

/-- The links are those of the cases that have values. -/
theorem LowersLinks.exists_selected {n : Nat} {first : Bool} {cases : List SwitchCase}
    {p q : Nat × State} (h : LowersLinks job ctx n first cases p d q) :
    ∃ arms, ComesFrom job ctx (some n) (cases.filter (!·.values.isEmpty)) arms ∧
      d = linksDoc (switchSubject n) first arms := by
  induction cases generalizing p d first with
  | nil =>
      cases h
      exact ⟨[], .nil, rfl⟩
  | cons c rest ih =>
      cases h with
      | skip hrest =>
          rw [List.filter_cons_of_neg (by simp [SwitchCase.values])]
          exact ih hrest
      | @cons _ _ values body _ _ _ _ doc _ hvalues hbody hrest =>
          obtain ⟨arms, harms, rfl⟩ := ih hrest
          rw [List.filter_cons_of_pos (by simpa [SwitchCase.values] using hvalues)]
          exact ⟨(values, doc) :: arms, .cons ⟨rfl, hbody.gives⟩ harms, rfl⟩

theorem LowersLinks.exists_links {n : Nat} {first : Bool} {cases : List SwitchCase}
    {p q : Nat × State} (hvalues : ∀ c ∈ cases, c.values ≠ [])
    (h : LowersLinks job ctx n first cases p d q) :
    ∃ arms, ComesFrom job ctx (some n) cases arms ∧ d = linksDoc (switchSubject n) first arms := by
  have hall : cases.filter (!·.values.isEmpty) = cases :=
    List.filter_eq_self.2 fun c hc => by simpa using hvalues c hc
  exact hall ▸ h.exists_selected

/-- The statement that a value of the subject selects. -/
def armOf (cases : List SwitchCase) (otherwise : Stmt) (w : Int32) : Stmt :=
  ((cases.find? (w ∈ ·.values)).map SwitchCase.body).getD otherwise

/-- Its document. -/
def armDoc (arms : Arms) (last : Doc) (w : Int32) : Doc :=
  ((arms.find? (w ∈ ·.1)).map Prod.snd).getD last

theorem ComesFrom.armDoc {chain : Option Nat} {cases : List SwitchCase} {arms : Arms}
    (h : ComesFrom job ctx chain cases arms) {otherwise : Stmt} {last : Doc}
    (hlast : Gives (lowerStmt job ctx chain otherwise) last) (w : Int32) :
    Gives (lowerStmt job ctx chain (armOf cases otherwise w)) (armDoc arms last w) := by
  induction h with
  | nil => exact hlast
  | @cons c arm rest others hfirst _ ih =>
      obtain ⟨values, doc⟩ := arm
      obtain ⟨rfl, hdoc⟩ := hfirst
      by_cases hw : w ∈ c.values
      · simpa [armOf, Emission.armDoc, hw] using hdoc
      · simpa [armOf, Emission.armDoc, hw] using ih

theorem ComesFrom.values {chain : Option Nat} {cases : List SwitchCase} {arms : Arms}
    (h : ComesFrom job ctx chain cases arms) (hvalues : ∀ c ∈ cases, c.values ≠ []) :
    ∀ arm ∈ arms, arm.1 ≠ [] := by
  induction h with
  | nil => simp
  | @cons c arm rest others hfirst _ ih =>
      intro other hother
      rcases List.mem_cons.1 hother with rfl | hmem
      · exact hfirst.1 ▸ hvalues c List.mem_cons_self
      · exact ih (fun c hc => hvalues c (List.mem_cons_of_mem _ hc)) other hmem

end Documents

section Forms

variable {job : Job} {ctx : Context} {chain : Option Nat} {cases : List SwitchCase}
  {otherwise : Stmt} {d : Doc}

mutual

/-- A statement of nothing but empty blocks has no lines. -/
theorem linesAt_of_isEmpty : ∀ {chain : Option Nat} {s : Stmt} {p q : Nat × State} {d : Doc},
    LowersStmt job ctx chain s p d q → s.isEmpty = true → ∀ level, d.linesAt level = []
  | _, _, _, _, _, .nop _ _, _, level => by simp [Doc.linesAt_eq, Doc.entriesAt]
  | _, _, _, _, _, .block hbody, hempty, level => linesAt_of_allEmpty hbody hempty level
  | _, _, _, _, _, .line hline _, hempty, _ => by
      rw [isEmpty_of_lineText? hline] at hempty
      cases hempty
  | _, _, _, _, _, .position _ _ _ _, hempty, _ | _, _, _, _, _, .when _ _, hempty, _
  | _, _, _, _, _, .choose _ _ _, hempty, _ | _, _, _, _, _, .loop _ _, hempty, _
  | _, _, _, _, _, .switch _ _ _ _, hempty, _ | _, _, _, _, _, .chain _ _ _ _, hempty, _
  | _, _, _, _, _, .tryCatch _ _, hempty, _ => by simp [Stmt.isEmpty] at hempty

theorem linesAt_of_allEmpty : ∀ {chain : Option Nat} {body : List Stmt} {p q : Nat × State} {d : Doc},
    LowersStmts job ctx chain body p d q → Stmt.allEmpty body = true → ∀ level, d.linesAt level = []
  | _, _, _, _, _, .nil _ _, _, level => by simp [Doc.linesAt_eq, Doc.entriesAt]
  | _, _, _, _, _, .cons hfirst hrest, hempty, level => by
      rw [Stmt.allEmpty, Bool.and_eq_true] at hempty
      rw [Doc.linesAt_append, linesAt_of_isEmpty hfirst hempty.1, linesAt_of_allEmpty hrest hempty.2,
        List.append_nil]

end

end Forms

/-- The labels of an arm; what the arm does stands under the last one. -/
def armLabels (body : Lines) : List Int32 → List Part
  | [] => []
  | [v] => [⟨"case " ++ Text.integer v.toInt ++ ":", body⟩]
  | v :: rest => ⟨"case " ++ Text.integer v.toInt ++ ":", []⟩ :: armLabels body rest

/-- The labels of all arms and the default. -/
def switchLabels (last : Lines) : List (List Int32 × Lines) → List Part
  | [] => [⟨"default:", last⟩]
  | (values, body) :: rest => armLabels body values ++ switchLabels last rest

/-- The links of a chain for the arms; the last one may be missing. -/
def chainLinks (name : String) (last : List Part) : Bool → List (List Int32 × Lines) → List Part
  | _, [] => last
  | first, (values, body) :: rest =>
      ⟨(if first then "if" else "else if") ++ " (" ++ caseCondition name values ++ ")", body⟩ ::
        chainLinks name last false rest

/-- The lines that a value selects. -/
def armLines (arms : List (List Int32 × Lines)) (last : Lines) (w : Int32) : Lines :=
  ((arms.find? (w ∈ ·.1)).map Prod.snd).getD last

section Selection

variable {runtime : Runtime} {scope : Scope} {w : Int32}

theorem strictlyEqual_int (v : Int32) :
    (Datum.int w).value.strictlyEqual (Datum.int v).value = decide (w = v) := by
  simp [Value.strictlyEqual, Datum.value, Value.integer, Int32.toInt_inj]

theorem entered_armLabels {body : Lines} (hbody : Breaks body) {values : List Int32}
    (hvalues : values ≠ []) (rest : List Part) : entered (armLabels body values ++ rest) = body := by
  fun_induction armLabels body values with
  | case1 => exact absurd rfl hvalues
  | case2 v => exact entered_breaks hbody rest
  | case3 v values hmore ih =>
      rw [List.cons_append, entered_empty]
      exact ih hmore

/-- Labels of an arm that does not list the value are passed over. -/
theorem switchTakes_passed {body taken : Lines} {values : List Int32} (hw : w ∉ values)
    {rest : List Part} (h : SwitchTakes runtime scope (Datum.int w).value rest taken) :
    SwitchTakes runtime scope (Datum.int w).value (armLabels body values ++ rest) taken := by
  fun_induction armLabels body values with
  | case1 => exact h
  | case2 v =>
      have hother : (Datum.int w).value.strictlyEqual (Datum.int v).value = false := by
        rw [strictlyEqual_int]
        simpa using hw
      exact .miss (readsLabel_case v.toInt) (eval_integer v) hother h
  | case3 v values hmore ih =>
      rw [List.mem_cons, not_or] at hw
      have hother : (Datum.int w).value.strictlyEqual (Datum.int v).value = false := by
        rw [strictlyEqual_int]
        simpa using hw.1
      exact .miss (readsLabel_case v.toInt) (eval_integer v) hother (ih hw.2)

/-- An arm that lists the value is taken. -/
theorem switchTakes_listed {body : Lines} (hbody : Breaks body) {values : List Int32}
    (hw : w ∈ values) (rest : List Part) :
    SwitchTakes runtime scope (Datum.int w).value (armLabels body values ++ rest) body := by
  have hequal : (Datum.int w).value.strictlyEqual (Datum.int w).value = true := by
    rw [strictlyEqual_int, decide_eq_true_eq]
  fun_induction armLabels body values with
  | case1 => simp at hw
  | case2 v =>
      obtain rfl : w = v := by simpa using hw
      have hentered := entered_armLabels hbody (List.cons_ne_nil w []) rest
      exact .hitEntered (readsLabel_case w.toInt) (eval_integer w) hequal hentered
  | case3 v values hmore ih =>
      by_cases hv : w = v
      · subst hv
        have hentered := entered_armLabels hbody hmore rest
        rw [List.cons_append]
        refine .hitEntered (readsLabel_case w.toInt) (eval_integer w) hequal ?_
        rw [entered_empty, hentered]
      · have hrest : w ∈ values := by simpa [hv] using hw
        have hother : (Datum.int w).value.strictlyEqual (Datum.int v).value = false := by
          rw [strictlyEqual_int]
          simpa using hv
        exact .miss (readsLabel_case v.toInt) (eval_integer v) hother (ih hrest)

/-- A switch statement takes the first arm that lists the value. -/
theorem switchTakes_arm {last : Lines} {arms : List (List Int32 × Lines)}
    (hbodies : ∀ arm ∈ arms, Breaks arm.2) :
    SwitchTakes runtime scope (Datum.int w).value (switchLabels last arms) (armLines arms last w) := by
  induction arms with
  | nil => exact .default readsLabel_default
  | cons arm rest ih =>
      obtain ⟨values, body⟩ := arm
      by_cases hw : w ∈ values
      · have hbody : Breaks body := hbodies (values, body) List.mem_cons_self
        have htaken : SwitchTakes runtime scope (Datum.int w).value
            (switchLabels last ((values, body) :: rest)) body :=
          switchTakes_listed hbody hw (switchLabels last rest)
        simpa [armLines, hw] using htaken
      · have htaken := ih fun arm harm => hbodies arm (List.mem_cons_of_mem _ harm)
        simpa [armLines, switchLabels, hw] using switchTakes_passed hw htaken

/-- A chain takes the first arm that lists the value of its variable. -/
theorem chainTakes_arm {name : String} (hname : Operand name (.reference name))
    (hvalue : scope.lookup name = some (Datum.int w).value) {last : List Part} {taken : Lines}
    (hlast : ChainTakes runtime scope false last taken) {arms : List (List Int32 × Lines)}
    (hvalues : ∀ arm ∈ arms, arm.1 ≠ []) {first : Bool} (hfirst : first = true → arms ≠ []) :
    ChainTakes runtime scope first (chainLinks name last first arms) (armLines arms taken w) := by
  induction arms generalizing first with
  | nil =>
      cases first with
      | true => exact absurd rfl (hfirst rfl)
      | false => exact hlast
  | cons arm rest ih =>
      obtain ⟨values, body⟩ := arm
      obtain ⟨v, more, rfl⟩ := List.exists_cons_of_ne_nil (hvalues (values, body) List.mem_cons_self)
      have hlink := ((stands_caseCondition hname v more).loosen (Nat.zero_le 1)).link first
      have hcond : eval runtime scope (comparisons name v more) =
          some (.boolean (w ∈ v :: more)) := eval_comparisons hvalue v more
      by_cases hw : w ∈ v :: more
      · have htaken : ChainTakes runtime scope first
            (chainLinks name last first ((v :: more, body) :: rest)) body :=
          .taken hlink hcond (by simpa [Value.truthy] using hw)
        rw [armLines, List.find?_cons_of_pos (by simpa using hw)]
        exact htaken
      · have hrest : ChainTakes runtime scope false (chainLinks name last false rest)
            (armLines rest taken w) :=
          ih (fun arm harm => hvalues arm (List.mem_cons_of_mem _ harm)) (fun h => by cases h)
        rw [armLines, List.find?_cons_of_neg (by simpa using hw)]
        exact .passed hlink hcond (by simpa [Value.truthy] using hw) hrest

end Selection

/-- The lines of labels at a level, each before what stands under it. -/
def labelLines (level : Nat) (labels : List Part) : Lines :=
  labels.flatMap fun p => (level, p.head) :: p.body

/-- The lines of links at a level, each with its braces. -/
def linkLines (level : Nat) (links : List Part) : Lines :=
  links.flatMap fun p => (level, p.head ++ " \x7b") :: p.body ++ [(level, "\x7d")]

theorem labelLines_append (level : Nat) (labels more : List Part) :
    labelLines level (labels ++ more) = labelLines level labels ++ labelLines level more :=
  List.flatMap_append

/-- What stands under parts is deeper than a level. -/
def Under (level : Nat) (parts : List Part) : Prop :=
  ∀ p ∈ parts, ∀ line ∈ p.body, level < line.1

section Layout

variable {level : Nat}

theorem oneLine_caseCondition {name : String} (hname : '\n' ∉ name.toList) (values : List Int32) :
    '\n' ∉ (caseCondition name values).toList := by
  have hone : ∀ v : Int32, '\n' ∉ (name ++ " == " ++ Text.integer v.toInt).toList := fun v =>
    Text.oneLine_append (Text.oneLine_append hname (by decide)) (Text.oneLine_integer _)
  unfold caseCondition
  exact Text.oneLine_intercalate (by decide) (List.forall_mem_map.2 fun v _ => hone v)

theorem linesAt_caseLabels (values : List Int32) : (caseLabels values).linesAt level =
    values.map fun v => (level, "case " ++ Text.integer v.toInt ++ ":") := by
  have hlines : ∀ line ∈ values.map fun v => "case " ++ Text.integer v.toInt ++ ":",
      '\n' ∉ line.toList := by
    intro line hline
    obtain ⟨v, -, rfl⟩ := List.mem_map.1 hline
    exact Text.oneLine_append (Text.oneLine_append (by decide) (Text.oneLine_integer _)) (by decide)
  rw [caseLabels, Doc.linesAt_lines level hlines, List.map_map]
  rfl

theorem labelLines_arm {body : Lines} {values : List Int32} (hvalues : values ≠ []) :
    labelLines level (armLabels body values) =
      (values.map fun v => (level, "case " ++ Text.integer v.toInt ++ ":")) ++ body := by
  fun_induction armLabels body values with
  | case1 => exact absurd rfl hvalues
  | case2 v => simp [labelLines]
  | case3 v values hmore ih =>
      have hrest := ih hmore
      rw [labelLines] at hrest ⊢
      rw [List.flatMap_cons, hrest]
      rfl

theorem linesAt_break : (statement "break").linesAt level = [(level, "break;")] :=
  Doc.textLines_single level (by decide)

end Layout

end ClassScript.Emission
