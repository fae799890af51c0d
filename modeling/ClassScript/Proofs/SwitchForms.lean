import ClassScript.Proofs.SwitchEmission
import ClassScript.Proofs.SwitchSelection

/-!
The two forms of switch statements compared. Emission ends alike with either,
and the texts of a switch statement select the same arm for every value of its
subject.
-/

namespace ClassScript.Emission

open Output Reading Integers

/-- Each arm with the lines that its document has. -/
def Arms.lines (f : Doc → Lines) (arms : Arms) : List (List Int32 × Lines) :=
  arms.map fun arm => (arm.1, f arm.2)

theorem Arms.lines_values {f : Doc → Lines} {arms : Arms} (h : ∀ arm ∈ arms, arm.1 ≠ []) :
    ∀ arm ∈ arms.lines f, arm.1 ≠ [] := by
  intro arm harm
  obtain ⟨source, hmem, rfl⟩ := List.mem_map.1 harm
  exact h source hmem

theorem Arms.lines_deep {f : Doc → Lines} {arms : Arms} {level : Nat}
    (h : ∀ doc, ∀ line ∈ f doc, level < line.1) : ∀ arm ∈ arms.lines f, ∀ line ∈ arm.2, level < line.1 := by
  intro arm harm
  obtain ⟨source, _, rfl⟩ := List.mem_map.1 harm
  exact h source.2

theorem armLines_lines (f : Doc → Lines) (arms : Arms) (last : Doc) (w : Int32) :
    armLines (arms.lines f) (f last) w = f (armDoc arms last w) := by
  induction arms with
  | nil => rfl
  | cons arm rest ih =>
      by_cases hw : w ∈ arm.1
      · simp [armLines, armDoc, Arms.lines, hw]
      · simpa [armLines, armDoc, Arms.lines, hw] using ih

/-- The lines of a document with the break that closes an arm. -/
def brokenAt (level : Nat) (d : Doc) : Lines :=
  d.linesAt level ++ [(level, "break;")]

section Texts

variable {level : Nat}

/-- The labels of an arm and what it does under them; an arm without values has no label. -/
def armAt (level : Nat) (values : List Int32) (body : Doc) : Lines :=
  (values.map fun v => (level, "case " ++ Text.integer v.toInt ++ ":")) ++ brokenAt (level + 1) body

/-- The label of the default and what it does. -/
def defaultAt (level : Nat) (body : Doc) : Lines :=
  (level, "default:") :: brokenAt (level + 1) body

/-- The arms of a switch statement stand one after the other, the default at the end. -/
theorem linesAt_armsDoc (arms : Arms) (last : Doc) :
    (armsDoc arms ++ .line "default:" ++ .indented (last ++ statement "break")).linesAt level =
      (arms.flatMap fun arm => armAt level arm.1 arm.2) ++ defaultAt level last := by
  have hclosed : ∀ doc : Doc, (Doc.indented (doc ++ statement "break")).linesAt level =
      brokenAt (level + 1) doc := by
    intro doc
    rw [Doc.linesAt_indented, Doc.linesAt_append, linesAt_break]
    rfl
  have hdefault : (Doc.line "default:").linesAt level = [(level, "default:")] :=
    Doc.textLines_single level (by decide)
  have harms : (armsDoc arms).linesAt level = arms.flatMap fun arm => armAt level arm.1 arm.2 := by
    induction arms with
    | nil => rfl
    | cons arm rest ih =>
        rw [armsDoc, Doc.linesAt_append, Doc.linesAt_append, linesAt_caseLabels, hclosed, ih]
        rfl
  rw [Doc.linesAt_append, Doc.linesAt_append, harms, hclosed, hdefault, List.append_assoc]
  rfl

/-- Where every arm has a value, the lines are those of the labels. -/
theorem labelLines_switch {arms : Arms} (hvalues : ∀ arm ∈ arms, arm.1 ≠ []) (last : Doc) :
    (arms.flatMap fun arm => armAt level arm.1 arm.2) ++ defaultAt level last =
      labelLines level (switchLabels (brokenAt (level + 1) last)
        (arms.lines (brokenAt (level + 1)))) := by
  induction arms with
  | nil => simp [defaultAt, labelLines, Arms.lines, switchLabels]
  | cons arm rest ih =>
      have hrest := ih fun arm harm => hvalues arm (List.mem_cons_of_mem _ harm)
      have hsome : arm.1 ≠ [] := hvalues arm List.mem_cons_self
      rw [List.flatMap_cons, List.append_assoc, hrest, armAt, ← labelLines_arm hsome,
        ← labelLines_append]
      rfl

/-- The links of a chain, and after them what stands behind the chain. -/
theorem linesAt_linksDoc {name : String} (hname : '\n' ∉ name.toList) (first : Bool) (arms : Arms)
    (last : List Part) :
    (linksDoc name first arms).linesAt level ++ linkLines level last =
      linkLines level (chainLinks name last first (arms.lines (Doc.linesAt (level + 1)))) := by
  induction arms generalizing first with
  | nil => rfl
  | cons arm rest ih =>
      obtain ⟨values, doc⟩ := arm
      have hkeyword : '\n' ∉ (if first then "if" else "else if").toList := by
        cases first <;> decide
      have hhead : '\n' ∉ ((if first then "if" else "else if") ++ " (" ++ caseCondition name values ++
          ")" ++ " \x7b").toList :=
        Text.oneLine_append (Text.oneLine_append (Text.oneLine_append (Text.oneLine_append hkeyword (by decide))
          (oneLine_caseCondition hname values)) (by decide)) (by decide)
      have hclose : Doc.textLines level ("\x7d" ++ "") = [(level, "\x7d")] :=
        Doc.textLines_single level (by decide)
      rw [linksDoc, Doc.linesAt_append, List.append_assoc, ih, Doc.linesAt_block,
        Doc.textLines_single level hhead, hclose]
      rfl

end Texts

section Forms

variable {job : Job} {ctx : Context} {outer : Option Nat} {subject : Expr} {cases : List SwitchCase}
  {otherwise : Stmt} {n m : Nat} {s t : State} {d : Doc}

/-- The parts of a switch statement as such. -/
theorem nativeForm (hnative : job.config.nativeSwitch = true)
    (h : ((lowerStmt job ctx outer (.switch subject cases otherwise)).run n).run s = (.ok (d, m), t)) :
    ∃ text arms last, ((lowerExpr job ctx.caller subject).run s).1 = .ok text ∧
      ComesFrom job ctx none cases arms ∧ Gives (lowerStmt job ctx none otherwise) last ∧
      d = .block ("switch (" ++ text ++ ")")
        (armsDoc arms ++ .line "default:" ++ .indented (last ++ statement "break")) "" := by
  cases lowersStmt_of_run _ h with
  | line hline _ => cases hline
  | chain hchains => cases hnative.symm.trans hchains
  | @switch _ _ _ _ _ _ _ _ _ text _ last _ hsubject hcases hotherwise =>
      obtain ⟨arms, hfrom, rfl⟩ := hcases.exists_arms
      exact ⟨text, arms, last, congrArg Prod.fst hsubject, hfrom, hotherwise.gives, rfl⟩

/-- The parts of a chain; a default of nothing has no link of its own. -/
theorem chainForm (hchains : job.config.nativeSwitch = false) (hvalues : ∀ c ∈ cases, c.values ≠ [])
    (h : ((lowerStmt job ctx outer (.switch subject cases otherwise)).run n).run s = (.ok (d, m), t)) :
    ∃ text k arms last, ((lowerExpr job ctx.caller subject).run s).1 = .ok text ∧
      ComesFrom job ctx (some k) cases arms ∧ Gives (lowerStmt job ctx (some k) otherwise) last ∧
      d = .block (switchLabel k ++ ":")
        (statement ("var " ++ switchSubject k ++ " = " ++ text) ++
          linksDoc (switchSubject k) true arms ++
          if cases.isEmpty then last else if otherwise.isEmpty then .empty
          else .block "else" last "") "" := by
  have hall : cases.all (·.values.isEmpty) = cases.isEmpty := by
    cases cases with
    | nil => rfl
    | cons c rest =>
        have hsome : c.values.isEmpty = false := by simpa using hvalues c List.mem_cons_self
        simp [hsome]
  cases lowersStmt_of_run _ h with
  | line hline _ => cases hline
  | switch hnative => cases hchains.symm.trans hnative
  | @chain _ _ _ _ _ _ _ _ _ text _ last _ hsubject hcases hotherwise =>
      obtain ⟨arms, hfrom, rfl⟩ := hcases.exists_links hvalues
      refine ⟨text, n, arms, last, congrArg Prod.fst hsubject, hfrom, hotherwise.gives, ?_⟩
      rw [hall]
      rfl

end Forms

/-- The lines of a switch statement over a subject. -/
def switchLines (level : Nat) (subject : String) (labels : List Part) : Lines :=
  Doc.textLines level ("switch (" ++ subject ++ ")" ++ " \x7b") ++ labelLines (level + 1) labels ++
    [(level, "\x7d")]

/-- The lines of a labelled block that keeps the subject in a variable, with a
chain of conditions and what stands behind the chain. -/
def chainLines (level number : Nat) (subject : String) (links : List Part) (behind : Lines) : Lines :=
  Doc.textLines level (switchLabel number ++ ":" ++ " \x7b") ++
    Doc.textLines (level + 1) ("var " ++ switchSubject number ++ " = " ++ subject ++ ";") ++
    linkLines (level + 1) links ++ behind ++ [(level, "\x7d")]

section Depth

variable {level : Nat} {arms : List (List Int32 × Lines)}

theorem under_switchLabels (harms : ∀ arm ∈ arms, ∀ line ∈ arm.2, level < line.1) {last : Lines}
    (hlast : ∀ line ∈ last, level < line.1) : Under level (switchLabels last arms) := by
  have harm : ∀ {body : Lines} (values : List Int32), (∀ line ∈ body, level < line.1) →
      Under level (armLabels body values) := by
    intro body values hbody
    fun_induction armLabels body values with
    | case1 => simp [Under]
    | case2 v => simpa [Under] using hbody
    | case3 v values hmore ih => simpa [Under] using ih
  induction arms with
  | nil => simpa [Under, switchLabels] using hlast
  | cons arm rest ih =>
      intro p hp
      rcases List.mem_append.1 hp with hfirst | hrest
      · exact harm arm.1 (harms arm List.mem_cons_self) p hfirst
      · exact ih (fun arm harm => harms arm (List.mem_cons_of_mem _ harm)) p hrest

theorem under_chainLinks {name : String} {last : List Part} {first : Bool}
    (harms : ∀ arm ∈ arms, ∀ line ∈ arm.2, level < line.1) (hlast : Under level last) :
    Under level (chainLinks name last first arms) := by
  induction arms generalizing first with
  | nil => exact hlast
  | cons arm rest ih =>
      intro p hp
      rcases List.mem_cons.1 hp with rfl | hrest
      · exact harms arm List.mem_cons_self
      · exact ih (fun arm harm => harms arm (List.mem_cons_of_mem _ harm)) p hrest

theorem lt_of_mem_brokenAt {d : Doc} {line : Nat × String} (h : line ∈ brokenAt (level + 1) d) :
    level < line.1 := by
  rcases List.mem_append.1 h with hdoc | hbreak
  · exact Doc.le_of_mem_linesAt hdoc
  · obtain rfl := List.mem_singleton.1 hbreak
    exact Nat.lt_succ_self level

end Depth

theorem isIdentifier_switchSubject (k : Nat) : IsIdentifier (switchSubject k) := by
  have hhead : (switchSubject k).toList.head? = some 'J' := by simp [switchSubject]
  have hkeyword : switchSubject k ∉ Script.keywords :=
    (Script.not_mem_of_isReserved (Script.isReserved_of_head hhead)).2
  refine ⟨isWord_iff.2 ⟨'J', "__switchv".toList ++ (Text.natural k).toList ++ "__".toList,
    by simp [switchSubject], by decide, ?_⟩, notMem_reservedWords hkeyword⟩
  have hdigits : ∀ c ∈ (Text.natural k).toList, isIdentifierPart c = true := fun c hc =>
    isIdentifierPart_of_isDigit
      (Text.isDigit_of_mem_toDigits (by simpa [Text.natural] using hc))
  simp only [List.forall_mem_append]
  exact ⟨⟨forall_mem_of_all (by decide), hdigits⟩, forall_mem_of_all (by decide)⟩

theorem operand_switchSubject (k : Nat) :
    Operand (switchSubject k) (.reference (switchSubject k)) :=
  operand_reference (isIdentifier_switchSubject k)

theorem oneLine_switchSubject (k : Nat) : '\n' ∉ (switchSubject k).toList :=
  Text.oneLine_append (Text.oneLine_append (by decide) (Text.oneLine_natural k)) (by decide)

/-- The lines are a switch statement and a chain over one subject, and for every
value of the subject both do one arm: the one that the cases give for it, written
at its place. Only a switch without cases has its default behind the chain. -/
def SelectAlike (job : Job) (ctx : Context) (cases : List SwitchCase) (otherwise : Stmt)
    (level : Nat) (native chain : Lines) : Prop :=
  ∃ subject labels number links behind,
    native = switchLines level subject labels ∧ Under (level + 1) labels ∧
    chain = chainLines level number subject links behind ∧ Under (level + 1) links ∧
    ∀ (w : Int32) (runtime : Runtime) (scope : Scope),
      scope.lookup (switchSubject number) = some (.number w.toInt) →
        ∃ body body' done,
          Gives (lowerStmt (job.switching true) ctx none (armOf cases otherwise w)) body ∧
          Gives (lowerStmt (job.switching false) ctx (some number) (armOf cases otherwise w)) body' ∧
          (∀ taken, SwitchTakes runtime scope (.number w.toInt) labels taken ↔
            taken = brokenAt (level + 2) body) ∧
          (∀ taken, ChainTakes runtime scope true links taken ↔ taken = done) ∧
          done ++ behind = body'.linesAt (if cases.isEmpty then level + 1 else level + 2)

section Comparison

variable {job : Job} {ctx : Context} {level : Nat}

theorem takes_native {arms : Arms} (last : Doc) (w : Int32) (runtime : Runtime) (scope : Scope)
    (taken : Lines) :
    SwitchTakes runtime scope (.number w.toInt)
        (switchLabels (brokenAt level last) (arms.lines (brokenAt level))) taken ↔
      taken = brokenAt level (armDoc arms last w) := by
  have hbodies : ∀ arm ∈ arms.lines (brokenAt level), Breaks arm.2 := by
    intro arm harm
    obtain ⟨source, _, rfl⟩ := List.mem_map.1 harm
    simp [Breaks, brokenAt]
  have htakes : SwitchTakes runtime scope (.number w.toInt)
      (switchLabels (brokenAt level last) (arms.lines (brokenAt level)))
      (brokenAt level (armDoc arms last w)) :=
    armLines_lines (brokenAt level) arms last w ▸ switchTakes_arm hbodies
  constructor
  · exact fun h => h.unique htakes
  · exact fun h => h ▸ htakes

/-- What a chain with links does, where a default of nothing may have none. -/
theorem takes_chain {arms : Arms} {number : Nat} (hsome : arms ≠ [])
    (hvalues : ∀ arm ∈ arms, arm.1 ≠ []) {last : Doc} {links : List Part} {w : Int32}
    {runtime : Runtime} {scope : Scope}
    (hscope : scope.lookup (switchSubject number) = some (.number w.toInt))
    (hlast : ChainTakes runtime scope false links (last.linesAt level)) (taken : Lines) :
    ChainTakes runtime scope true
        (chainLinks (switchSubject number) links true (arms.lines (Doc.linesAt level))) taken ↔
      taken = (armDoc arms last w).linesAt level := by
  have hne : arms.lines (Doc.linesAt level) ≠ [] := by simpa [Arms.lines] using hsome
  have htakes : ChainTakes runtime scope true
      (chainLinks (switchSubject number) links true (arms.lines (Doc.linesAt level)))
      ((armDoc arms last w).linesAt level) :=
    armLines_lines (Doc.linesAt level) arms last w ▸
      chainTakes_arm (operand_switchSubject number) hscope hlast (Arms.lines_values hvalues)
        fun _ => hne
  constructor
  · exact fun h => h.unique htakes
  · exact fun h => h ▸ htakes

theorem linesAt_closed (head : String) (body : Doc) : (Doc.block head body "").linesAt level =
    Doc.textLines level (head ++ " \x7b") ++ body.linesAt (level + 1) ++ [(level, "\x7d")] := by
  have hclose : Doc.textLines level ("\x7d" ++ "") = [(level, "\x7d")] :=
    Doc.textLines_single level (by decide)
  rw [Doc.linesAt_block, hclose]

/-- The last link of a chain does the default, also where it is missing. -/
theorem last_parts (level : Nat) {otherwise : Stmt} {chain : Option Nat} {last : Doc}
    (hlast : Gives (lowerStmt job ctx chain otherwise) last) :
    ∃ links, (if otherwise.isEmpty then .empty else Doc.block "else" last "").linesAt level =
        linkLines level links ∧ Under level links ∧
      ∀ runtime scope, ChainTakes runtime scope false links (last.linesAt (level + 1)) := by
  by_cases hempty : otherwise.isEmpty
  · obtain ⟨_, _, hlowers⟩ := hlast.lowers
    have hnone : last.linesAt (level + 1) = [] := linesAt_of_isEmpty hlowers hempty _
    refine ⟨[], ?_, by simp [Under], fun _ _ => hnone ▸ .nothing⟩
    rw [if_pos hempty]
    simp [Doc.linesAt_eq, Doc.entriesAt, linkLines]
  · refine ⟨[⟨"else", last.linesAt (level + 1)⟩], ?_, ?_, fun _ _ => .last readsLink_else⟩
    · have hhead : Doc.textLines level ("else" ++ " \x7b") = [(level, "else" ++ " \x7b")] :=
        Doc.textLines_single level (by decide)
      rw [if_neg hempty, linesAt_closed, hhead]
      simp [linkLines]
    · intro p hp
      obtain rfl := List.mem_singleton.1 hp
      exact fun line hline => Doc.le_of_mem_linesAt hline

/-- The lines of a chain and what stands behind it, with what they do. -/
theorem chain_parts (level : Nat) {cases : List SwitchCase} {otherwise : Stmt} {number : Nat}
    {arms : Arms} {last : Doc} (hvalues : ∀ c ∈ cases, c.values ≠ [])
    (hfrom : ComesFrom job ctx (some number) cases arms)
    (hlast : Gives (lowerStmt job ctx (some number) otherwise) last) :
    ∃ links behind,
      (linksDoc (switchSubject number) true arms ++
        if cases.isEmpty then last else if otherwise.isEmpty then .empty
        else .block "else" last "").linesAt level = linkLines level links ++ behind ∧
      Under level links ∧
      ∀ (w : Int32) (runtime : Runtime) (scope : Scope),
        scope.lookup (switchSubject number) = some (.number w.toInt) → ∃ done,
          (∀ taken, ChainTakes runtime scope true links taken ↔ taken = done) ∧
          done ++ behind = (armDoc arms last w).linesAt (if cases.isEmpty then level else level + 1) := by
  cases hfrom with
  | nil =>
      refine ⟨[], last.linesAt level, ?_, by simp [Under], fun w runtime scope _ => ⟨[], ?_, rfl⟩⟩
      · rw [Doc.linesAt_append]
        rfl
      · exact fun taken => ⟨fun h => h.unique .nothing, fun h => h ▸ .nothing⟩
  | @cons c arm rest others hfirst hrest =>
      have hall : ComesFrom job ctx (some number) (c :: rest) (arm :: others) := .cons hfirst hrest
      have hlisted := hall.values hvalues
      obtain ⟨links, hlinks, hunder, hdoes⟩ := last_parts level hlast
      refine ⟨chainLinks (switchSubject number) links true
        (Arms.lines (Doc.linesAt (level + 1)) (arm :: others)), [], ?_, ?_,
        fun w runtime scope hscope => ⟨_, ?_, List.append_nil _⟩⟩
      · rw [Doc.linesAt_append, List.append_nil, ← linesAt_linksDoc (oneLine_switchSubject number)]
        exact congrArg (_ ++ ·) hlinks
      · refine under_chainLinks (Arms.lines_deep fun doc line hline => ?_) hunder
        exact Doc.le_of_mem_linesAt hline
      · exact takes_chain (List.cons_ne_nil _ _) hlisted hscope (hdoes runtime scope)

/-- The documents of a switch statement and of its chain, written at any level,
select alike. -/
theorem selectAlike {cases : List SwitchCase} {otherwise : Stmt} (hvalues : ∀ c ∈ cases, c.values ≠ [])
    {text : String} {number : Nat} {arms arms' : Arms} {last last' : Doc}
    (hfrom : ComesFrom (job.switching true) ctx none cases arms)
    (hlast : Gives (lowerStmt (job.switching true) ctx none otherwise) last)
    (hfrom' : ComesFrom (job.switching false) ctx (some number) cases arms')
    (hlast' : Gives (lowerStmt (job.switching false) ctx (some number) otherwise) last') :
    SelectAlike job ctx cases otherwise level
      ((Doc.block ("switch (" ++ text ++ ")")
        (armsDoc arms ++ .line "default:" ++ .indented (last ++ statement "break")) "").linesAt level)
      ((Doc.block (switchLabel number ++ ":")
        (statement ("var " ++ switchSubject number ++ " = " ++ text) ++
          linksDoc (switchSubject number) true arms' ++
          if cases.isEmpty then last' else if otherwise.isEmpty then .empty
          else .block "else" last' "") "").linesAt level) := by
  obtain ⟨links, behind, hlines, hunder, htakes⟩ := chain_parts (level + 1) hvalues hfrom' hlast'
  refine ⟨text, switchLabels (brokenAt (level + 2) last) (arms.lines (brokenAt (level + 2))), number,
    links, behind, ?_, ?_, ?_, hunder, fun w runtime scope hscope => ?_⟩
  · rw [linesAt_closed, linesAt_armsDoc, labelLines_switch (hfrom.values hvalues)]
    rfl
  · refine under_switchLabels (Arms.lines_deep fun doc line hline => ?_) fun line hline => ?_
    · exact lt_of_mem_brokenAt hline
    · exact lt_of_mem_brokenAt hline
  · rw [Doc.linesAt_append] at hlines
    rw [linesAt_closed, Doc.linesAt_append, Doc.linesAt_append, List.append_assoc (Doc.linesAt _ _),
      hlines, chainLines]
    simp only [List.append_assoc]
    rfl
  · obtain ⟨done, hdone, hbehind⟩ := htakes w runtime scope hscope
    exact ⟨armDoc arms last w, armDoc arms' last' w, done, hfrom.armDoc hlast w,
      hfrom'.armDoc hlast' w, takes_native last w runtime scope, hdone, hbehind⟩

end Comparison

/-- Emission ends alike in two jobs: with the same error, or with the same stubs,
pool and template calls and the same sequence of marks. -/
def EmitAlike (job job' : Job) (s : State) : Prop :=
  match (emitProgram job).runFrom s, (emitProgram job').runFrom s with
  | (.ok _, t), (.ok _, t') =>
      t.stubs = t'.stubs ∧ t.pool = t'.pool ∧ t.renders = t'.renders ∧
        recordedMarks job s = recordedMarks job' s
  | (.error e, _), (.error e', _) => e = e'
  | _, _ => False

theorem recordedMarks_switching {job : Job} (hlists : job.program.ListsValues) (s : State) :
    recordedMarks (job.switching true) s = recordedMarks (job.switching false) s := by
  have hagree := lowerProgram_agree hlists s s (.refl s)
  simp only [recordedMarks, Emit.runFrom]
  generalize (lowerProgram (job.switching true)).run s = r at hagree ⊢
  generalize (lowerProgram (job.switching false)).run s = r' at hagree ⊢
  cases hagree with
  | ok hmarks _ => simpa only [Doc.marks_write] using hmarks.1
  | error _ => rfl

theorem emitAlike_switching {job : Job} (hlists : job.program.ListsValues) (s : State) :
    EmitAlike (job.switching true) (job.switching false) s := by
  have hagree := emitProgram_agree hlists s s (.refl s)
  have hmarks := recordedMarks_switching hlists s
  simp only [EmitAlike, Emit.runFrom]
  generalize (emitProgram (job.switching true)).run s = r at hagree ⊢
  generalize (emitProgram (job.switching false)).run s = r' at hagree ⊢
  cases hagree with
  | ok _ hstate => exact ⟨hstate.stubs, hstate.pool, hstate.renders, hmarks⟩
  | error _ => rfl

/-- Where every arm of a switch statement lists a value, the two forms of such
statements agree: in what an emission does, and in the arm that each text
selects. -/
theorem switchForms_agree (job : Job) (hlists : job.program.ListsValues) :
    (∀ s, EmitAlike (job.switching true) (job.switching false) s) ∧
      ∀ (ctx : Context) (outer outer' : Option Nat) (subject : Expr) (cases : List SwitchCase)
        (otherwise : Stmt), (∀ c ∈ cases, c.values ≠ []) →
        ∀ (s t : State) (n m : Nat), SameSoFar s t →
        ∀ d e n' m' s' t',
          ((lowerStmt (job.switching true) ctx outer (.switch subject cases otherwise)).run n).run s =
            (.ok (d, n'), s') →
          ((lowerStmt (job.switching false) ctx outer' (.switch subject cases otherwise)).run m).run t =
            (.ok (e, m'), t') →
          ∀ level, SelectAlike job ctx cases otherwise level (d.linesAt level) (e.linesAt level) := by
  refine ⟨emitAlike_switching hlists, ?_⟩
  intro ctx outer outer' subject cases otherwise hvalues s t n m hst d e n' m' s' t' hd he level
  obtain ⟨text, arms, last, htext, hfrom, hlast, rfl⟩ := nativeForm rfl hd
  obtain ⟨text', number, arms', last', htext', hfrom', hlast', rfl⟩ := chainForm rfl hvalues he
  have hsame : text = text' := by
    have hagree := (alike_switching job true false).nodes.expression ctx.caller subject s t hst
    generalize (lowerExpr (job.switching true) ctx.caller subject).run s = r at hagree htext
    generalize (lowerExpr (job.switching false) ctx.caller subject).run t = r' at hagree htext'
    cases hagree with
    | ok hvalue _ =>
        subst hvalue
        exact Except.ok.inj (htext.symm.trans htext')
    | error _ => cases htext
  subst hsame
  exact selectAlike hvalues hfrom hlast hfrom' hlast'

/-- A switch over a local; its arms share a value and its default does nothing. -/
def choice : Stmt :=
  .switch (.slot "i")
    [.arm [1, -2] (.setSlot "r" (.literal (.int 10))), .arm [-2, 3] (.leave none)] .nop

/-- A program whose only method chooses. -/
def choosing : Program where
  classes :=
    [{ Class.bare "Main" none with
       methods :=
         [{ name := "run", owner := ⟨"Main"⟩, type := ⟨[], .void⟩, isStatic := true
            role := .ordinary, nativeName := none
            body := some ⟨[⟨"i", .int⟩, ⟨"r", .int⟩], .block [.position "Main.java" 3, choice]⟩
            bodyRef := none, natives := [], fluent := false }] }]
  entry := ⟨"Main"⟩
  customMains := []
  distinct := by decide
  hasEntry := by decide

/-- Its emission agrees in both forms, and so do the texts of its choice. -/
theorem switchForms_agree_choosing :
    let job : Job := ⟨choosing, { debug := true }, plainTemplater⟩
    let ctx : Context := ⟨⟨⟨"Main"⟩, "run", ⟨[], .void⟩⟩, false⟩
    let lowered (native : Bool) := ((lowerStmt (job.switching native) ctx none choice).run 0).run .initial
    choosing.ListsValues ∧ EmitAlike (job.switching true) (job.switching false) .initial ∧
      ∃ d e, lowered true = (.ok (d, 0), .initial) ∧ lowered false = (.ok (e, 1), .initial) ∧
        SelectAlike job ctx [.arm [1, -2] (.setSlot "r" (.literal (.int 10))),
          .arm [-2, 3] (.leave none)] .nop 0 (d.linesAt 0) (e.linesAt 0) := by
  intro job ctx lowered
  have hlists : choosing.ListsValues := by
    simp [Program.ListsValues, choosing, choice, Stmt.substatements, substatementsOfAll,
      substatementsOfCases, Stmt.listsValues, SwitchCase.values]
  have hagree := switchForms_agree job hlists
  have hvalues : ∀ c ∈ [SwitchCase.arm [1, -2] (.setSlot "r" (.literal (.int 10))),
      .arm [-2, 3] (.leave none)], c.values ≠ [] := by
    simp [SwitchCase.values]
  refine ⟨hlists, hagree.1 .initial, _, _, rfl, rfl, ?_⟩
  exact hagree.2 ctx none none (.slot "i") _ .nop hvalues .initial .initial 0 0 (.refl _) _ _ _ _ _ _
    rfl rfl 0

end ClassScript.Emission
