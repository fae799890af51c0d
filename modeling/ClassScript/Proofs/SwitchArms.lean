import ClassScript.Proofs.StatementPlaces
import ClassScript.Proofs.SwitchForms

/-!
What stands above the statements of a switch statement that is written as such. Every
arm is written with one label for each of its values and then with what it does, so the
statements of an arm stand under a label of their own exactly if the arm lists a value.
A chain of conditions leaves out the arms that list none.
-/

namespace ClassScript.Emission

open Output Reading

section Texts

variable {job : Job} {ctx : Context} {chain : Option Nat} {d : Doc}

/-- The document is what the statement is lowered to, wherever it stands. -/
def LowersTo (job : Job) (ctx : Context) (s : Stmt) (d : Doc) : Prop :=
  ∃ chain, Gives (lowerStmt job ctx chain s) d

theorem LowersStmt.lowersTo {s : Stmt} {p q : Nat × State} (h : LowersStmt job ctx chain s p d q) :
    LowersTo job ctx s d :=
  ⟨chain, h.gives⟩

mutual

/-- The texts of the statements in a statement are what these are lowered to. -/
theorem texts_lowered (hnative : job.config.nativeSwitch = true) : ∀ {chain : Option Nat} {s : Stmt}
    {p q : Nat × State} {d : Doc}, LowersStmt job ctx chain s p d q →
      List.Forall₂ (LowersTo job ctx) s.substatements (s.texts true d)
  | _, _, _, _, _, h@(.position _ _ _ _) => by
      simp only [Stmt.substatements, Stmt.texts]
      exact .cons h.lowersTo .nil
  | _, _, _, _, _, h@(.nop _ _) => by
      simp only [Stmt.substatements, Stmt.texts]
      exact .cons h.lowersTo .nil
  | _, _, _, _, _, h@(.line hline _) => by
      rw [substatements_of_lineText? hline, texts_of_lineText? hline]
      exact .cons h.lowersTo .nil
  | _, _, _, _, _, h@(.block hbody) => by
      simp only [Stmt.substatements, Stmt.texts]
      exact .cons h.lowersTo (textsInAll_lowered hnative hbody)
  | _, _, _, _, _, h@(.when _ hyes) => by
      simp only [Stmt.substatements, Stmt.texts]
      exact .cons h.lowersTo (texts_lowered hnative hyes)
  | _, _, _, _, _, h@(.choose _ hyes hno) => by
      simp only [Stmt.substatements, Stmt.texts]
      exact .cons h.lowersTo
        (List.rel_append (texts_lowered hnative hyes) (texts_lowered hnative hno))
  | _, _, _, _, _, h@(.tryCatch hbody hhandler) => by
      simp only [Stmt.substatements, Stmt.texts]
      exact .cons h.lowersTo
        (List.rel_append (texts_lowered hnative hbody) (texts_lowered hnative hhandler))
  | _, _, _, _, _, h@(.loop _ hbody) => by
      simp only [Stmt.substatements, Stmt.texts]
      exact .cons h.lowersTo (texts_lowered hnative hbody)
  | _, _, _, _, _, h@(.switch _ _ hcases hotherwise) => by
      simp only [Stmt.substatements, Stmt.texts]
      exact .cons h.lowersTo
        (List.rel_append (textsInCases_lowered hnative hcases) (texts_lowered hnative hotherwise))
  | _, _, _, _, _, .chain hchains _ _ _ => by cases hnative.symm.trans hchains

theorem textsInAll_lowered (hnative : job.config.nativeSwitch = true) : ∀ {chain : Option Nat}
    {body : List Stmt} {p q : Nat × State} {d : Doc}, LowersStmts job ctx chain body p d q →
      List.Forall₂ (LowersTo job ctx) (substatementsOfAll body) (textsInAll true body d)
  | _, _, _, _, _, .nil _ _ => .nil
  | _, _, _, _, _, .cons hfirst hrest =>
      List.rel_append (texts_lowered hnative hfirst) (textsInAll_lowered hnative hrest)

theorem textsInCases_lowered (hnative : job.config.nativeSwitch = true) :
    ∀ {cases : List SwitchCase} {p q : Nat × State} {d : Doc}, LowersArms job ctx cases p d q →
      List.Forall₂ (LowersTo job ctx) (substatementsOfCases cases) (textsInCases true cases d)
  | _, _, _, _, .nil _ => .nil
  | _, _, _, _, .cons hbody hrest =>
      List.rel_append (texts_lowered hnative hbody) (textsInCases_lowered hnative hrest)

end

end Texts

section Labels

variable {level : Nat}

/-- Above every line that an arm has under its labels stands a label of the arm itself. -/
def UnderOwnLabel (level : Nat) (arm : Lines) : Prop :=
  ∀ above line below, arm = above ++ line :: below → level < line.1 →
    ∃ label ∈ above, label.1 = level ∧ ∃ tree, ReadsLabel label.2 tree

theorem underOwnLabel_cons {label : String} {tree : Option Tree} (h : ReadsLabel label tree)
    (rest : Lines) : UnderOwnLabel level ((level, label) :: rest) := by
  intro above line below hsplit hdeep
  cases above with
  | nil =>
      obtain ⟨rfl, -⟩ := List.cons.inj hsplit
      exact absurd hdeep (Nat.lt_irrefl level)
  | cons first above =>
      obtain ⟨rfl, -⟩ := List.cons.inj hsplit
      exact ⟨_, List.mem_cons_self, rfl, tree, h⟩

/-- What an arm does ends with a line of its own, which has nothing but deeper lines above. -/
theorem not_underOwnLabel_brokenAt (d : Doc) : ¬ UnderOwnLabel level (brokenAt (level + 1) d) := by
  intro h
  obtain ⟨label, hlabel, hlevel, -⟩ := h (d.linesAt (level + 1)) (level + 1, "break;") [] rfl
    (Nat.lt_succ_self level)
  have hdeep : level + 1 ≤ label.1 := Doc.le_of_mem_linesAt hlabel
  omega

theorem underOwnLabel_armAt (values : List Int32) (body : Doc) :
    UnderOwnLabel level (armAt level values body) ↔ values ≠ [] := by
  cases values with
  | nil => simpa [armAt] using not_underOwnLabel_brokenAt body
  | cons v rest => simpa [armAt] using underOwnLabel_cons (readsLabel_case v.toInt) _

theorem underOwnLabel_defaultAt (body : Doc) : UnderOwnLabel level (defaultAt level body) :=
  underOwnLabel_cons readsLabel_default _

end Labels

/-- The lines are a switch statement over the cases: between its braces the arms stand in
order, then the default. -/
structure SwitchLines (job : Job) (ctx : Context) (cases : List SwitchCase) (otherwise : Stmt)
    (level : Nat) (lines : Lines) (arms : List Lines) (last : Lines) : Prop where
  braces : ∃ subject, lines = Doc.textLines level ("switch (" ++ subject ++ ")" ++ " \x7b") ++
    (arms.flatten ++ last) ++ [(level, "\x7d")]
  arms : List.Forall₂ (fun c arm => ∃ body, Gives (lowerStmt job ctx none c.body) body ∧
    arm = armAt (level + 1) c.values body) cases arms
  last : ∃ body, Gives (lowerStmt job ctx none otherwise) body ∧ last = defaultAt (level + 1) body

section Statements

variable {job : Job} {ctx : Context} {cases : List SwitchCase} {otherwise : Stmt} {level : Nat}

theorem ComesFrom.armsAt {arms : Arms} (h : ComesFrom job ctx none cases arms) :
    List.Forall₂ (fun c arm => ∃ body, Gives (lowerStmt job ctx none c.body) body ∧
      arm = armAt level c.values body) cases (arms.map fun arm => armAt level arm.1 arm.2) := by
  refine List.forall₂_map_right_iff.2 (h.imp fun c arm harm => ?_)
  exact ⟨arm.2, harm.2, by rw [harm.1]⟩

/-- A switch statement that is written as such has these lines, wherever it stands. -/
theorem LowersTo.switchLines (hnative : job.config.nativeSwitch = true) {subject : Expr} {e : Doc}
    (h : LowersTo job ctx (.switch subject cases otherwise) e) (level : Nat) :
    ∃ arms last, SwitchLines job ctx cases otherwise level (e.linesAt level) arms last := by
  obtain ⟨chain, n, s, m, t, hrun⟩ := h
  obtain ⟨text, arms, last, -, hfrom, hlast, rfl⟩ := nativeForm hnative hrun
  refine ⟨_, _, ⟨text, ?_⟩, hfrom.armsAt, last, hlast, rfl⟩
  rw [linesAt_closed, linesAt_armsDoc, List.flatMap_def]

/-- Each arm stands under a label of its own exactly if its case has a value. -/
theorem SwitchLines.labelled {lines last : Lines} {arms : List Lines}
    (h : SwitchLines job ctx cases otherwise level lines arms last) :
    List.Forall₂ (fun c arm => UnderOwnLabel (level + 1) arm ↔ c.values ≠ []) cases arms := by
  refine h.arms.imp fun c arm harm => ?_
  obtain ⟨body, -, rfl⟩ := harm
  exact underOwnLabel_armAt c.values body

theorem SwitchLines.last_labelled {lines last : Lines} {arms : List Lines}
    (h : SwitchLines job ctx cases otherwise level lines arms last) :
    UnderOwnLabel (level + 1) last := by
  obtain ⟨body, -, rfl⟩ := h.last
  exact underOwnLabel_defaultAt body

end Statements

/-- The text of a switch statement in the output, arm by arm. Each arm stands under a
label of its own exactly if its case has a value, the default always does. -/
def ArmsLabelled (job : Job) (ctx : Context) (output : Lines) (s : Stmt) (e : Doc) : Prop :=
  ∀ subject cases otherwise, s = .switch subject cases otherwise → ∃ level arms last,
    e.linesAt level <:+: output ∧
    SwitchLines job ctx cases otherwise level (e.linesAt level) arms last ∧
    List.Forall₂ (fun c arm => UnderOwnLabel (level + 1) arm ↔ c.values ≠ []) cases arms ∧
    UnderOwnLabel (level + 1) last

theorem LowersTo.armsLabelled {job : Job} {ctx : Context} (hnative : job.config.nativeSwitch = true)
    {s : Stmt} {e : Doc} (h : LowersTo job ctx s e) {text d : Doc} (hfound : FoundIn e text)
    (hwithin : text.Within d) : ArmsLabelled job ctx (d.linesAt 0) s e := by
  rintro subject cases otherwise rfl
  have hstands : e.Within text := by
    refine hfound.resolve_left ?_
    rintro rfl
    obtain ⟨chain, n, s, m, t, hrun⟩ := h
    obtain ⟨_, _, _, -, -, -, hdoc⟩ := nativeForm hnative hrun
    cases hdoc
  obtain ⟨level, hinfix⟩ := (hstands.trans hwithin).exists_lines 0
  obtain ⟨arms, last, hlines⟩ := h.switchLines hnative level
  exact ⟨level, arms, last, hinfix, hlines, hlines.labelled, hlines.last_labelled⟩

/-- Where switch statements are written as such, the arms of each of them stand in the
text of a body with their labels: an arm has statements without a label of its own
exactly if its case lists no value. -/
theorem switchArms_labelled {job : Job} {owner : ClassName} {m : Method} {body : Body} {s t : State}
    {d : Doc} (hnative : job.config.nativeSwitch = true)
    (h : (lowerBody job owner m body).run s = (.ok d, t)) :
    ∃ front text, d = front ++ text ∧
      List.Forall₂ (ArmsLabelled job ⟨⟨owner, m.name, m.type⟩, m.returnsThis⟩ (d.linesAt 0))
        body.stmt.substatements (body.stmt.texts true text) := by
  obtain ⟨text, n, htext, rfl⟩ := lowersStmt_of_lowerBody h
  have hlowered := texts_lowered hnative htext
  have hfound : ∀ e ∈ body.stmt.texts true text, FoundIn e text :=
    fun e he => body.stmt.foundIn_of_mem_texts he
  have hboth := ((List.forall₂_and_left _ _).2 ⟨hfound, hlowered.flip⟩).flip
  exact ⟨_, text, rfl, hboth.imp fun part e hpart =>
    LowersTo.armsLabelled hnative hpart.2 hpart.1 (.second .refl)⟩

section Examples

/-- A switch statement whose first arm lists no value. -/
def unlisted : Stmt :=
  .switch (.param "a") [.arm [] (.ret (some (.literal (.int 1)))),
    .arm [2, 3] (.ret (some (.literal (.int 2))))] (.ret (some (.literal (.int 3))))

/-- What the arm that lists no value does stands right after the opening brace. -/
theorem switchArms_unlabelled :
    let job : Job := ⟨.bare "Main", {}, plainTemplater⟩
    let m := Method.mentioning "Main" "hello" .nop
    (∃ d, (lowerBody job ⟨"Main"⟩ m ⟨[], unlisted⟩).run .initial = (.ok d, .initial) ∧
      d.linesAt 0 = [(0, "switch (a) \x7b"), (2, "return 1;"), (2, "break;"), (1, "case 2:"),
        (1, "case 3:"), (2, "return 2;"), (2, "break;"), (1, "default:"), (2, "return 3;"),
        (2, "break;"), (0, "\x7d")]) ∧
    ¬ UnderOwnLabel 1 [(2, "return 1;"), (2, "break;")] := by
  intro job m
  have hrun : (lowerBody job ⟨"Main"⟩ m ⟨[], unlisted⟩).run .initial = (.ok _, .initial) := rfl
  refine ⟨⟨_, hrun, by decide +kernel⟩, fun h => ?_⟩
  obtain ⟨label, hlabel, -⟩ := h [] (2, "return 1;") _ rfl (by decide)
  cases hlabel

/-- The other arm and the default are labelled. -/
theorem switchArms_labelled_unlisted :
    let job : Job := ⟨.bare "Main", {}, plainTemplater⟩
    let m := Method.mentioning "Main" "hello" .nop
    job.config.nativeSwitch = true ∧
    ∃ d, (lowerBody job ⟨"Main"⟩ m ⟨[], unlisted⟩).run .initial = (.ok d, .initial) ∧
      ∃ front text, d = front ++ text ∧ List.Forall₂
        (ArmsLabelled job ⟨⟨⟨"Main"⟩, m.name, m.type⟩, m.returnsThis⟩ (d.linesAt 0))
        unlisted.substatements (unlisted.texts true text) := by
  intro job m
  have hrun : (lowerBody job ⟨"Main"⟩ m ⟨[], unlisted⟩).run .initial = (.ok _, .initial) := rfl
  exact ⟨rfl, _, hrun, switchArms_labelled rfl hrun⟩

end Examples

end ClassScript.Emission
