import ClassScript.Proofs.FunctionNames
import ClassScript.Proofs.VariableNames
import Mathlib.Data.List.Nodup

/-!
Whether different variables of a method stay different in its function, and so whether
writing one of them leaves the others as they are. They do as long as no two of their
names meet. So do the labels of loops that stand in one another.
-/

namespace ClassScript

open Script Output

section Names

variable {names : List String}

/-- No two different ones of the names come to one variable. -/
def Apart (names : List String) : Prop :=
  ∀ x ∈ names, ∀ y ∈ names, Meet x y → x = y

instance (names : List String) : Decidable (Apart names) :=
  inferInstanceAs (Decidable (∀ x ∈ names, ∀ y ∈ names, Meet x y → x = y))

theorem nodup_variableNames (h : names.Nodup) :
    (names.map variableName).Nodup ↔ Apart names := by
  rw [List.nodup_map_iff_inj_on h, Apart]
  simp only [variableName_inj]

/-- Writes in turn, the last of them first, as the function does them. -/
def renamed {ν : Type} (writes : List (String × ν)) : List (String × ν) :=
  writes.map fun w => (variableName w.1, w.2)

/-- Whatever is written to the variables of these names, each of them holds what has been
written to it last. -/
def KeepsApart (names : List String) : Prop :=
  ∀ (ν : Type) (writes : List (String × ν)), (∀ w ∈ writes, w.1 ∈ names) → ∀ x ∈ names,
    (renamed writes).lookup (variableName x) = writes.lookup x

theorem Apart.lookup_renamed (h : Apart names) {ν : Type} {writes : List (String × ν)}
    (hwrites : ∀ w ∈ writes, w.1 ∈ names) {x : String} (hx : x ∈ names) :
    (renamed writes).lookup (variableName x) = writes.lookup x := by
  induction writes with
  | nil => rfl
  | cons w rest ih =>
      obtain ⟨hw, hrest⟩ := List.forall_mem_cons.1 hwrites
      obtain ⟨y, v⟩ := w
      have hsame : variableName x = variableName y ↔ x = y :=
        ⟨fun heq => h x hx y hw (variableName_inj.1 heq), fun heq => congrArg variableName heq⟩
      rw [renamed, List.map_cons, lookup_cons_if, lookup_cons_if, ← renamed, ih hrest]
      simp only [hsame]

theorem keepsApart_iff : KeepsApart names ↔ Apart names := by
  constructor
  · intro h x hx y hy hmeet
    by_contra hne
    -- A write to the one name is read under the other.
    have hread := h Unit [(y, ())] (fun w hw => List.mem_singleton.1 hw ▸ hy) x hx
    rw [renamed, List.map_singleton, variableName_inj.2 hmeet, lookup_cons_if, lookup_cons_if,
      if_pos rfl, if_neg hne] at hread
    cases hread
  · exact fun h ν writes hwrites x hx => h.lookup_renamed hwrites hx

end Names

section Labels

mutual

/-- The labels that each loop which is lowered stands under, its own and those of the loops
around it. -/
def Stmt.labelsOver (native : Bool) (around : List String) : Stmt → List (List String)
  | .block body => labelsOverAll native around body
  | .when _ yes => yes.labelsOver native around
  | .choose _ yes no | .tryCatch yes no =>
      yes.labelsOver native around ++ no.labelsOver native around
  | .loop label _ body =>
      (label.toList ++ around) :: body.labelsOver native (label.toList ++ around)
  | .switch _ cases otherwise =>
      labelsOverCases native around cases ++ otherwise.labelsOver native around
  | _ => []

def labelsOverAll (native : Bool) (around : List String) : List Stmt → List (List String)
  | [] => []
  | s :: rest => s.labelsOver native around ++ labelsOverAll native around rest

def labelsOverCases (native : Bool) (around : List String) : List SwitchCase → List (List String)
  | [] => []
  | .arm values body :: rest =>
      if native || !values.isEmpty then
        body.labelsOver native around ++ labelsOverCases native around rest
      else labelsOverCases native around rest

end

variable {job : Emission.Job} {labels : List String} {l : String}

mutual

/-- Every label that a loop stands under is written at some loop of the statement, or comes
from around it. -/
theorem Stmt.mem_labelsOver : ∀ (s : Stmt) {above : List String} (around : Option Construct)
    (n : Nat), labels ∈ s.labelsOver job.config.nativeSwitch above → l ∈ labels →
      l ∈ above ∨ .label l ∈ s.references job around n
  | .block body, above, around, n, h, hl => by
      rw [Stmt.labelsOver] at h
      rw [Stmt.references]
      exact mem_labelsOverAll body around n h hl
  | .when _ yes, above, around, n, h, hl => by
      rw [Stmt.labelsOver] at h
      rw [Stmt.references]
      exact (yes.mem_labelsOver around n h hl).imp_right (List.mem_append_right _)
  | .choose _ yes no, above, around, n, h, hl => by
      rw [Stmt.labelsOver, List.mem_append] at h
      rw [Stmt.references]
      rcases h with h | h
      · exact (yes.mem_labelsOver around n h hl).imp_right fun hmem =>
          List.mem_append_left _ (List.mem_append_right _ hmem)
      · exact (no.mem_labelsOver around _ h hl).imp_right (List.mem_append_right _)
  | .tryCatch body handler, above, around, n, h, hl => by
      rw [Stmt.labelsOver, List.mem_append] at h
      rw [Stmt.references]
      rcases h with h | h
      · exact (body.mem_labelsOver around n h hl).imp_right fun hmem =>
          List.mem_append_left _ (List.mem_append_left _ hmem)
      · exact (handler.mem_labelsOver around _ h hl).imp_right (List.mem_append_right _)
  | .loop label cond body, above, around, n, h, hl => by
      rw [Stmt.labelsOver, List.mem_cons] at h
      rw [Stmt.references]
      have hown : l ∈ label.toList ++ above → l ∈ above ∨ .label l ∈ labelReferences label ++
          cond.references job ++ body.references job (some .loop) n := by
        intro hmem
        rcases List.mem_append.1 hmem with hlabel | habove
        · obtain rfl : label = some l := by simpa using hlabel
          exact .inr (by simp [labelReferences])
        · exact .inl habove
      rcases h with rfl | h
      · exact hown hl
      · rcases body.mem_labelsOver (some .loop) n h hl with habove | hmem
        · exact hown habove
        · exact .inr (List.mem_append_right _ hmem)
  | .switch subject cases otherwise, above, around, n, h, hl => by
      rw [Stmt.labelsOver, List.mem_append] at h
      rw [Stmt.references]
      split
      · rcases h with h | h
        · exact (mem_labelsOverCases cases n n h hl).imp_right fun hmem =>
            List.mem_append_left _ (List.mem_append_right _ hmem)
        · exact (otherwise.mem_labelsOver _ _ h hl).imp_right (List.mem_append_right _)
      · rcases h with h | h
        · exact (mem_labelsOverCases cases n (n + 1) h hl).imp_right fun hmem =>
            List.mem_append_left _ (List.mem_append_right _ hmem)
        · exact (otherwise.mem_labelsOver _ _ h hl).imp_right (List.mem_append_right _)
  | .position _ _, _, _, _, h, _ | .nop, _, _, _, h, _ | .eval _, _, _, _, h, _
  | .ret _, _, _, _, h, _ | .setSlot _ _, _, _, _, h, _ | .setInstanceField _ _ _, _, _, _, h, _
  | .setStaticField _ _, _, _, _, h, _ | .setArray _ _ _, _, _, _, h, _
  | .fillArray _ _ _, _, _, _, h, _ | .leave _, _, _, _, h, _ | .again _, _, _, _, h, _
  | .throw _, _, _, _, h, _ | .rethrow, _, _, _, h, _ => by
      simp [Stmt.labelsOver] at h

theorem mem_labelsOverAll : ∀ (body : List Stmt) {above : List String} (around : Option Construct)
    (n : Nat), labels ∈ labelsOverAll job.config.nativeSwitch above body → l ∈ labels →
      l ∈ above ∨ .label l ∈ referencesInAll job around n body
  | [], _, _, _, h, _ => by simp [labelsOverAll] at h
  | s :: rest, above, around, n, h, hl => by
      rw [labelsOverAll, List.mem_append] at h
      rw [referencesInAll]
      rcases h with h | h
      · exact (s.mem_labelsOver around n h hl).imp_right (List.mem_append_left _)
      · exact (mem_labelsOverAll rest around _ h hl).imp_right (List.mem_append_right _)

theorem mem_labelsOverCases : ∀ (cases : List SwitchCase) {above : List String} (number n : Nat),
    labels ∈ labelsOverCases job.config.nativeSwitch above cases → l ∈ labels →
      l ∈ above ∨ .label l ∈ referencesInCases job number n cases
  | [], _, _, _, h, _ => by simp [labelsOverCases] at h
  | .arm values body :: rest, above, number, n, h, hl => by
      have hbody : labels ∈ body.labelsOver job.config.nativeSwitch above →
          l ∈ above ∨ .label l ∈ body.references job (some (.switch number)) n :=
        fun h => body.mem_labelsOver _ n h hl
      have hrest : ∀ k, labels ∈ labelsOverCases job.config.nativeSwitch above rest →
          l ∈ above ∨ .label l ∈ referencesInCases job number k rest :=
        fun k h => mem_labelsOverCases rest number k h hl
      rw [labelsOverCases] at h
      rw [referencesInCases]
      cases hnative : job.config.nativeSwitch with
      | true =>
          rw [hnative, Bool.true_or, if_pos rfl, ← hnative, List.mem_append] at h
          rw [if_pos rfl]
          rcases h with h | h
          · exact (hbody h).imp_right (List.mem_append_left _)
          · exact (hrest _ h).imp_right (List.mem_append_right _)
      | false =>
          rw [if_neg Bool.false_ne_true]
          cases hempty : values.isEmpty with
          | true =>
              rw [hnative, hempty] at h
              rw [if_pos rfl]
              exact hrest n (hnative ▸ h)
          | false =>
              rw [hnative, hempty] at h
              rw [if_neg Bool.false_ne_true]
              rcases List.mem_append.1 h with h | h
              · exact (hbody (hnative ▸ h)).imp_right fun hmem =>
                  List.mem_append_left _ (List.mem_append_right _ hmem)
              · exact (hrest _ (hnative ▸ h)).imp_right (List.mem_append_right _)

end

end Labels

section Words

/-- Whether a name may stand in the script as it is, reserved or not. -/
def IsVariableWord (name : String) : Prop :=
  (∀ c ∈ name.toList, isVariableChar c = true) ∧ needsFront name.toList = false

/-- Names that may stand as they are are apart unless one is reserved and another one is
the same with `_` behind it. -/
theorem apart_words {names : List String} (h : ∀ x ∈ names, IsVariableWord x) :
    Apart names ↔ ∀ x ∈ names, isReserved x = true → x ++ "_" ∉ names := by
  have hmeet : ∀ x ∈ names, ∀ y ∈ names, Meet x y ↔ x = y ∨
      isReserved x = true ∧ x ++ "_" = y ∨ isReserved y = true ∧ y ++ "_" = x := fun x hx y hy =>
    meet_of_words (h x hx).1 (h x hx).2 (h y hy).1 (h y hy).2
  constructor
  · intro hapart x hx hreserved hy
    have hsame := hapart x hx _ hy ((hmeet x hx _ hy).2 (.inr (.inl ⟨hreserved, rfl⟩)))
    have hlength := congrArg String.length hsame
    simp at hlength
  · intro hfree x hx y hy hxy
    rcases (hmeet x hx y hy).1 hxy with heq | ⟨hreserved, rfl⟩ | ⟨hreserved, rfl⟩
    · exact heq
    · exact absurd hy (hfree x hx hreserved)
    · exact absurd hx (hfree y hy hreserved)

end Words

namespace Emission

/-- The parameters of a method and the locals of a body. -/
def declaredVariables (m : Method) (body : Body) : List String :=
  m.type.args.map (·.name) ++ body.locals.map (·.name)

/-- The line that declares locals, if there are any. -/
def declarationLines (locals : List Binding) : List (Nat × String) :=
  if locals.isEmpty then []
  else [(1, "var " ++ ", ".intercalate (localDefaults locals) ++ ";")]

section Functions

variable {job : Job} {owner : ClassName} {m : Method} {body : Body}

theorem linesAt_declareLocals (locals : List Binding) :
    (declareLocals locals).linesAt 1 = declarationLines locals := by
  cases locals with
  | nil => rfl
  | cons b rest =>
      have hlist := (refers_localDefaults (b :: rest)).intercalate
        (show Words.Separates ", " by decide)
      have hline := (hlist.behind [] (show Words.Opening [] "var " by decide)).plain
        (show Words.Mentions [] ";" by decide) (by decide)
      exact Doc.textLines_single 1 hline.1

/-- A function begins with its parameters, and its body with its locals. -/
theorem exists_lines_bindFunction (howner : owner.IsWord) {s t : State} {d : Doc}
    (hrun : (lowerBody job owner m body).run s = (.ok d, t)) :
    ∃ rest, (bindFunction m (methodSlot owner m) d).linesAt 0 =
      (0, functionHead owner m ++ " \x7b") :: (declarationLines body.locals ++ rest) := by
  obtain ⟨text, -, -, rfl⟩ := lowersStmt_of_lowerBody hrun
  have hhead := (refers_functionHead howner m).plain (show Words.Mentions [] " \x7b" by decide)
    (by decide)
  have hopening : Doc.textLines 0 (functionHead owner m ++ " \x7b") =
      [(0, functionHead owner m ++ " \x7b")] := Doc.textLines_single 0 hhead.1
  rw [bindFunction, ← functionHead_eq, Doc.linesAt_block, hopening]
  simp only [Doc.linesAt_append, Nat.zero_add, linesAt_declareLocals, List.append_assoc,
    List.cons_append, List.nil_append]
  exact ⟨_, rfl⟩

theorem variable_mem_functionReferences {x : String} (hx : x ∈ declaredVariables m body) :
    .variable x ∈ functionReferences job owner m body := by
  rw [functionReferences, List.mem_cons, List.mem_append, Body.references]
  simp only [List.mem_append]
  rcases List.mem_append.1 hx with hparam | hlocal
  · obtain ⟨b, hb, rfl⟩ := List.mem_map.1 hparam
    exact .inr (.inl (List.mem_map_of_mem hb))
  · obtain ⟨b, hb, rfl⟩ := List.mem_map.1 hlocal
    exact .inr (.inr (.inl (.inl (.inl (List.mem_flatMap.2 ⟨b, hb, List.mem_cons_self⟩)))))

theorem label_mem_functionReferences {labels : List String} {l : String}
    (h : labels ∈ body.stmt.labelsOver job.config.nativeSwitch []) (hl : l ∈ labels) :
    .label l ∈ functionReferences job owner m body := by
  have hmem := (body.stmt.mem_labelsOver none 0 h hl).resolve_left List.not_mem_nil
  exact List.mem_cons_of_mem _ (List.mem_append_right _ (List.mem_append_right _ hmem))

/-- Under the names that the script has for them, different variables of a function are
different exactly if no two of their source names meet: if none of them differ only in
characters that no variable may have, in the `_` that goes in front of a digit, or in one
behind a reserved name. Just then every variable holds what has been written to it last,
whatever is written to the others, as argument, default or assignment. It is the same with
the labels of loops in one another. In the text, the parameters stand in the head of the
function and the locals in the line behind it, and every use of a variable or a label
stands where the body has it. -/
theorem variables_distinct {s t : State} {d : Doc}
    (hrun : (lowerBody job owner m body).run s = (.ok d, t)) :
    let doc := bindFunction m (methodSlot owner m) d
    let refs := functionReferences job owner m body
    let vars := declaredVariables m body
    (vars.Nodup → ((vars.map variableName).Nodup ↔ Apart vars)) ∧
    (KeepsApart vars ↔ Apart vars) ∧
    ((∀ x ∈ vars, IsVariableWord x) →
      (Apart vars ↔ ∀ x ∈ vars, isReserved x = true → x ++ "_" ∉ vars)) ∧
    (∀ x ∈ vars, Reference.variable x ∈ refs) ∧
    (∀ labels ∈ body.stmt.labelsOver job.config.nativeSwitch [],
      (∀ l ∈ labels, Reference.label l ∈ refs) ∧
        (labels.Nodup → ((labels.map variableName).Nodup ↔ Apart labels))) ∧
    (Legible job owner body →
      (∃ rest, doc.linesAt 0 =
        (0, functionHead owner m ++ " \x7b") :: (declarationLines body.locals ++ rest)) ∧
      Words.namesIn doc.text.toList = spelled refs) := by
  intro doc refs vars
  refine ⟨fun hnodup => nodup_variableNames hnodup, keepsApart_iff, fun hwords => apart_words hwords,
    fun x hx => variable_mem_functionReferences hx, fun labels hlabels => ⟨fun l hl =>
      label_mem_functionReferences hlabels hl, fun hnodup => nodup_variableNames hnodup⟩,
    fun h => ⟨exists_lines_bindFunction h.owner hrun, names_function h hrun⟩⟩

end Functions

section Examples

/-- A method with a parameter and a local that are one variable in the script, and with
two loops that have one label. -/
def picking : Body :=
  ⟨[⟨"in_", .int⟩],
    .block [.loop (some "do") (.literal (.bool true)) (.loop (some "do_") (.literal (.bool true))
      (.leave (some "do"))), .ret (some (.param "in"))]⟩

/-- The default of the local overwrites the parameter, and the exit leaves the inner loop. -/
theorem variables_distinct_picking :
    let m := numeric "pick" "in" picking
    let job := numericJob "pick" "in" picking
    let vars := declaredVariables m picking
    ∃ d, (lowerBody job ⟨"Main"⟩ m picking).run .initial = (.ok d, .initial) ∧
      vars.Nodup ∧ ¬ (vars.map variableName).Nodup ∧ ¬ KeepsApart vars ∧
      ["do_", "do"] ∈ picking.stmt.labelsOver true [] ∧ ¬ (["do_", "do"].map variableName).Nodup ∧
      Words.namesIn (bindFunction m (methodSlot ⟨"Main"⟩ m) d).text.toList =
        ["Main", "in_", "in_", "do_", "do_", "do_", "in_"] := by
  intro m job vars
  have hplain : ∀ e ∈ picking.stmt.expressions, e.namedClasses = [] ∧ e.spliced? = none := by
    simp [picking, Stmt.expressions, expressionsOfAll, Expr.subterms, Expr.namedClasses,
      Expr.spliced?]
  have hrun : (lowerBody job ⟨"Main"⟩ m picking).run .initial = (.ok _, .initial) := rfl
  obtain ⟨hdistinct, hkeeps, -, -, hlabels, htext⟩ := variables_distinct hrun
  have hnodup : vars.Nodup := by decide
  have hmeet : ¬ Apart vars := by decide +kernel
  have hover : ["do_", "do"] ∈ picking.stmt.labelsOver true [] := by decide +kernel
  have hlabelsMeet : ¬ Apart ["do_", "do"] := by decide +kernel
  refine ⟨_, hrun, hnodup, fun h => hmeet ((hdistinct hnodup).1 h), fun h => hmeet (hkeeps.1 h),
    hover, fun h => hlabelsMeet (((hlabels _ hover).2 (by decide)).1 h),
    (htext (legible_numeric hplain)).2.trans ?_⟩
  decide +kernel

/-- The parameter `in` and the local `in_` are both written `in_`. -/
theorem variables_meet :
    let body : Body := ⟨[⟨"in_", .int⟩], .ret (some (.param "in"))⟩
    let m := numeric "pick" "in" body
    (declaredVariables m body).Nodup ∧ ¬ ((declaredVariables m body).map variableName).Nodup ∧
    ∃ d, (lowerBody (numericJob "pick" "in" body) ⟨"Main"⟩ m body).run .initial = (.ok d, .initial) ∧
      (bindFunction m (methodSlot ⟨"Main"⟩ m) d).text =
        "Main[\"pick(I)I\"] = function(in_) \x7b\n\tvar in_ = 0;\n\treturn in_;\n\x7d;\n" := by
  refine ⟨by decide, by decide +kernel, _, rfl, by decide +kernel⟩

end Examples

end Emission

end ClassScript
