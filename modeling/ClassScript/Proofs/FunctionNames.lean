import ClassScript.Proofs.Assignment
import ClassScript.Proofs.StatementNames

/-!
The names in the text of a whole function: its head, the declarations in front of its
body, and its statements. They are those of its references, in the same order, so a
reader of the text meets every variable, and whatever else is referred to, just where
the body has it.
-/

namespace ClassScript.Emission

open Output Script Words

/-- A body with a text that can be read name by name: the names of classes are words, and
raw calls splice nothing but lines in which no literal stays open. -/
structure Legible (job : Job) (owner : ClassName) (body : Body) : Prop where
  owner : owner.IsWord
  members : job.program.OwnersAreWords
  expressions : ∀ e ∈ body.stmt.expressions, e.IsLegible job

section Functions

variable {job : Job} {owner : ClassName} {m : Method} {body : Body}

/-- What holds of the owners of all members and of the classes that a body names holds of
those whose initialisers it forces. -/
theorem holds_of_mem_targets {p : Program} {P : ClassName → Prop}
    (howners : ∀ c ∈ p.classes, (∀ f ∈ c.fields, P f.owner) ∧ ∀ m ∈ c.methods, P m.owner)
    (hnamed : ∀ e ∈ body.stmt.expressions, ∀ n ∈ e.namedClasses, P n) {n : ClassName}
    (hn : n ∈ staticInitTargets p owner body) : P n := by
  rw [staticInitTargets_eq, List.mem_filter, List.mem_eraseDups, touchedIn, List.mem_append,
    List.mem_filterMap, List.mem_filterMap] at hn
  obtain ⟨⟨e, he, htouched⟩ | ⟨s, -, hwritten⟩, -⟩ := hn
  · cases touchedBy_eq_some.1 htouched with
    | staticField hfound => exact owner_of_findField howners hfound
    | callStatic _ hfound => exact owner_of_resolve howners hfound
    | construct => exact hnamed _ he n List.mem_cons_self
  · cases writtenBy_eq_some.1 hwritten with
    | staticField hfound => exact owner_of_findField howners hfound

/-- The locals of a body, each with its default. -/
def localDefaults (locals : List Binding) : List String :=
  locals.map fun b => variableName b.name ++ " = " ++ constant b.type.zero

theorem refers_localDefaults (locals : List Binding) :
    ReferInTurn (localReferences locals) (localDefaults locals) := by
  induction locals with
  | nil => exact .nil
  | cons b rest ih =>
      have hone : Refers ([.variable b.name] ++ b.type.zero.references)
          (variableName b.name ++ " = " ++ constant b.type.zero) :=
        (refers_variable b.name).separated (by decide) (refers_constant (zero_ne_string b.type))
      exact .cons hone ih

theorem refers_declareLocals (locals : List Binding) :
    DocRefers (localReferences locals) (declareLocals locals) := by
  cases locals with
  | nil => exact .empty
  | cons b rest =>
      have hlist := (refers_localDefaults (b :: rest)).intercalate (show Separates ", " by decide)
      exact refers_statement (hlist.behind [] (by decide))

theorem refers_initializerTexts {targets : List ClassName} (h : ∀ n ∈ targets, n.IsWord) :
    DocRefers (targets.map .ofClass) (Doc.lines (initializerTexts targets)) := by
  induction targets with
  | nil => exact .empty
  | cons n rest ih =>
      obtain ⟨hn, hrest⟩ := List.forall_mem_cons.1 h
      have hcall := (refers_class hn).plain (show Mentions [] ".SI();" by decide) (by decide)
      exact DocRefers.seq (.line hcall) (ih hrest)

/-- The names in the text of a body are those of its references. -/
theorem refers_lowerBody (h : Legible job owner body) :
    Returns (DocRefers (body.references job owner)) (lowerBody job owner m body) := by
  intro s d t hrun
  obtain ⟨text, n, hstmt, rfl⟩ := lowersStmt_of_lowerBody hrun
  have htext := hstmt.refers h.members none rfl h.expressions
  have htargets := refers_initializerTexts fun n (hn : n ∈ staticInitTargets job.program owner body) =>
    holds_of_mem_targets h.members (fun e he => (h.expressions e he).1) hn
  have htrap : DocRefers (if body.hasTraps then [.caught] else [])
      (if body.hasTraps then statement ("var " ++ exceptionSlot ++ " = null") else .empty) := by
    split
    · exact refers_statement (by decide)
    · exact .empty
  exact (((refers_declareLocals body.locals).seq htrap).seq htargets).seq htext

theorem refers_memberBase (h : owner.IsWord) (isStatic : Bool) :
    Refers [.ofClass owner] (memberBase owner isStatic) := by
  unfold memberBase
  split
  · exact refers_class h
  · exact (refers_class h).plain (by decide) (by decide)

theorem refers_functionHead (h : owner.IsWord) (m : Method) :
    Refers (.ofClass owner :: parameterReferences m) (functionHead owner m) := by
  have hslot : Refers [.ofClass owner] (methodSlot owner m) :=
    (refers_memberBase h m.isStatic).member _
  have hparams : ReferInTurn (parameterReferences m)
      (m.type.args.map fun b => variableName b.name) := by
    unfold parameterReferences
    induction m.type.args with
    | nil => exact .nil
    | cons b rest ih => exact .cons (refers_variable b.name) ih
  rw [functionHead_eq]
  exact (hslot.plain (show Mentions [] " = function" by decide) (by decide)).arguments hparams

/-- So is it with the function of a method. -/
theorem refers_bindFunction (h : owner.IsWord) {refs : List Reference} {d : Doc}
    (hbody : DocRefers refs d) :
    DocRefers (.ofClass owner :: (parameterReferences m ++ refs))
      (bindFunction m (methodSlot owner m) d) := by
  have hreturn : DocRefers [] (if m.returnsThis then .line "return this;" else .empty) := by
    split
    · exact .line (by decide)
    · exact .empty
  have hall := DocRefers.block (refers_functionHead h m) (hbody.seq hreturn)
    (show Mentions [] ";" by decide)
  rwa [List.append_nil, functionHead_eq] at hall

/-- In the text of a function every name is that of one of its references. -/
theorem names_function (h : Legible job owner body) {s t : State} {d : Doc}
    (hrun : (lowerBody job owner m body).run s = (.ok d, t)) :
    namesIn (bindFunction m (methodSlot owner m) d).text.toList =
      spelled (functionReferences job owner m body) :=
  (refers_bindFunction h.owner (refers_lowerBody h s d t hrun)).names_text

end Functions

section Examples

/-- A static method of one number. -/
def numeric (name parameter : String) (body : Body) : Method where
  name := name
  owner := ⟨"Main"⟩
  type := ⟨[⟨parameter, .int⟩], .int⟩
  isStatic := true
  role := .ordinary
  nativeName := none
  body := some body
  bodyRef := none
  natives := []
  fluent := false

def numericJob (name parameter : String) (body : Body) : Job :=
  ⟨solo [numeric name parameter body], {}, plainTemplater⟩

theorem isWord_main : (ClassName.mk "Main").IsWord := by
  rw [ClassName.IsWord]
  exact forall_mem_of_all (by decide)

/-- The body of such a method is legible if it uses nothing but variables, numbers and
operators. -/
theorem legible_numeric {name parameter : String} {body : Body}
    (h : ∀ e ∈ body.stmt.expressions, e.namedClasses = [] ∧ e.spliced? = none) :
    Legible (numericJob name parameter body) ⟨"Main"⟩ body where
  owner := isWord_main
  members := by
    simp [numericJob, solo, soloClass, Class.bare, Program.OwnersAreWords, numeric, isWord_main]
  expressions e he := by
    obtain ⟨hnamed, hspliced⟩ := h e he
    simp [Expr.IsLegible, hnamed, hspliced]

end Examples

end ClassScript.Emission
