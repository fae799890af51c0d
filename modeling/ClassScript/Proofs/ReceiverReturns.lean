import ClassScript.Proofs.ReturnLines
import ClassScript.Proofs.SharedBodies

/-!
Functions that return their receiver. Constructors and fluent methods do so at every
return without a value and at their end, also with the body of a method that does not;
other methods do so nowhere, unless the body returns the receiver as a value.
-/

namespace ClassScript.Emission

open Output Script

/-- What the statements of a method's function know about it. -/
def methodContext (owner : ClassName) (m : Method) : Context where
  caller := ⟨owner, m.name, m.type⟩
  returnsThis := m.returnsThis

/-- Every class that a function can name opens lines. -/
structure NamesOpenLines (loose : Prop) (job : Job) (owner : ClassName) (body : Body) : Prop where
  owner : owner.OpensLine loose
  members : job.program.OwnersOpenLines loose
  named : ∀ e ∈ body.stmt.expressions, ∀ n ∈ e.namedClasses, n.OpensLine loose

/-- The returns of a method's function: those of its body, and the one at its end. -/
def functionReturns (job : Job) (m : Method) (body : Body) : List (Option Expr) :=
  returnsIn (body.stmt.lowered job.config.nativeSwitch) ++ if m.returnsThis then [none] else []

/-- The lines of a document at a level that begin with the word `return`. -/
def returnLines (level : Nat) (d : Doc) : List String :=
  ((d.linesAt level).map Prod.snd).filter (IsReturn ·)

section Functions

variable {loose : Prop} {job : Job} {ctx : Context} {owner : ClassName} {m : Method} {body : Body}
  {values : List (Option Expr)} {d : Doc}

namespace NamesOpenLines

theorem loosen (h : NamesOpenLines False job owner body) : NamesOpenLines True job owner body := by
  have hname : ∀ {n : ClassName}, n.OpensLine False → n.OpensLine True := fun hn =>
    ⟨hn.1, fun _ => trivial⟩
  exact ⟨hname h.owner, fun c hc => ⟨fun f hf => hname ((h.members c hc).1 f hf),
    fun m hm => hname ((h.members c hc).2 m hm)⟩, fun e he n hn => hname (h.named e he n hn)⟩

variable (h : NamesOpenLines loose job owner body)

include h

/-- Only the statements of a body return. -/
theorem docReturns_lowerBody (hraw : ∀ e ∈ body.stmt.expressions, e.isRaw = false) :
    Returns (DocReturns loose job (methodContext owner m)
      (returnsIn (body.stmt.lowered job.config.nativeSwitch))) (lowerBody job owner m body) := by
  intro s d t hrun
  obtain ⟨text, n, hstmt, rfl⟩ := lowersStmt_of_lowerBody hrun
  have htext : DocReturns loose job (methodContext owner m)
      (returnsIn (body.stmt.lowered job.config.nativeSwitch)) text :=
    hstmt.returns rfl h.members fun e he => ⟨hraw e he, h.named e he⟩
  have hlocals : DocReturns loose job (methodContext owner m) [] (declareLocals body.locals) := by
    cases body.locals with
    | nil => exact .empty
    | cons b rest =>
        have hlist := (refers_localDefaults (b :: rest)).intercalate
          (show Words.Separates ", " by decide)
        exact .statement ((show Opens "var " by decide).append hlist.1).returnsNot
  have htrap : DocReturns loose job (methodContext owner m) []
      (if body.hasTraps then statement ("var " ++ exceptionSlot ++ " = null") else .empty) := by
    split
    · exact .statement (returnsNot_of_not (by decide) (by decide))
    · exact .empty
  have htargets : DocReturns loose job (methodContext owner m) []
      (Doc.lines (initializerTexts (staticInitTargets job.program owner body))) := by
    refine .lines fun line hline => ?_
    obtain ⟨n, hn, rfl⟩ := List.mem_map.1 hline
    exact (returnsNot_class (holds_of_mem_targets h.members h.named hn)
      (show '\n' ∉ ".SI();".toList by decide) rfl (.inl rfl)).1
  exact ((hlocals.seq htrap).seq htargets).seq htext

/-- The function returns what its body does, and the receiver at its end if the method does. -/
theorem docReturns_bindFunction (hbody : DocReturns loose job (methodContext owner m) values d) :
    DocReturns loose job (methodContext owner m) (values ++ if m.returnsThis then [none] else [])
      (bindFunction m (methodSlot owner m) d) := by
  have hslot := (returnsNot_memberBase h.owner m.isStatic (methodName m)).1
  have hparams : ∀ text ∈ m.type.args.map (fun b => variableName b.name), '\n' ∉ text.toList := by
    intro text htext
    obtain ⟨b, -, rfl⟩ := List.mem_map.1 htext
    exact oneLine_variableName b.name
  have hhead : ReturnsNot loose (methodSlot owner m ++ " = function" ++
      arguments (m.type.args.map fun b => variableName b.name)) :=
    hslot.separated " = function" (by decide) (by decide) (oneLine_arguments hparams)
  have hend : DocReturns loose job (methodContext owner m) (if m.returnsThis then [none] else [])
      (if m.returnsThis then .line "return this;" else .empty) := by
    split
    · next hreturns => exact .single (by decide) (by simp [WritesReturn, methodContext, hreturns])
    · exact .empty
  exact .block hhead (hbody.seq hend) (by decide)

/-- So its lines return what the statements of the body do, and what stands at its end. -/
theorem docReturns_function (hraw : ∀ e ∈ body.stmt.expressions, e.isRaw = false) {s t : State}
    (hrun : (lowerBody job owner m body).run s = (.ok d, t)) :
    DocReturns loose job (methodContext owner m) (functionReturns job m body)
      (bindFunction m (methodSlot owner m) d) :=
  h.docReturns_bindFunction (h.docReturns_lowerBody hraw s d t hrun)

end NamesOpenLines

/-- The last line of a method's function that returns its receiver says so. -/
theorem linesAt_bindFunction_last (hreturns : m.returnsThis = true) (slot : String) (d : Doc)
    (level : Nat) : ∃ front, (bindFunction m slot d).linesAt level =
      front ++ [(level + 1, "return this;"), (level, "\x7d;")] := by
  have hlast : Doc.textLines (level + 1) "return this;" = [(level + 1, "return this;")] :=
    Doc.textLines_single _ (by decide)
  have hclose : Doc.textLines level ("\x7d" ++ ";") = [(level, "\x7d;")] :=
    Doc.textLines_single _ (by decide)
  simp only [bindFunction, hreturns, if_true, Doc.linesAt_block, Doc.linesAt_append]
  rw [← Doc.textLines, hlast, hclose, ← List.append_assoc, List.append_assoc]
  exact ⟨_, rfl⟩

/-- Where the function of a generated body stands: alone, or behind guarded functions. -/
theorem within_of_bound {s t : State} (hselected : selectedBody? job m = some body)
    (h : Bound job owner m s t d) : ∃ doc, (∃ u, (lowerBody job owner m body).run s = (.ok doc, u)) ∧
      (bindFunction m (methodSlot owner m) doc).Within d := by
  cases h with
  | alone hbody hrun _ =>
      obtain rfl := Option.some.inj (hselected.symm.trans hbody)
      exact ⟨_, ⟨_, hrun⟩, .refl⟩
  | guarded hbody hrun _ _ =>
      obtain rfl := Option.some.inj (hselected.symm.trans hbody)
      exact ⟨_, ⟨_, hrun⟩, .second (.block .refl)⟩
  | plain hnone _ _ => cases hnone.symm.trans hselected

/-- A return in a function is the one at its end or one of the statements of the body. -/
theorem mem_functionReturns {value : Option Expr} (h : value ∈ functionReturns job m body) :
    (value = none ∧ m.returnsThis = true) ∨ .ret value ∈ body.stmt.substatements := by
  rcases List.mem_append.1 h with hbody | hend
  · obtain ⟨s, hs, hvalue⟩ := List.mem_filterMap.1 hbody
    obtain rfl : s = .ret value := by
      cases s <;> cases hvalue
      rfl
    exact .inr ((Stmt.lowered_sublist _ _).subset hs)
  · split at hend
    · next hreturns => exact .inl ⟨List.mem_singleton.1 hend, hreturns⟩
    · cases hend

theorem eq_none_of_mem_functionReturns {value : Option Expr}
    (hvalues : ∀ value, .ret (some value) ∉ body.stmt.substatements)
    (h : value ∈ functionReturns job m body) : value = none := by
  rcases mem_functionReturns h with ⟨rfl, -⟩ | hreturn
  · rfl
  · cases value with
    | none => rfl
    | some value => exact absurd hreturn (hvalues value)

/-- Returns without values all return what the method does. -/
theorem lines_eq_of_writesReturn {lines : List String} (hreturns : ctx.returnsThis = true)
    (hvalues : ∀ value ∈ values, value = none)
    (h : List.Forall₂ (WritesReturn job ctx) values lines) :
    lines = values.map fun _ => "return this;" := by
  induction h with
  | nil => rfl
  | @cons value line values lines hwrites _ ih =>
      obtain ⟨rfl, hrest⟩ := List.forall_mem_cons.1 hvalues
      obtain rfl : line = _ := hwrites
      rw [List.map_cons, ← ih hrest, hreturns]
      rfl

/-- A value is written as the receiver only if it is that. -/
theorem isReceiver_of_writesReturn {value : Expr}
    (h : WritesReturn job ctx (some value) "return this;") : value.isReceiver = true := by
  obtain ⟨text, _, _, -, hreceiver, hline⟩ := h
  have htext : "return " ++ "this" ++ ";" = "return " ++ text ++ ";" := hline
  rw [String.append_left_inj, String.append_right_inj] at htext
  exact hreceiver.1 htext.symm

/-- Another method returns the receiver only as a value. -/
theorem receiver_not_mem {lines : List String} (hreturns : m.returnsThis = false)
    (hvalues : ∀ value, .ret (some value) ∈ body.stmt.substatements → value.isReceiver = false)
    (h : ReturnsAmong loose job (methodContext owner m) (functionReturns job m body) lines) :
    "return this;" ∉ lines := by
  intro hmem
  obtain ⟨value, hvalue, hwrites⟩ := h.receiver hmem
  rcases mem_functionReturns hvalue with ⟨-, hreturnsThis⟩ | hreturn
  · rw [hreturns] at hreturnsThis
    cases hreturnsThis
  · cases value with
    | none =>
        have hline : "return this;" = if m.returnsThis then "return this;" else "return;" := hwrites
        rw [hreturns] at hline
        exact absurd hline (by decide)
    | some value =>
        have hother := hvalues value hreturn
        rw [isReceiver_of_writesReturn hwrites] at hother
        cases hother

end Functions

/-- A constructor or fluent method returns its receiver at the end of its function and at
every return in its body, its own or a shared one, if none of them has a value: those are
all its lines that begin with the word `return`, as long as no class has a name that does.
Another method has no line that returns the receiver, unless a return in its body has the
receiver for a value, as it is or cast from `bool` to `bool`. -/
theorem receiver_returned {job : Job} {owner : ClassName} {m : Method} {body : Body} {s t : State}
    {d : Doc} (hbody : selectedBody? job m = some body)
    (hraw : ∀ e ∈ body.stmt.expressions, e.isRaw = false)
    (hnames : NamesOpenLines True job owner body)
    (hrun : (lowerMethod job owner m).run s = (.ok d, t)) (hstubs : t.stubs = s.stubs) :
    ∃ doc, (∃ u, (lowerBody job owner m body).run s = (.ok doc, u)) ∧
      (bindFunction m (methodSlot owner m) doc).Within d ∧
      ∀ level,
        let lines := (bindFunction m (methodSlot owner m) doc).linesAt level
        let returns := returnLines level (bindFunction m (methodSlot owner m) doc)
        ReturnsAmong True job (methodContext owner m) (functionReturns job m body)
          (lines.map Prod.snd) ∧
        (NamesOpenLines False job owner body →
          List.Forall₂ (WritesReturn job (methodContext owner m)) (functionReturns job m body)
            returns) ∧
        (m.returnsThis = true → (∀ value, .ret (some value) ∉ body.stmt.substatements) →
          (NamesOpenLines False job owner body → returns =
            (functionReturns job m body).map fun _ => "return this;") ∧
          ∃ front, lines = front ++ [(level + 1, "return this;"), (level, "\x7d;")]) ∧
        (m.returnsThis = false →
          (∀ value, .ret (some value) ∈ body.stmt.substatements → value.isReceiver = false) →
          "return this;" ∉ lines.map Prod.snd) := by
  rcases lowerMethod_run hrun with ⟨hbound, -⟩ | ⟨error, -, hnoted⟩
  · obtain ⟨doc, ⟨u, hdoc⟩, hwithin⟩ := within_of_bound hbody hbound
    refine ⟨doc, ⟨u, hdoc⟩, hwithin, fun level => ?_⟩
    have hlines := hnames.docReturns_function hraw hdoc level
    have hreturned : NamesOpenLines False job owner body →
        List.Forall₂ (WritesReturn job (methodContext owner m)) (functionReturns job m body)
          (returnLines level (bindFunction m (methodSlot owner m) doc)) :=
      fun hstrict => (hstrict.docReturns_function hraw hdoc level).forall₂
    refine ⟨hlines, hreturned, fun hreturns hvalues => ⟨fun hstrict => ?_,
      linesAt_bindFunction_last hreturns _ _ level⟩, fun hreturns hvalues =>
        receiver_not_mem hreturns hvalues hlines⟩
    exact lines_eq_of_writesReturn hreturns
      (fun _ hvalue => eq_none_of_mem_functionReturns hvalues hvalue) (hreturned hstrict)
  · rw [hnoted] at hstubs
    exact absurd hstubs (by simp)

section Examples

/-- A body that returns inside a loop and inside a switch. -/
def returningBody : Body :=
  ⟨[], .block
    [.loop none (.literal (.bool true)) (.when (.literal (.bool false)) (.ret none)),
      .switch (.param "x") [.arm [1] (.ret none)] .nop]⟩

/-- A method of one number that has this body and is not fluent. -/
def walker : Method where
  name := "walk"
  owner := ⟨"Main"⟩
  type := ⟨[⟨"x", .int⟩], .void⟩
  isStatic := false
  role := .ordinary
  nativeName := none
  body := some returningBody
  bodyRef := none
  natives := []
  fluent := false

/-- A fluent method of a class. -/
def fluentWalker (owner : ClassName) : Method :=
  { walker with owner, fluent := true }

/-- A fluent method that borrows the body of the one that is not. -/
def fluentBorrower : Method :=
  { fluentWalker ⟨"Main"⟩ with
    name := "stroll", body := none, bodyRef := some ⟨⟨"Main"⟩, "walk", ⟨[⟨"x", .int⟩], .void⟩⟩ }

/-- The program of both. -/
def walking : Job := ⟨solo [walker, fluentBorrower], {}, plainTemplater⟩

theorem opensLine_main : (ClassName.mk "Main").OpensLine False :=
  ⟨by decide, fun h => absurd h (by decide +kernel)⟩

theorem namesOpenLines_walking : NamesOpenLines False walking ⟨"Main"⟩ returningBody where
  owner := opensLine_main
  members := by
    simp [walking, solo, soloClass, Class.bare, Program.OwnersOpenLines, walker, fluentWalker,
      fluentBorrower, opensLine_main]
  named e he n hn := by
    have hnone : ∀ e ∈ returningBody.stmt.expressions, e.namedClasses = [] := by decide
    rw [hnone e he] at hn
    cases hn

/-- Both returns of the body return the receiver of the method that borrows it. -/
theorem receiver_returned_borrowed :
    let bound := bindFunction fluentBorrower (methodSlot ⟨"Main"⟩ fluentBorrower)
    ∃ d t, (lowerMethod walking ⟨"Main"⟩ fluentBorrower).run .initial = (.ok d, t) ∧
      ∃ doc, (bound doc).Within d ∧
        ∀ level, returnLines level (bound doc) = ["return this;", "return this;", "return this;"] := by
  intro bound
  have hresolve : walking.program.resolve ⟨⟨"Main"⟩, "walk", ⟨[⟨"x", .int⟩], .void⟩⟩ = some walker :=
    (resolve_solo _ _ _).trans rfl
  have hbody : generatedBody? walking.program fluentBorrower = some returningBody :=
    (generatedBody?_shared rfl rfl).trans (by rw [hresolve]; rfl)
  have hselected : selectedBody? walking fluentBorrower = some returningBody := hbody
  obtain ⟨d, hrun⟩ : ∃ d, (lowerMethod walking ⟨"Main"⟩ fluentBorrower).run .initial =
      (.ok d, .initial) := ⟨_, lowerMethod_generated rfl hbody rfl⟩
  obtain ⟨doc, -, hwithin, hlines⟩ :=
    receiver_returned hselected (by decide) namesOpenLines_walking.loosen hrun rfl
  refine ⟨d, _, hrun, doc, hwithin, fun level => ?_⟩
  obtain ⟨-, -, hreturns, -⟩ := hlines level
  have hvalues : ∀ value, .ret (some value) ∉ returningBody.stmt.substatements := by
    simp [returningBody, Stmt.substatements, substatementsOfAll, substatementsOfCases]
  exact (hreturns rfl hvalues).1 namesOpenLines_walking

/-- A body that returns the receiver as a truth value. -/
def castBody : Body := ⟨[], .ret (some (.cast .this .bool .bool))⟩

/-- A method that does so. -/
def castWalker : Method :=
  { walker with type := ⟨[⟨"x", .int⟩], .bool⟩, body := some castBody }

/-- A method with a native body beside the generated one. -/
def guardedWalker : Method :=
  { walker with natives := [⟨"js", "N.isNode", "return this;"⟩] }

/-- The program of a class whose name begins with the word `return`. -/
def returnNamed : Program where
  classes := [{ Class.bare "return x" none with methods := [fluentWalker ⟨"return x"⟩] }]
  entry := ⟨"return x"⟩
  customMains := [⟨"js", "run();"⟩]
  distinct := by simp
  hasEntry := by simp [Class.bare]

/-- A cast that does nothing leaves the receiver, also in a method that is neither fluent
nor a constructor. A native body beside the generated one may return what it wants. And
the name of a class may make the first line of a fluent method look like a return. -/
theorem receiver_returned_cast :
    (.ret (some .this) ∉ castBody.stmt.substatements ∧
      (∀ e ∈ castBody.stmt.expressions, e.isRaw = false) ∧ castWalker.returnsThis = false ∧
      ∃ d, (lowerMethod ⟨solo [castWalker], {}, plainTemplater⟩ ⟨"Main"⟩ castWalker).run .initial =
        (.ok d, .initial) ∧ "return this;" ∈ returnLines 0 d) ∧
    (.ret (some .this) ∉ returningBody.stmt.substatements ∧ guardedWalker.returnsThis = false ∧
      selectedBody? ⟨solo [guardedWalker], {}, plainTemplater⟩ guardedWalker = some returningBody ∧
      ∃ d t, (lowerMethod ⟨solo [guardedWalker], {}, plainTemplater⟩ ⟨"Main"⟩ guardedWalker).run
        .initial = (.ok d, t) ∧ "return this;" ∈ returnLines 0 d) ∧
    ∃ d, (lowerMethod ⟨returnNamed, {}, plainTemplater⟩ ⟨"return x"⟩
        (fluentWalker ⟨"return x"⟩)).run .initial = (.ok d, .initial) ∧
      ∃ line ∈ returnLines 0 d, line ≠ "return this;" := by
  refine ⟨⟨?_, by decide, rfl, _, lowerMethod_generated rfl rfl rfl, by decide +kernel⟩,
    ⟨?_, rfl, rfl, ?_⟩, _, lowerMethod_generated rfl rfl rfl, by decide +kernel⟩
  · simp [castBody, Stmt.substatements]
  · simp [returningBody, Stmt.substatements, substatementsOfAll, substatementsOfCases]
  · have hnone : lastText? (guardedWalker.nativesFor "js") "" = none := by decide +kernel
    let rendered := fun guard => (lastText? (guardedWalker.nativesFor "js") guard).getD ""
    have hrendered : ∀ guard ∈ conditions (guardedWalker.nativesFor "js"), ∀ text,
        lastText? (guardedWalker.nativesFor "js") guard = some text →
          plainTemplater .nativeBody text = .ok (rendered guard) := by
      intro guard _ text htext
      simp only [rendered, htext]
      rfl
    obtain ⟨t, hrun⟩ : ∃ t, (lowerMethod ⟨solo [guardedWalker], {}, plainTemplater⟩ ⟨"Main"⟩
        guardedWalker).run .initial = _ :=
      lowerMethod_native (by decide +kernel) (.generated hnone rfl rfl) hrendered
    exact ⟨_, t, hrun, by decide +kernel⟩

end Examples

end ClassScript.Emission
