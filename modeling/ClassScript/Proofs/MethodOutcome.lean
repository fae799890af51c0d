import ClassScript.Proofs.Assembly
import ClassScript.Proofs.Lists
import ClassScript.Proofs.SwitchLowering
import Mathlib.Data.List.Induction

/-!
How the emission of one method can end, said once. Binding its slot either
lowers the generated body that was selected, and puts the function at its place
among the native ones, or has native text and stubs alone. If it fails on a
body that cannot be lowered, a stub takes its place and a note tells.
-/

namespace ClassScript.Emission

open Output

/-- A step without notes leaves no stub. -/
theorem Assembled.stubs_eq {job : Job} {α : Type} {x : Emit α} (h : Assembled job False x) {s t : State}
    {result : Except EmitError α} (hrun : x.run s = (result, t)) : t.stubs = s.stubs := by
  have hlog : (x.run s).2.log = s.log := h.log_eq s
  rw [hrun] at hlog
  exact congrArg (List.filter _) hlog

/-- The text that was registered for a guard last. -/
def lastText? (natives : List NativeBody) (guard : String) : Option String :=
  (natives.reverse.find? (·.guard = guard)).map (·.text)

section Guards

variable {guard other text : String}

theorem lookup_put (guard text other : String) (known : List (String × String)) :
    (byGuard.put guard text known).lookup other =
      if other = guard then some text else known.lookup other := by
  fun_induction byGuard.put guard text known with
  | case1 => rw [lookup_cons_if]
  | case2 old rest =>
      rw [lookup_cons_if, lookup_cons_if]
      split
      · rfl
      · rfl
  | case3 known old rest hne ih =>
      rw [lookup_cons_if, lookup_cons_if, ih]
      by_cases h : other = known
      · rw [if_pos h, if_neg fun hguard => hne (h.symm.trans hguard), if_pos h]
      · rw [if_neg h, if_neg h]

theorem byGuard_concat (natives : List NativeBody) (native : NativeBody) :
    byGuard (natives ++ [native]) = byGuard.put native.guard native.text (byGuard natives) := by
  rw [byGuard, List.foldl_append]
  rfl

theorem lastText?_concat (natives : List NativeBody) (native : NativeBody) (guard : String) :
    lastText? (natives ++ [native]) guard =
      if guard = native.guard then some native.text else lastText? natives guard := by
  rw [lastText?, List.reverse_append, List.reverse_singleton, List.singleton_append, List.find?_cons]
  by_cases h : guard = native.guard
  · simp [h]
  · simp [h, Ne.symm h, lastText?]

/-- Under each guard stands the text that came last. -/
theorem lookup_byGuard (natives : List NativeBody) (guard : String) :
    (byGuard natives).lookup guard = lastText? natives guard := by
  induction natives using List.reverseRecOn with
  | nil => rfl
  | append_singleton natives native ih => rw [byGuard_concat, lookup_put, ih, lastText?_concat]

/-- A guard is known if a native body comes with it. -/
theorem isSome_lookup_byGuard (natives : List NativeBody) (guard : String) :
    ((byGuard natives).lookup guard).isSome = natives.any (·.guard = guard) := by
  rw [lookup_byGuard, lastText?, Option.isSome_map, List.isSome_find?, List.any_reverse]

end Guards

/-- The generated body of a method that is lowered: none if a native body
without a guard stands in for it. -/
def selectedBody? (job : Job) (m : Method) : Option Body :=
  if (m.nativesFor job.config.target).any (·.guard = "") then none
  else generatedBody? job.program m

/-- The slot that a method of a class is bound to. -/
def methodSlot (owner : ClassName) (m : Method) : String :=
  memberBase owner m.isStatic ++ Script.member (methodName m)

/-- What the function of a method begins with: its slot and its parameters. -/
def functionHead (owner : ClassName) (m : Method) : String :=
  methodSlot owner m ++ " = function(" ++
    ", ".intercalate (m.type.args.map fun b => Script.variableName b.name) ++ ")"

theorem functionHead_eq (owner : ClassName) (m : Method) : functionHead owner m =
    methodSlot owner m ++ " = function" ++ arguments (m.type.args.map fun b => Script.variableName b.name) := by
  apply String.toList_injective
  simp [functionHead, arguments]

/-- The line that binds a method's slot to a stub. -/
def stubLine (owner : ClassName) (m : Method) : String :=
  methodSlot owner m ++ " = function() \x7b N.methodWithoutBody('" ++ methodSlot owner m ++ "') \x7d;"

/-- The comment that tells why a method has a stub. -/
def stubComment (owner : ClassName) (m : Method) (error : EmitError) : String :=
  "// Errored method: " ++ owner.text ++ "." ++ m.name ++ " :: " ++ m.descriptor ++ " :: " ++
    error.message ++ ";"

theorem stubComment_eq (owner : ClassName) (m : Method) (error : EmitError) :
    ∃ text, stubComment owner m error = "// " ++ text := by
  have hfront : "// Errored method: " = "// " ++ "Errored method: " := by decide
  unfold stubComment
  rw [hfront]
  simp only [String.append_assoc]
  exact ⟨_, rfl⟩

/-- The note that a stub leaves. -/
def stubEvent (owner : ClassName) (m : Method) (error : EmitError) : Event :=
  ⟨.warn, stubMessage, [("class", owner.text), ("method", m.name), ("desc", m.descriptor),
    ("error", error.message)]⟩

/-- The comment and the stub that take the place of a method. -/
def stubDoc (owner : ClassName) (m : Method) (error : EmitError) : Doc :=
  .line (stubComment owner m error) ++ .line (stubLine owner m)

theorem stubDoc_eq (owner : ClassName) (m : Method) (error : EmitError) : stubDoc owner m error =
    .line (stubComment owner m error) ++ bindStub (methodSlot owner m) := rfl

/-- What a slot is bound to: the selected body, alone or behind native ones, or
text without marks. -/
inductive Bound (job : Job) (owner : ClassName) (m : Method) (s t : State) : Doc → Prop where
  | alone {body : Body} {doc : Doc} {u : State} (hbody : selectedBody? job m = some body)
      (hrun : (lowerBody job owner m body).run s = (.ok doc, u)) (hpool : t.pool = u.pool) :
      Bound job owner m s t (bindFunction m (methodSlot owner m) doc)
  | guarded {body : Body} {doc : Doc} {u : State} {natives : List (String × Doc)}
      (hbody : selectedBody? job m = some body)
      (hrun : (lowerBody job owner m body).run s = (.ok doc, u)) (hpool : t.pool = u.pool)
      (hnatives : ∀ native ∈ natives, native.2.marks = []) :
      Bound job owner m s t (guardChain (bindFunction m (methodSlot owner m)) doc natives)
  | plain {doc : Doc} (hbody : selectedBody? job m = none) (hpool : t.pool = s.pool)
      (hmarks : doc.marks = []) : Bound job owner m s t doc

section Binding

variable {job : Job} {owner : ClassName} {m : Method} {s t : State} {d : Doc}

theorem run_lowerNative (job : Job) (text : String) (s : State) :
    (lowerNative job text).run s = ((job.templater .nativeBody text).map .line,
      { s with renders := s.renders ++ [(.nativeBody, text)] }) := by
  have hrender := run_render job .nativeBody text s
  rw [lowerNative]
  cases hout : job.templater .nativeBody text with
  | ok out =>
      rw [hout] at hrender
      rw [run_bind_ok hrender]
      rfl
  | error e =>
      rw [hout] at hrender
      rw [run_bind_error hrender]
      rfl

/-- Native text is rendered, and nothing else is asked for. -/
theorem exists_rendered {text : String} (h : (lowerNative job text).run s = (.ok d, t)) :
    ∃ out, job.templater .nativeBody text = .ok out ∧ d = .line out ∧ s.pool = t.pool := by
  rw [run_lowerNative, Prod.mk.injEq] at h
  obtain ⟨hdoc, rfl⟩ := h
  cases hout : job.templater .nativeBody text with
  | ok out =>
      rw [hout] at hdoc
      exact ⟨out, rfl, (Except.ok.inj hdoc).symm, rfl⟩
  | error e =>
      rw [hout] at hdoc
      cases hdoc

/-- Native text has no marks and takes no slots. -/
theorem lowerNative_run {text : String} (h : (lowerNative job text).run s = (.ok d, t)) :
    d.marks = [] ∧ s.pool = t.pool := by
  obtain ⟨out, -, rfl, hpool⟩ := exists_rendered h
  exact ⟨rfl, hpool⟩

theorem marks_bindFunction (m : Method) (slot : String) (d : Doc) :
    (bindFunction m slot d).marks = d.marks := by
  unfold bindFunction
  split <;> simp [Doc.marks]

theorem marks_concat {docs : List Doc} (h : ∀ d ∈ docs, d.marks = []) : (Doc.concat docs).marks = [] := by
  induction docs with
  | nil => rfl
  | cons d rest ih =>
      rw [Doc.concat, Doc.marks_append, h d List.mem_cons_self,
        ih fun e he => h e (List.mem_cons_of_mem _ he), List.nil_append]

/-- The guarded functions in front of the last branch of a chain. -/
theorem marks_guards (m : Method) (slot : String) {natives : List (String × Doc)}
    (h : ∀ native ∈ natives, native.2.marks = []) :
    (Doc.concat (natives.zipIdx.map fun ((guard, body), index) =>
      .block ((if index = 0 then "if" else "else if") ++ " (" ++ guard ++ ")")
        (bindFunction m slot body) "")).marks = [] := by
  apply marks_concat
  intro d hd
  obtain ⟨⟨native, index⟩, hmem, rfl⟩ := List.mem_map.1 hd
  have hnative : native ∈ natives := List.fst_mem_of_mem_zipIdx hmem
  rw [Doc.marks_block, marks_bindFunction, h native hnative]

theorem marks_guardChain {slot : String} {natives : List (String × Doc)}
    (h : ∀ native ∈ natives, native.2.marks = []) (fallback : Doc) :
    (guardChain (bindFunction m slot) fallback natives).marks = fallback.marks := by
  rw [guardChain, Doc.marks_append, marks_guards m slot h, List.nil_append, Doc.marks_block,
    marks_bindFunction]

/-- The guarded native bodies are put in front of what is bound otherwise. -/
theorem guarded_run {slot : String} {natives : List (String × String)} {fallback : Doc}
    (h : (do
      let guarded ← natives.mapM fun (guard, text) => do return (guard, ← lowerNative job text)
      if guarded.isEmpty then return bindFunction m slot fallback
      else return guardChain (bindFunction m slot) fallback guarded : Emit Doc).run s = (.ok d, t)) :
    t.pool = s.pool ∧ (d = bindFunction m slot fallback ∨
      ∃ guarded : List (String × Doc), (∀ native ∈ guarded, native.2.marks = []) ∧
        d = guardChain (bindFunction m slot) fallback guarded) := by
  obtain ⟨guarded, u, hnatives, h⟩ := exists_of_run_bind_ok h
  have hnative : ∀ {native : String × String} {bound : String × Doc} {s t : State},
      ((match native with | (guard, text) => do return (guard, ← lowerNative job text) :
        Emit (String × Doc)).run s = (.ok bound, t)) → bound.2.marks = [] ∧ s.pool = t.pool := by
    rintro ⟨guard, text⟩ bound s t h
    obtain ⟨doc, v, hdoc, h⟩ := exists_of_run_bind_ok h
    obtain ⟨rfl, rfl⟩ := eq_of_run_pure h
    exact lowerNative_run hdoc
  obtain ⟨hall, hpool⟩ := forall₂_of_run_mapM_ok (R := fun _ bound => bound.2.marks = [])
    (P := fun s t => s.pool = t.pool) (fun _ => rfl) Eq.trans hnative hnatives
  have hmarks : ∀ native ∈ guarded, native.2.marks = [] := forall_mem_of_forall₂ hall id
  cases guarded with
  | nil =>
      obtain ⟨rfl, rfl⟩ := eq_of_run_pure h
      exact ⟨hpool.symm, .inl rfl⟩
  | cons first rest =>
      obtain ⟨rfl, rfl⟩ := eq_of_run_pure h
      exact ⟨hpool.symm, .inr ⟨_, hmarks, rfl⟩⟩

theorem selectedBody?_of_lookup_none
    (h : (byGuard (m.nativesFor job.config.target)).lookup "" = none) :
    selectedBody? job m = generatedBody? job.program m := by
  have hnone := isSome_lookup_byGuard (m.nativesFor job.config.target) ""
  rw [h] at hnone
  rw [selectedBody?, ← hnone]
  rfl

theorem selectedBody?_of_lookup_some {text : String}
    (h : (byGuard (m.nativesFor job.config.target)).lookup "" = some text) :
    selectedBody? job m = none := by
  have hsome := isSome_lookup_byGuard (m.nativesFor job.config.target) ""
  rw [h] at hsome
  rw [selectedBody?, ← hsome]
  rfl

/-- The generated body is lowered if there is one. -/
theorem lowerGenerated_run {found : Option Doc}
    (h : (lowerGenerated job owner m).run s = (.ok found, t)) :
    (∃ body doc, generatedBody? job.program m = some body ∧ found = some doc ∧
      (lowerBody job owner m body).run s = (.ok doc, t)) ∨
    (generatedBody? job.program m = none ∧ found = none ∧ s = t) := by
  unfold lowerGenerated at h
  cases hbody : generatedBody? job.program m with
  | none =>
      simp only [hbody] at h
      obtain ⟨rfl, rfl⟩ := eq_of_run_pure h
      exact .inr ⟨rfl, rfl, rfl⟩
  | some body =>
      simp only [hbody] at h
      obtain ⟨doc, u, hdoc, h⟩ := exists_of_run_bind_ok h
      obtain ⟨rfl, rfl⟩ := eq_of_run_pure h
      exact .inl ⟨body, doc, rfl, rfl, hdoc⟩

/-- All that binding a slot can come to. -/
theorem bindMethod_run (h : (bindMethod job owner m (methodSlot owner m)).run s = (.ok d, t)) :
    Bound job owner m s t d := by
  simp only [bindMethod] at h
  split at h
  · next hempty =>
      have hselected : selectedBody? job m = generatedBody? job.program m := by
        apply selectedBody?_of_lookup_none
        rw [List.isEmpty_iff.1 hempty]
        rfl
      obtain ⟨found, u, hfound, h⟩ := exists_of_run_bind_ok h
      rcases lowerGenerated_run hfound with ⟨body, doc, hbody, rfl, hrun⟩ | ⟨hbody, rfl, rfl⟩
      · obtain ⟨rfl, rfl⟩ := eq_of_run_pure h
        exact .alone (hselected.trans hbody) hrun rfl
      · obtain ⟨rfl, rfl⟩ := eq_of_run_pure h
        exact .plain (hselected.trans hbody) rfl rfl
  · split at h
    · next text hsome =>
        obtain ⟨fallback, u, hfallback, h⟩ := exists_of_run_bind_ok h
        obtain ⟨hmarks, hpool⟩ := lowerNative_run hfallback
        obtain ⟨hafter, rfl | ⟨guarded, hguarded, rfl⟩⟩ := guarded_run h
        · refine .plain (selectedBody?_of_lookup_some hsome) (hafter.trans hpool.symm) ?_
          rw [marks_bindFunction, hmarks]
        · refine .plain (selectedBody?_of_lookup_some hsome) (hafter.trans hpool.symm) ?_
          rw [marks_guardChain hguarded, hmarks]
    · next hnone =>
        have hselected := selectedBody?_of_lookup_none hnone
        obtain ⟨fallback, u, hfallback, h⟩ := exists_of_run_bind_ok h
        obtain ⟨found, hfound, rfl⟩ := exists_of_run_map_ok hfallback
        obtain ⟨hafter, hbound⟩ := guarded_run h
        rcases lowerGenerated_run hfound with ⟨body, doc, hbody, rfl, hrun⟩ | ⟨hbody, rfl, rfl⟩
        · rcases hbound with rfl | ⟨guarded, hguarded, rfl⟩
          · exact .alone (hselected.trans hbody) hrun hafter
          · exact .guarded (hselected.trans hbody) hrun hafter hguarded
        · refine .plain (hselected.trans hbody) hafter ?_
          rcases hbound with rfl | ⟨guarded, hguarded, rfl⟩
          · exact marks_bindFunction m _ _
          · exact marks_guardChain hguarded _

/-- Binding a method's slot succeeds and notes no stub, or a stub takes its place. -/
theorem lowerMethod_ends (h : (lowerMethod job owner m).run s = (.ok d, t)) :
    ((bindMethod job owner m (methodSlot owner m)).run s = (.ok d, t) ∧ t.stubs = s.stubs) ∨
      ∃ error, d = stubDoc owner m error ∧ t.stubs = s.stubs ++ [stubEvent owner m error] := by
  have hquiet : Assembled job False (bindMethod job owner m (methodSlot owner m)) := .bindMethod _ _ _
  rcases of_run_tryCatch_ok h with hbind | ⟨error, u, hbind, hhandle⟩
  · change (bindMethod job owner m (methodSlot owner m)).run s = _ at hbind
    exact .inl ⟨hbind, hquiet.stubs_eq hbind⟩
  · change (bindMethod job owner m (methodSlot owner m)).run s = _ at hbind
    have hstubs : u.stubs = s.stubs := hquiet.stubs_eq hbind
    split at hhandle
    · obtain ⟨_, v, hnote, hdoc⟩ := exists_of_run_bind_ok hhandle
      obtain ⟨rfl, rfl⟩ := eq_of_run_pure hdoc
      rw [run_note, Prod.mk.injEq] at hnote
      refine .inr ⟨error, rfl, ?_⟩
      rw [← hnote.2, ← hstubs, State.stubs, List.filter_append]
      rfl
    · cases hhandle

/-- A method's slot is bound and no stub noted, or a stub takes its place. -/
theorem lowerMethod_run (h : (lowerMethod job owner m).run s = (.ok d, t)) :
    (Bound job owner m s t d ∧ t.stubs = s.stubs) ∨
      ∃ error, d = stubDoc owner m error ∧ t.stubs = s.stubs ++ [stubEvent owner m error] :=
  (lowerMethod_ends h).imp_left fun ⟨hbind, hstubs⟩ => ⟨bindMethod_run hbind, hstubs⟩

end Binding

end ClassScript.Emission
