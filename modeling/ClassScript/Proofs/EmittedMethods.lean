import ClassScript.Proofs.ProgramRun

/-!
The methods in what is emitted. A class writes its methods in turn, and between them
nothing that has a mark or leaves a stub; so does a program with its classes. What is
known of the emission of every method is known of both, if it adds up.
-/

namespace ClassScript.Emission

open Output

/-- The methods of a class in the order in which they are emitted. -/
def emittedMethods (c : Class) : List (ClassName × Method) :=
  (c.methods.filter (·.isInit) ++ c.methods.filter (!·.isInit)).map fun m => (c.name, m)

/-- The methods of a program in the order in which they are emitted; verbatim
text takes the place of a class with all its methods. -/
def Job.emittedMethods (job : Job) : List (ClassName × Method) :=
  (job.program.emissionOrder.filter (·.verbatim.isNone)).flatMap Emission.emittedMethods

section Marks

variable {job : Job} {s t : State} {d : Doc}

theorem marks_lowerStaticInit {c : Class} (h : (lowerStaticInit job c).run s = (.ok d, t)) :
    d.marks = [] := by
  simp only [lowerStaticInit] at h
  split at h
  · obtain ⟨rfl, rfl⟩ := eq_of_run_pure h
    rfl
  · obtain ⟨defaults, u, _, h⟩ := exists_of_run_bind_ok h
    obtain ⟨rfl, rfl⟩ := eq_of_run_pure h
    cases c.staticInit? <;> simp

/-- What stands in front of the classes has no marks. -/
theorem marks_programFront (job : Job) (fragments : List (Option String × Option String))
    (pool : StringPool) :
    (job.headerDoc ++ Doc.concat (fragments.map fun f => optionalLine f.1) ++ pool.doc).marks = [] := by
  have hheader : job.headerDoc.marks = [] := Doc.marks_lineIf _ _
  have hhalves := marks_halves (fragments.map Prod.fst)
  rw [List.map_map] at hhalves
  have hpool : pool.doc.marks = [] := by simp [StringPool.doc]
  rw [Doc.marks_append, Doc.marks_append, hheader, hpool, List.nil_append, List.append_nil]
  exact hhalves

end Marks

/-- A relation of the states before and after, the methods and the document of an emission
that holds of every method and adds up over what is emitted in turn. -/
structure AddsUp (job : Job) (P : State → State → List (ClassName × Method) → Doc → Prop) : Prop where
  append : ∀ {s t u methods others d e}, P s t methods d → P t u others e →
    P s u (methods ++ others) (d ++ e)
  splice : ∀ {s t methods d}, P s t methods d → P s t methods (.splice d)
  plain : ∀ {s t d}, d.marks = [] → t.stubs = s.stubs → P s t [] d
  method : ∀ {s t owner m d}, (lowerMethod job owner m).run s = (.ok d, t) → P s t [(owner, m)] d

namespace AddsUp

variable {job : Job} {P : State → State → List (ClassName × Method) → Doc → Prop}
  {s t : State} {d : Doc} {c : Class}

theorem mapM (h : AddsUp job P) {α β : Type} {f : α → Emit β} (doc : β → Doc)
    (methods : α → List (ClassName × Method))
    (hstep : ∀ {a b s t}, (f a).run s = (.ok b, t) → P s t (methods a) (doc b))
    {items : List α} {values : List β} (hrun : (items.mapM f).run s = (.ok values, t)) :
    P s t (items.flatMap methods) (Doc.concat (values.map doc)) := by
  induction items generalizing values s with
  | nil =>
      rw [List.mapM_nil] at hrun
      obtain ⟨rfl, rfl⟩ := eq_of_run_pure hrun
      exact h.plain rfl rfl
  | cons a rest ih =>
      rw [List.mapM_cons] at hrun
      obtain ⟨b, u, hfirst, hrun⟩ := exists_of_run_bind_ok hrun
      obtain ⟨bs, v, hrest, hrun⟩ := exists_of_run_bind_ok hrun
      obtain ⟨rfl, rfl⟩ := eq_of_run_pure hrun
      rw [List.flatMap_cons, List.map_cons, Doc.concat]
      exact h.append (hstep hfirst) (ih hrest)

theorem ofMethods (h : AddsUp job P) {owner : ClassName} {methods : List Method} {docs : List Doc}
    (hrun : (methods.mapM (lowerMethod job owner)).run s = (.ok docs, t)) :
    P s t (methods.map fun m => (owner, m)) (Doc.concat docs) := by
  have hall := h.mapM id (fun m => [(owner, m)]) h.method hrun
  rwa [List.map_id, ← List.map_eq_flatMap] at hall

theorem ofClass (h : AddsUp job P) (hrun : (lowerClass job c).run s = (.ok d, t)) :
    P s t (emittedMethods c) d := by
  simp only [lowerClass] at hrun
  obtain ⟨parent, s₁, hparent, hrun⟩ := exists_of_run_bind_ok hrun
  obtain ⟨defaults, s₂, hdefaults, hrun⟩ := exists_of_run_bind_ok hrun
  obtain ⟨related, s₃, hrelated, hrun⟩ := exists_of_run_bind_ok hrun
  obtain ⟨staticInit, s₄, hinit, hrun⟩ := exists_of_run_bind_ok hrun
  obtain ⟨inits, s₅, hinits, hrun⟩ := exists_of_run_bind_ok hrun
  obtain ⟨others, s₆, hothers, hrun⟩ := exists_of_run_bind_ok hrun
  obtain ⟨rfl, rfl⟩ := eq_of_run_pure hrun
  have hstubs : s₄.stubs = s.stubs := by
    rw [(Assembled.staticInit c).stubs_eq hinit, (Immediate.relatedClasses job c).state_eq hrelated,
      (Assembled.mapM .fieldDefault _).stubs_eq hdefaults,
      (Immediate.parentBase job c).state_eq hparent]
  rw [emittedMethods, List.map_append, ← List.nil_append (List.map _ _)]
  refine h.append (h.append (h.plain ?_ hstubs) (h.ofMethods hinits)) (h.ofMethods hothers)
  simp [marks_lowerStaticInit hinit]

theorem ofCopy (h : AddsUp job P) (hrun : (lowerOrCopy job c).run s = (.ok d, t)) :
    P s t (if c.verbatim.isNone then emittedMethods c else []) d := by
  simp only [lowerOrCopy] at hrun
  split at hrun
  · next text hverbatim =>
      obtain ⟨rfl, rfl⟩ := eq_of_run_pure hrun
      rw [hverbatim]
      exact h.plain rfl rfl
  · next hverbatim =>
      rw [hverbatim]
      exact h.ofClass hrun

theorem ofProgram (h : AddsUp job P) (hrun : (lowerProgram job).run s = (.ok d, t)) :
    P s t job.emittedMethods d := by
  obtain ⟨classes, fragments, start, u, v, hbefore, hdocs, hafter, _, rfl⟩ := lowerProgram_run hrun
  have hclass : ∀ {c : Class} {p : Class × Doc} {s t : State},
      ((do return (c, ← lowerOrCopy job c) : Emit (Class × Doc)).run s = (.ok p, t)) →
      P s t (if c.verbatim.isNone then Emission.emittedMethods c else []) (.splice p.2) := by
    intro c p s t hclass
    obtain ⟨doc, w, hdoc, hclass⟩ := exists_of_run_bind_ok hclass
    obtain ⟨rfl, rfl⟩ := eq_of_run_pure hclass
    exact h.splice (h.ofCopy hdoc)
  have hclasses := h.mapM (fun p => Doc.splice p.2) _ hclass hdocs
  rw [← flatMap_filter] at hclasses
  have hfront : P s u [] _ := h.plain (marks_programFront job fragments t.pool) hbefore.stubs
  have hstart : ∀ texts, P v t [] (Doc.lines texts) := fun texts =>
    h.plain (Doc.marks_lines texts) hafter.stubs
  have hback : P t t [] (Doc.concat (fragments.reverse.map fun f => optionalLine f.2)) := by
    have hhalves := marks_halves (fragments.reverse.map Prod.snd)
    rw [List.map_map] at hhalves
    exact h.plain hhalves rfl
  have hall : P s t ([] ++ job.emittedMethods ++ [] ++ []) (programDoc job t.pool fragments classes start) :=
    h.append (h.append (h.append hfront hclasses) (hstart _)) hback
  rwa [List.nil_append, List.append_nil, List.append_nil] at hall

end AddsUp

end ClassScript.Emission
