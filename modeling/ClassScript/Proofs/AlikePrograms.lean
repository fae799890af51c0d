import ClassScript.Emission.Program
import ClassScript.Proofs.AlikeClasses
import ClassScript.Proofs.EmissionOrder

/-!
Programs of alike jobs. All that the parts of a program can differ in is the
documents of its classes, which are related where the bodies are.
-/

namespace ClassScript.Emission

open Output

/-- The first line of a program: where its line map is. -/
def Job.headerDoc (job : Job) : Doc :=
  if job.config.debug then .line ("//# sourceMappingURL=" ++ job.config.mapName) else .empty

/-- The document of a program from its parts. -/
def programDoc (job : Job) (pool : StringPool) (fragments : List (Option String × Option String))
    (classes : List (Class × Doc)) (start : String) : Doc :=
  job.headerDoc ++
    Doc.concat (fragments.map fun f => optionalLine f.1) ++
    pool.doc ++
    Doc.concat (classes.map fun c => .splice c.2) ++
    Doc.lines ["__createJavaArrays();", "__buildStrings();", "N.linit();",
      job.program.entry.staticInitCall, start] ++
    Doc.concat (fragments.reverse.map fun f => optionalLine f.2)

/-- The same classes with related documents. -/
abbrev SameClasses (R : Doc → Doc → Prop) : List (Class × Doc) → List (Class × Doc) → Prop :=
  List.Forall₂ fun p q => p.1 = q.1 ∧ R p.2 q.2

theorem mem_classes_of_mem_emissionOrder {p : Program} {c : Class} (h : c ∈ p.emissionOrder) :
    c ∈ p.classes :=
  (Program.mem_emitted.1 (Program.emissionOrder_perm.mem_iff.1 h)).1

/-- The classes of a program follow one another. -/
theorem Congruence.classes {R : Doc → Doc → Prop} (hR : Congruence R) {ds es : List (Class × Doc)}
    (h : SameClasses R ds es) :
    R (Doc.concat (ds.map fun c => .splice c.2)) (Doc.concat (es.map fun c => .splice c.2)) := by
  apply hR.concat
  rw [List.forall₂_map_left_iff, List.forall₂_map_right_iff]
  exact h.imp fun _ _ hde => hR.splice hde.2

namespace Alike

variable {S : State → State → Prop} {R : Doc → Doc → Prop} {job job' : Job}

theorem orCopy (h : Alike S job job') (hR : Congruence R) (hbodies : Bodies S R job job') {c : Class}
    (hc : c ∈ job.program.classes) : Agree S R (lowerOrCopy job c) (lowerOrCopy job' c) := by
  simp only [lowerOrCopy]
  split
  · exact .pure (hR.refl _)
  · exact h.classDoc hR hbodies hc

theorem classDocs (h : Alike S job job') (hR : Congruence R) (hbodies : Bodies S R job job')
    {classes : List Class} (hclasses : ∀ c ∈ classes, c ∈ job.program.classes) :
    Agree S (SameClasses R) (classes.mapM fun c => do return (c, ← lowerOrCopy job c))
      (classes.mapM fun c => do return (c, ← lowerOrCopy job' c)) :=
  .mapM fun c hc => (h.orCopy hR hbodies (hclasses c hc)).bind fun _ _ hde => .pure ⟨rfl, hde⟩

theorem fragment (h : Alike S job job') (f : Fragment) :
    Agree S Eq (resolveFragment job f) (resolveFragment job' f) := by
  have hhalf : ∀ half : Option String, Agree S Eq (half.mapM (job.render .includeFile))
      (half.mapM (job'.render .includeFile)) := by
    intro half
    cases half with
    | none => exact .pure rfl
    | some text => exact (h.render _ text).map fun _ _ => congrArg some
  simp only [resolveFragment]
  split
  · apply (hhalf _).bindEq
    intro before
    exact (hhalf _).bindEq fun after => .pure rfl
  · exact .pure rfl

theorem start (h : Alike S job job') (entry : Class) (custom : Option String) :
    Agree S Eq (startStatement job entry custom) (startStatement job' entry custom) := by
  cases custom with
  | some text => exact h.render _ text
  | none =>
      simp only [startStatement, mainCall]
      split
      · exact .pure rfl
      · exact .throw _

/-- Programs of alike jobs have the same parts but for the halves of fragments and
for related classes, if the sizes of these make no difference. -/
theorem programHalves (h : Alike S job job') (hR : Congruence R) (hbodies : Bodies S R job job')
    {F : List (Option String × Option String) → List (Option String × Option String) → Prop}
    (hfragments : Agree S F (job.config.fragments.mapM (resolveFragment job))
      (job'.config.fragments.mapM (resolveFragment job')))
    (hpool : ∀ s t, S s t → s.pool = t.pool)
    (hsizes : ∀ ds es, SameClasses R ds es → Agree S Eq (noteSizes ds) (noteSizes es)) :
    Agree S (fun d e => ∃ pool fragments fragments' ds es start, F fragments fragments' ∧
        SameClasses R ds es ∧ d = programDoc job pool fragments ds start ∧
        e = programDoc job' pool fragments' es start)
      (lowerProgram job) (lowerProgram job') := by
  simp only [lowerProgram, h.program, h.target]
  apply (h.note _ _ _).bindEq
  intro _
  apply (h.classDocs hR hbodies fun c hc => mem_classes_of_mem_emissionOrder hc).bind
  intro ds es hclasses
  apply (hsizes ds es hclasses).bindEq
  intro _
  cases job.program.class? job.program.entry with
  | none => exact .throw _
  | some entryClass =>
      apply (h.note _ _ _).bindEq
      intro _
      apply hfragments.bind
      intro fragments fragments' hhalves
      apply Agree.get.bind
      intro s t hs
      apply (h.start _ _).bindEq
      intro start
      rw [hpool s t hs]
      refine .pure ⟨t.pool, fragments, fragments', ds, es, start, hhalves, hclasses, rfl, ?_⟩
      rw [programDoc, h.program]
      rfl

/-- With the same fragments the halves are the same too. -/
theorem programParts (h : Alike S job job') (hR : Congruence R) (hbodies : Bodies S R job job')
    (hfragments : job'.config.fragments = job.config.fragments)
    (hpool : ∀ s t, S s t → s.pool = t.pool)
    (hsizes : ∀ ds es, SameClasses R ds es → Agree S Eq (noteSizes ds) (noteSizes es)) :
    Agree S (fun d e => ∃ pool fragments ds es start, SameClasses R ds es ∧
        d = programDoc job pool fragments ds start ∧ e = programDoc job' pool fragments es start)
      (lowerProgram job) (lowerProgram job') := by
  have hhalves : Agree S Eq (job.config.fragments.mapM (resolveFragment job))
      (job'.config.fragments.mapM (resolveFragment job')) := by
    rw [hfragments]
    exact Agree.mapMEq fun f _ => h.fragment f
  apply (h.programHalves hR hbodies hhalves hpool hsizes).mono
  rintro d e ⟨pool, fragments, _, ds, es, start, rfl, hparts⟩
  exact ⟨pool, fragments, ds, es, start, hparts⟩

end Alike

end ClassScript.Emission
