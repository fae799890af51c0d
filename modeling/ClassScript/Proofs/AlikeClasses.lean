import ClassScript.Proofs.AlikeBodies

/-!
Methods and classes of alike jobs. Above the statements of bodies a document is
put together from parts and fixed text, so a relation between documents that
this keeps carries over from bodies to methods and classes.
-/

namespace ClassScript

theorem exists_of_bind_eq_ok {ε α β : Type} {x : Except ε α} {f : α → Except ε β} {b : β}
    (h : x >>= f = .ok b) : ∃ a, x = .ok a ∧ f a = .ok b := by
  cases x with
  | error e => cases h
  | ok a => exact ⟨a, rfl, h⟩

namespace Program

variable {p : Program}

/-- The body is one of those that methods of the program have of their own. -/
def HasBody (p : Program) (body : Body) : Prop :=
  ∃ c ∈ p.classes, ∃ m ∈ c.methods, m.body = some body

theorem mem_pool_of_mem_explore {pool found : List Class} {queue : List ClassName} {c : Class}
    (h : p.explore pool queue = .ok found) (hc : c ∈ found) : c ∈ pool := by
  fun_induction p.explore pool queue generalizing found with
  | case1 => simp_all
  | case2 => simp at h
  | case3 pool name rest hpresent hdraw ih => exact ih h hc
  | case4 pool name rest hpresent d hdraw ih =>
      obtain ⟨others, hothers, hfound⟩ := exists_of_bind_eq_ok h
      obtain rfl : d :: others = found := Except.ok.inj hfound
      rcases List.mem_cons.1 hc with rfl | hmem
      · exact (mem_of_draw? hdraw).1
      · exact (mem_without.1 (ih hothers hmem)).1

theorem mem_classes_of_mem_related {c d : Class} {classes : List Class} (hc : c ∈ p.classes)
    (h : p.related c = .ok classes) (hd : d ∈ classes) : d ∈ p.classes := by
  obtain ⟨found, hfound, hclasses⟩ := exists_of_bind_eq_ok h
  obtain rfl : c :: p.ancestors c ++ found = classes := Except.ok.inj hclasses
  rcases List.mem_append.1 hd with hline | hother
  · rcases List.mem_cons.1 hline with rfl | hancestor
    · exact hc
    · exact mem_classes_of_mem_ancestors hancestor
  · exact (List.mem_filter.1 (mem_pool_of_mem_explore hfound hother)).1

/-- What a reference resolves to is a method of a class of the program. -/
theorem mem_methods_of_resolve {r : MethodRef} {m : Method} (h : p.resolve r = some m) :
    ∃ c ∈ p.classes, m ∈ c.methods := by
  simp only [resolve, findMethod, Option.bind_eq_bind, Option.bind_eq_some_iff] at h
  obtain ⟨c, hc, classes, hclasses, hfound⟩ := h
  obtain ⟨d, hd, hm⟩ := List.exists_of_findSome?_eq_some hfound
  have hrelated : p.related c = .ok classes := by
    cases hcase : p.related c with
    | error e => simp [hcase, Except.toOption] at hclasses
    | ok found => simpa [hcase, Except.toOption] using hclasses
  have hmem : c ∈ p.classes := List.mem_of_find?_eq_some hc
  exact ⟨d, mem_classes_of_mem_related hmem hrelated hd, List.mem_of_find?_eq_some hm⟩

end Program

namespace Emission

open Output

theorem hasBody_of_generatedBody? {p : Program} {c : Class} {m : Method} {body : Body}
    (hc : c ∈ p.classes) (hm : m ∈ c.methods) (h : generatedBody? p m = some body) :
    p.HasBody body := by
  unfold generatedBody? at h
  split at h
  · next _ _ hown =>
      exact ⟨c, hc, m, hm, hown.trans h⟩
  · next shared _ _ =>
      obtain ⟨other, hresolved, hbody⟩ := Option.bind_eq_some_iff.1 h
      obtain ⟨d, hd, hmem⟩ := Program.mem_methods_of_resolve hresolved
      exact ⟨d, hd, other, hmem, hbody⟩
  · simp at h

/-- What is made of related items and their places is related. -/
theorem forall₂_map_zipIdx {α β γ δ : Type} {Q : α → β → Prop} {R : γ → δ → Prop} {as : List α}
    {bs : List β} (h : List.Forall₂ Q as bs) (first : Nat) {f : α × Nat → γ} {g : β × Nat → δ}
    (hfg : ∀ {a b}, Q a b → ∀ i, R (f (a, i)) (g (b, i))) :
    List.Forall₂ R ((as.zipIdx first).map f) ((bs.zipIdx first).map g) := by
  induction h generalizing first with
  | nil => exact .nil
  | cons hab _ ih => exact .cons (hfg hab first) (ih (first + 1))

namespace Congruence

variable {R : Doc → Doc → Prop}

theorem concat (hR : Congruence R) {ds es : List Doc} (h : List.Forall₂ R ds es) :
    R (Doc.concat ds) (Doc.concat es) := by
  induction h with
  | nil => exact hR.refl _
  | cons hfirst _ ih => exact hR.seq hfirst ih

theorem bindFunction (hR : Congruence R) (m : Method) (slot : String) {d e : Doc} (h : R d e) :
    R (bindFunction m slot d) (bindFunction m slot e) :=
  hR.block (hR.seq h (hR.refl _))

theorem guardChain (hR : Congruence R) {bind : Doc → Doc} (hbind : ∀ {d e}, R d e → R (bind d) (bind e))
    {fallback fallback' : Doc} (hfallback : R fallback fallback')
    {guarded guarded' : List (String × Doc)}
    (h : List.Forall₂ (fun p q => p.1 = q.1 ∧ R p.2 q.2) guarded guarded') :
    R (guardChain bind fallback guarded) (guardChain bind fallback' guarded') := by
  refine hR.seq (hR.concat ?_) (hR.block (hbind hfallback))
  apply forall₂_map_zipIdx h
  rintro ⟨guard, body⟩ ⟨guard', body'⟩ ⟨rfl, hbody⟩ i
  exact hR.block (hbind hbody)

end Congruence

namespace Alike

variable {S : State → State → Prop} {R : Doc → Doc → Prop} {job job' : Job}

theorem native (h : Alike S job job') (hR : Congruence R) (text : String) :
    Agree S R (lowerNative job text) (lowerNative job' text) :=
  (h.render _ _).bindEq fun _ => .pure (hR.refl _)

/-- The bodies of the program lower to related documents. -/
def Bodies (S : State → State → Prop) (R : Doc → Doc → Prop) (job job' : Job) : Prop :=
  ∀ owner m body, job.program.HasBody body →
    Agree S R (lowerBody job owner m body) (lowerBody job' owner m body)

section Methods

variable {c : Class} {m : Method}

theorem generated (h : Alike S job job') (hbodies : Bodies S R job job') (hc : c ∈ job.program.classes)
    (hm : m ∈ c.methods) : Agree S (Option.Rel R) (lowerGenerated job c.name m)
      (lowerGenerated job' c.name m) := by
  simp only [lowerGenerated, h.program]
  cases hbody : generatedBody? job.program m with
  | none => exact .pure .none
  | some body =>
      have hhas := hasBody_of_generatedBody? hc hm hbody
      exact (hbodies c.name m body hhas).bind fun d e hde => .pure (.some hde)

/-- What follows on the text that is bound without a guard. -/
theorem guarded (h : Alike S job job') (hR : Congruence R) (m : Method) (slot : String)
    (natives : List (String × String)) {d e : Doc} (hde : R d e) :
    Agree S R
      (do
        let guarded ← natives.mapM fun (guard, text) => do return (guard, ← lowerNative job text)
        if guarded.isEmpty then return bindFunction m slot d
        else return guardChain (bindFunction m slot) d guarded)
      (do
        let guarded ← natives.mapM fun (guard, text) => do return (guard, ← lowerNative job' text)
        if guarded.isEmpty then return bindFunction m slot e
        else return guardChain (bindFunction m slot) e guarded) := by
  have hnatives : Agree S (List.Forall₂ fun p q => p.1 = q.1 ∧ R p.2 q.2)
      (natives.mapM fun (guard, text) => do return (guard, ← lowerNative job text))
      (natives.mapM fun (guard, text) => do return (guard, ← lowerNative job' text)) :=
    .mapM fun native _ => (h.native hR native.2).bind fun _ _ hdoc => .pure ⟨rfl, hdoc⟩
  apply hnatives.bind
  intro guarded guarded' hguarded
  cases hguarded with
  | nil => exact .pure (hR.bindFunction m slot hde)
  | cons hfirst hrest =>
      have hbind : ∀ {d e}, R d e → R (Emission.bindFunction m slot d) (Emission.bindFunction m slot e) :=
        hR.bindFunction m slot
      exact .pure (hR.guardChain hbind hde (.cons hfirst hrest))

theorem bindMethod (h : Alike S job job') (hR : Congruence R) (hbodies : Bodies S R job job')
    (hc : c ∈ job.program.classes) (hm : m ∈ c.methods) (slot : String) :
    Agree S R (bindMethod job c.name m slot) (bindMethod job' c.name m slot) := by
  have hgenerated := h.generated hbodies hc hm
  simp only [Emission.bindMethod, h.target]
  split
  · apply hgenerated.bind
    intro found found' hfound
    cases hfound with
    | none => exact .pure (hR.refl _)
    | some hde => exact .pure (hR.bindFunction m slot hde)
  · split
    · exact (h.native hR _).bind fun d e hde => h.guarded hR m slot _ hde
    · have hfallback : Agree S R ((·.getD .empty) <$> lowerGenerated job c.name m)
          ((·.getD .empty) <$> lowerGenerated job' c.name m) := by
        apply hgenerated.map
        intro found found' hfound
        cases hfound with
        | none => exact hR.refl _
        | some hde => exact hde
      exact hfallback.bind fun d e hde => h.guarded hR m slot _ hde

/-- A method that fails on one side is replaced on both. -/
theorem methodDoc (h : Alike S job job') (hR : Congruence R) (hbodies : Bodies S R job job')
    (hc : c ∈ job.program.classes) (hm : m ∈ c.methods) :
    Agree S R (lowerMethod job c.name m) (lowerMethod job' c.name m) := by
  apply (h.bindMethod hR hbodies hc hm _).tryCatch
  intro error
  split
  · exact (h.note _ _ _).bindEq fun _ => .pure (hR.seq (hR.refl _) (hR.refl _))
  · exact .throw _

theorem methodDocs (h : Alike S job job') (hR : Congruence R) (hbodies : Bodies S R job job')
    (hc : c ∈ job.program.classes) {methods : List Method} (hmethods : ∀ m ∈ methods, m ∈ c.methods) :
    Agree S (fun ds es => R (Doc.concat ds) (Doc.concat es))
      (methods.mapM (lowerMethod job c.name)) (methods.mapM (lowerMethod job' c.name)) := by
  have hall := Agree.mapM fun m hm => h.methodDoc hR hbodies hc (hmethods m hm)
  exact hall.mono fun ds es hdocs => hR.concat hdocs

end Methods

section Classes

variable {c : Class}

theorem fieldDefault (h : Alike S job job') {f : Field} (hf : job.program.Declares f) :
    Agree S Eq (fieldDefault job f) (fieldDefault job' f) := by
  apply (h.declaredName f hf).bindEq
  intro name
  exact (h.literal f.initial).bindEq fun value => .pure rfl

theorem fieldDefaults (h : Alike S job job') {fields : List Field}
    (hfields : ∀ f ∈ fields, job.program.Declares f) :
    Agree S Eq (fields.mapM (Emission.fieldDefault job)) (fields.mapM (Emission.fieldDefault job')) :=
  .mapMEq fun f hf => h.fieldDefault (hfields f hf)

theorem parentBase (h : Alike S job job') (c : Class) :
    Agree S Eq (parentBase job c) (parentBase job' c) := by
  simp only [Emission.parentBase, h.program]
  split
  · exact .pure rfl
  · split
    · exact .throw _
    · exact .pure rfl

theorem relatedClasses (h : Alike S job job') (c : Class) :
    Agree S Eq (relatedClasses job c) (relatedClasses job' c) := by
  simp only [Emission.relatedClasses, h.program]
  split
  · exact .pure rfl
  · exact .throw _

theorem staticInit (h : Alike S job job') (hc : c ∈ job.program.classes) :
    Agree S Eq (lowerStaticInit job c) (lowerStaticInit job' c) := by
  have hfields : ∀ f ∈ c.staticFields, job.program.Declares f :=
    fun f hf => ⟨c, hc, (List.mem_filter.1 hf).1⟩
  simp only [lowerStaticInit]
  split
  · exact .pure rfl
  · exact (h.fieldDefaults hfields).bindEq fun defaults => .pure rfl

/-- A class of alike jobs lowers to related documents. -/
theorem classDoc (h : Alike S job job') (hR : Congruence R) (hbodies : Bodies S R job job')
    (hc : c ∈ job.program.classes) : Agree S R (lowerClass job c) (lowerClass job' c) := by
  have hfields : ∀ f ∈ c.instanceFields ++ (job.program.ancestors c).flatMap (·.instanceFields),
      job.program.Declares f := by
    intro f hf
    rcases List.mem_append.1 hf with hown | hinherited
    · exact ⟨c, hc, (List.mem_filter.1 hown).1⟩
    · obtain ⟨d, hd, hmem⟩ := List.mem_flatMap.1 hinherited
      exact ⟨d, Program.mem_classes_of_mem_ancestors hd, (List.mem_filter.1 hmem).1⟩
  have hinits : ∀ m ∈ c.methods.filter (·.isInit), m ∈ c.methods :=
    fun m hm => (List.mem_filter.1 hm).1
  have hothers : ∀ m ∈ c.methods.filter (!·.isInit), m ∈ c.methods :=
    fun m hm => (List.mem_filter.1 hm).1
  simp only [lowerClass, h.program]
  apply (h.parentBase c).bindEq
  intro parent
  apply (h.fieldDefaults hfields).bindEq
  intro defaults
  apply (h.relatedClasses c).bindEq
  intro related
  apply (h.staticInit hc).bindEq
  intro staticInit
  apply (h.methodDocs hR hbodies hc hinits).bind
  intro ds es hde
  apply (h.methodDocs hR hbodies hc hothers).bind
  intro ds' es' hde'
  exact .pure (hR.seq (hR.seq (hR.refl _) hde) hde')

end Classes

end Alike

end Emission

end ClassScript
