import ClassScript.Proofs.BodyFaults
import ClassScript.Proofs.SourceLayout
import ClassScript.Proofs.SwitchEmission

/-!
What makes an emission fail. The faults of a program are those of its methods,
without the ones that only cost a method its body, those of its hierarchy, and
those of the text around it. An emission succeeds if there is none, and otherwise
fails on the first.
-/

namespace ClassScript

/-- The entry class is there. -/
theorem Program.exists_class?_entry (p : Program) : ∃ c, p.class? p.entry = some c := by
  obtain ⟨c, hc, hname⟩ := List.mem_map.1 p.hasEntry
  exact ⟨c, hname ▸ class?_name hc⟩

namespace Emission

open Output

/-- The faults that a stub does not answer for: a stub takes the place of a step
whose first fault is recoverable. -/
def fatal (faults : List EmitError) : List EmitError :=
  if faults.head?.any EmitError.isRecoverable then [] else faults

namespace Job

variable (job : Job)

/-- What binding a slot can fail on: the faults of the body that is lowered, or
of the text in its place, and then of the texts behind guards. -/
def bindingFaults (owner : ClassName) (m : Method) : List EmitError :=
  let natives := byGuard (m.nativesFor job.config.target)
  (selectedBody? job m).toList.flatMap (job.bodyFaults owner m) ++
    ((natives.lookup "").toList ++ (natives.filter (·.1 ≠ "")).map (·.2)).flatMap
      (job.renderFaults .nativeBody)

/-- What the emission of a method can fail on. -/
def methodFaults (owner : ClassName) (m : Method) : List EmitError :=
  fatal (job.bindingFaults owner m)

/-- What linking a class to its parent can fail on. -/
def parentFaults (c : Class) : List EmitError :=
  match c.parent with
  | some parent => unanswered (job.program.class? parent) (.unresolvedClass parent)
  | none => []

def relatedFaults (c : Class) : List EmitError :=
  match job.program.related c with
  | .ok _ => []
  | .error name => [.unresolvedClass name]

/-- What the emission of a class can fail on; verbatim text cannot. -/
def classFaults (c : Class) : List EmitError :=
  match c.verbatim with
  | some _ => []
  | none => job.parentFaults c ++ (job.relatedFaults c ++
      (Emission.emittedMethods c).flatMap fun o => job.methodFaults o.1 o.2)

def fragmentFaults (f : Fragment) : List EmitError :=
  if f.process then (f.parts.1.toList ++ f.parts.2.toList).flatMap (job.renderFaults .includeFile)
  else []

/-- What the start of the program can fail on. -/
def startFaults : List EmitError :=
  match job.program.customMain? job.config.target with
  | some text => job.renderFaults .customMain text
  | none =>
      let main : MethodRef := ⟨job.program.entry, "main", mainSignature⟩
      unanswered (((job.program.class? main.owner).bind (·.method? main.name main.descriptor)).filter
        (·.isStatic)) (.unresolvedMethod main)

/-- What the emission of the program can fail on, in order. -/
def faults : List EmitError :=
  job.program.emissionOrder.flatMap job.classFaults ++
    (job.config.fragments.flatMap job.fragmentFaults ++ job.startFaults)

end Job

namespace Meets

variable {job : Job}

theorem map {α β : Type} {faults : List EmitError} {x : Emit α} (h : Meets job faults x) (g : α → β) :
    Meets job faults (g <$> x) := by
  rw [map_eq_pure_bind]
  exact h.before fun a => .pure (g a)

theorem tryCatch {α : Type} {faults : List EmitError} {x : Emit α} {handle : EmitError → Emit α}
    (h : Meets job faults x)
    (hhandle : ∀ e : EmitError, e.isRecoverable = true → Meets job [] (handle e))
    (hthrow : ∀ e : EmitError, e.isRecoverable = false → handle e = MonadExcept.throw e) :
    Meets job (fatal faults) (tryCatchThe EmitError x handle) := by
  intro s hs
  obtain ⟨hstate, hend⟩ := h s hs
  generalize hx : x.run s = r at hstate hend
  obtain ⟨result, t⟩ := r
  cases hend with
  | ok a =>
      rw [run_tryCatch_ok hx]
      exact ⟨hstate, .ok a⟩
  | first fault later =>
      rw [run_tryCatch_error hx]
      cases hrecoverable : fault.isRecoverable with
      | true =>
          have hnone : fatal (fault :: later) = [] := by simp [fatal, hrecoverable]
          rw [hnone]
          exact hhandle fault hrecoverable t hstate
      | false =>
          have hall : fatal (fault :: later) = fault :: later := by simp [fatal, hrecoverable]
          rw [hall, hthrow fault hrecoverable]
          exact ⟨hstate, .first fault later⟩
  | unnamed _ field hnames =>
      rw [run_tryCatch_error hx, hthrow (.resolverInvariant field) rfl]
      exact ⟨hstate, .unnamed _ field hnames⟩

theorem note (level : Level) (message : String) (values : List (String × String)) :
    Meets job [] (note level message values) := by
  intro s hs
  rw [run_note]
  exact ⟨hs, .ok _⟩

section Methods

variable (owner : ClassName) (m : Method)

theorem generated :
    Meets job ((generatedBody? job.program m).toList.flatMap (job.bodyFaults owner m))
      (lowerGenerated job owner m) := by
  unfold lowerGenerated
  cases generatedBody? job.program m with
  | none => exact .pure none
  | some body =>
      rw [Option.toList_some, List.flatMap_singleton]
      exact (lowerBody_meets job owner m body).before fun _ => .pure _

theorem native (text : String) : Meets job (job.renderFaults .nativeBody text) (lowerNative job text) :=
  (render _ text).before fun _ => .pure _

theorem natives (natives : List (String × String)) :
    Meets job ((natives.map (·.2)).flatMap (job.renderFaults .nativeBody))
      (natives.mapM fun (guard, text) => do return (guard, ← lowerNative job text)) := by
  rw [List.flatMap_map]
  exact mapM fun n _ => (native n.2).before fun _ => .pure _

theorem bindMethod (slot : String) :
    Meets job (job.bindingFaults owner m) (bindMethod job owner m slot) := by
  have hguarded : ∀ (guarded : List (String × String)) (fallback : Doc),
      Meets job ((guarded.map (·.2)).flatMap (job.renderFaults .nativeBody)) (do
        let guarded ← guarded.mapM fun (guard, text) => do return (guard, ← lowerNative job text)
        if guarded.isEmpty then return bindFunction m slot fallback
        else return guardChain (bindFunction m slot) fallback guarded) := by
    intro guarded fallback
    refine (natives guarded).before fun texts => ?_
    cases texts with
    | nil => exact .pure _
    | cons first rest => exact .pure _
  simp only [Emission.bindMethod, Job.bindingFaults]
  cases hlookup : (byGuard (m.nativesFor job.config.target)).lookup "" with
  | none =>
      rw [selectedBody?_of_lookup_none hlookup, Option.toList_none, List.nil_append]
      split
      · next hempty =>
          rw [List.isEmpty_iff.1 hempty, List.filter_nil, List.map_nil, List.flatMap_nil,
            List.append_nil]
          refine (generated owner m).before fun found => ?_
          cases found with
          | none => exact .pure _
          | some body => exact .pure _
      · exact ((generated owner m).map _).bind fun fallback => hguarded _ fallback
  | some text =>
      rw [selectedBody?_of_lookup_some hlookup, Option.toList_none, List.flatMap_nil,
        List.nil_append, Option.toList_some, List.singleton_append, List.flatMap_cons]
      split
      · next hempty =>
          rw [List.isEmpty_iff.1 hempty] at hlookup
          cases hlookup
      · exact (native text).bind fun fallback => hguarded _ fallback

/-- A stub answers for a body that cannot be lowered. -/
theorem methodDoc : Meets job (job.methodFaults owner m) (lowerMethod job owner m) := by
  refine (bindMethod owner m _).tryCatch (fun e he => ?_) fun e he => ?_
  · rw [if_pos he]
    exact (note _ _ _).after fun _ => .pure _
  · rw [if_neg (Bool.eq_false_iff.1 he)]

end Methods

section Classes

variable {c : Class}

theorem fieldDefault {f : Field} (hf : job.program.Declares f) :
    Meets job [] (fieldDefault job f) :=
  (declaredFieldName hf).after fun _ => (literal f.initial).after fun _ => .pure _

/-- Fields of present classes get their defaults. -/
theorem fieldDefaults {fields : List Field} (h : ∀ f ∈ fields, job.program.Declares f) :
    Meets job [] (fields.mapM (Emission.fieldDefault job)) := by
  have hall := mapM (g := fun _ => []) fun f hf => fieldDefault (h f hf)
  rwa [List.flatMap_eq_nil_iff.2 fun _ _ => rfl] at hall

theorem parentBase (c : Class) : Meets job (job.parentFaults c) (parentBase job c) := by
  unfold Emission.parentBase Job.parentFaults
  cases c.parent with
  | none => exact .pure _
  | some parent =>
      simp only [unanswered]
      split
      · exact .throw _
      · exact .pure _

theorem relatedClasses (c : Class) : Meets job (job.relatedFaults c) (relatedClasses job c) := by
  unfold Emission.relatedClasses Job.relatedFaults
  cases job.program.related c with
  | ok classes => exact .pure _
  | error name => exact .throw _

theorem staticInit (hc : c ∈ job.program.classes) : Meets job [] (lowerStaticInit job c) := by
  have hfields : ∀ f ∈ c.staticFields, job.program.Declares f := fun f hf =>
    ⟨c, hc, (List.mem_filter.1 hf).1⟩
  simp only [lowerStaticInit]
  split
  · exact .pure _
  · exact (fieldDefaults hfields).after fun _ => .pure _

theorem classDoc (hc : c ∈ job.program.classes) (hverbatim : c.verbatim = none) :
    Meets job (job.classFaults c) (lowerClass job c) := by
  have hfields : ∀ f ∈ c.instanceFields ++ (job.program.ancestors c).flatMap (·.instanceFields),
      job.program.Declares f := by
    intro f hf
    rcases List.mem_append.1 hf with hown | habove
    · exact ⟨c, hc, (List.mem_filter.1 hown).1⟩
    · obtain ⟨d, hd, hfd⟩ := List.mem_flatMap.1 habove
      exact ⟨d, Program.mem_classes_of_mem_ancestors hd, (List.mem_filter.1 hfd).1⟩
  have hmethods : ∀ methods : List Method, Meets job (methods.flatMap (job.methodFaults c.name))
      (methods.mapM (lowerMethod job c.name)) := fun methods => mapM fun m _ => methodDoc c.name m
  simp only [Job.classFaults, hverbatim, Emission.emittedMethods, List.flatMap_map,
    List.flatMap_append]
  simp only [lowerClass]
  exact (parentBase c).bind fun _ => (fieldDefaults hfields).after fun _ =>
    (relatedClasses c).bind fun _ => (staticInit hc).after fun _ =>
    (hmethods _).bind fun _ => (hmethods _).before fun _ => .pure _

theorem orCopy (hc : c ∈ job.program.classes) :
    Meets job (job.classFaults c) (lowerOrCopy job c) := by
  unfold lowerOrCopy
  split
  · next text hverbatim =>
      simp only [Job.classFaults, hverbatim]
      exact .pure _
  · next hverbatim => exact classDoc hc hverbatim

end Classes

section Programs

theorem half (half : Option String) :
    Meets job (half.toList.flatMap (job.renderFaults .includeFile))
      (half.mapM (job.render .includeFile)) := by
  cases half with
  | none => exact .pure none
  | some text =>
      rw [Option.toList_some, List.flatMap_singleton]
      exact (render _ text).map some

theorem fragment (f : Fragment) : Meets job (job.fragmentFaults f) (resolveFragment job f) := by
  simp only [resolveFragment, Job.fragmentFaults]
  split
  · rw [List.flatMap_append]
    exact (half _).bind fun _ => (half _).before fun _ => .pure _
  · exact .pure _

theorem start {entry : Class} (hentry : job.program.class? job.program.entry = some entry) :
    Meets job job.startFaults
      (startStatement job entry (job.program.customMain? job.config.target)) := by
  have hname : entry.name = job.program.entry := by simpa using List.find?_some hentry
  unfold Job.startFaults
  cases job.program.customMain? job.config.target with
  | some text => exact render .customMain text
  | none =>
      simp only [startStatement, mainCall, hentry, Option.bind_some, unanswered, hname]
      generalize (entry.method? _ _).filter _ = main
      cases main with
      | none => exact .throw _
      | some main => exact .pure _

theorem programDoc (job : Job) : Meets job job.faults (lowerProgram job) := by
  simp only [lowerProgram, Job.faults]
  have hclass : ∀ c ∈ job.program.emissionOrder, Meets job (job.classFaults c)
      (do return (c, ← lowerOrCopy job c) : Emit (Class × Doc)) := fun c hc =>
    (orCopy (mem_classes_of_mem_emissionOrder hc)).before fun doc => .pure (c, doc)
  refine (note _ _ _).after fun _ => (mapM hclass).bind fun classes => ?_
  refine (silent (noteSizes_silent classes)).after fun _ => ?_
  obtain ⟨entry, hentry⟩ := job.program.exists_class?_entry
  simp only [hentry]
  refine (note _ _ _).after fun _ => (mapM fun f _ => fragment f).bind fun fragments => ?_
  intro s hs
  rw [run_bind_ok (run_get s)]
  exact (start hentry).before (fun _ => .pure _) s hs

end Programs

end Meets

/-- An emission succeeds if nothing is at fault, and fails on the first fault
otherwise. Naming a field is the only other thing that can go wrong, and only in
a program with a cycle or with a field that belongs to another class. -/
theorem emitProgram_endsOn (job : Job) :
    EndsOn job.program job.faults ((emitProgram job).runFrom .initial).1 := by
  obtain ⟨-, hend⟩ := Meets.programDoc job .initial job.ordered_initial
  rw [Emit.runFrom]
  generalize job.faults = faults at hend ⊢
  generalize hrun : (lowerProgram job).run .initial = r at hend
  obtain ⟨result, t⟩ := r
  cases result with
  | error fault =>
      rw [emitProgram_error hrun]
      -- The error is the same, only the type of the value is another.
      cases hend with
      | first _ later => exact .first fault later
      | unnamed _ field h => exact .unnamed _ field h
  | ok d =>
      obtain ⟨u, hemit, -⟩ := emitProgram_run hrun
      rw [hemit]
      cases hend with
      | ok => exact .ok _

end Emission

end ClassScript
