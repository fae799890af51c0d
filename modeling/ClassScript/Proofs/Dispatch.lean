import ClassScript.Proofs.ClassAssignment
import ClassScript.Proofs.ProgramRun
import Mathlib.Data.List.Find

/-!
Calls on objects find the right method. A look-up along the prototypes meets the
classes of a lineage from the nearest on, and stops at the first whose document
assigns the slot. Since slots tell signatures, this is the first class that
declares the method.
-/

namespace ClassScript

/-- Whether the class declares an ordinary method of objects of that name and
type. -/
def Class.declaresOrdinary (c : Class) (name : String) (type : Signature) : Bool :=
  c.methods.any fun m =>
    !m.isStatic && decide (m.role = .ordinary ∧ m.name = name ∧ m.type.types = type.types)

namespace Emission

open Output

/-- The states that emissions come to, step by step and whether or not the steps
succeed. -/
inductive Job.Reaches (job : Job) : State → Prop where
  | initial : job.Reaches .initial
  | step {α : Type} {x : Emit α} {s t : State} {result : Except EmitError α} (h : job.Reaches s)
      (hx : Assembled job True x) (hrun : x.run s = (result, t)) : job.Reaches t

/-- The class is emitted as this document, at whatever point of an emission. -/
def Job.EmitsAs (job : Job) (c : Class) (d : Doc) : Prop :=
  ∃ s t, job.Reaches s ∧ (lowerOrCopy job c).run s = (.ok d, t)

theorem Job.Reaches.allMadeOf {job : Job} {s : State} (h : job.Reaches s) : AllMadeOf s.fieldNames := by
  induction h with
  | initial => exact nofun
  | step _ hx hrun ih => exact hx.allMadeOf ih hrun

section Slots

variable {m : Method} {name : String} {type : Signature}

/-- A slot of a name and a descriptor is that of an ordinary method. -/
theorem methodName_eq_iff_ordinary (hm : m.Regular) (hname : '(' ∉ name.toList ∧ '<' ∉ name.toList)
    (htype : type.Regular) :
    methodName m = name ++ type.descriptor ↔
      m.role = .ordinary ∧ m.name = name ∧ m.type.types = type.types := by
  rw [Method.methodName_eq_front hm,
    append_descriptor_eq_iff (Method.parenthesis_notMem_front hm) hname.1 hm.type htype,
    ← and_assoc, and_congr_left_iff]
  intro _
  have hinit : ∀ {front back : String}, front ++ "<" ++ back ≠ name := by
    rintro front back rfl
    exact hname.2 (by simp)
  have hnames := hm.name
  cases hrole : m.role with
  | ordinary => simp [Method.front, hrole]
  | instanceInit =>
      rw [hrole] at hnames
      have hfront : m.front = m.owner.text ++ "<" ++ "init>" := by
        rw [Method.front, if_pos hrole, show m.name = "<init>" from hnames, String.append_assoc]
        rfl
      rw [hfront]
      exact iff_of_false hinit fun h => by cases h.1
  | staticInit =>
      rw [hrole] at hnames
      have hfront : m.front = "" ++ "<" ++ "clinit>" := by
        rw [Method.front, if_neg (by simp [hrole]), show m.name = "<clinit>" from hnames]
        rfl
      rw [hfront]
      exact iff_of_false hinit fun h => by cases h.1

/-- A class assigns the prototype slot of a signature if it declares an ordinary
method of objects for it. -/
theorem assigns_iff_declares {job : Job} {c : Class} {d : Doc} (hregular : job.program.Regular)
    (hc : c ∈ job.program.classes) (hverbatim : c.verbatim = none) (hemits : job.EmitsAs c d)
    (hname : '(' ∉ name.toList ∧ '<' ∉ name.toList) (htype : type.Regular) :
    d.assigns (prototypeSlot c.name (name ++ type.descriptor)) = c.declaresOrdinary name type := by
  obtain ⟨s, t, hs, hrun⟩ := hemits
  rw [lowerOrCopy, hverbatim] at hrun
  have hparenthesis : '(' ∈ (name ++ type.descriptor).toList := by
    rw [String.toList_append, Signature.toList_descriptor]
    simp
  rw [lowerClass_assigns hregular hc hs.allMadeOf hrun hparenthesis, Class.declaresOrdinary]
  rw [Bool.eq_iff_iff, List.any_eq_true, List.any_eq_true]
  refine exists_congr fun m => and_congr_right fun hm => ?_
  rw [decide_eq_decide.2 (methodName_eq_iff_ordinary (hregular.methods c hc m hm) hname htype)]

end Slots

/-- Slots tell the signatures of methods and the classes of constructors, and the
first class of a lineage that assigns the prototype slot of a name and a type is
the first that declares an ordinary method of objects for them. -/
theorem slots_tell_methods (job : Job) (hregular : job.program.Regular) :
    (∀ c ∈ job.program.classes, ∀ m ∈ c.methods, ∀ c' ∈ job.program.classes, ∀ m' ∈ c'.methods,
      (methodName m = methodName m' ↔
        ((m.role ≠ .instanceInit ∧ m'.role ≠ .instanceInit ∧ m.name = m'.name) ∨
          (m.role = .instanceInit ∧ m'.role = .instanceInit ∧ m.owner = m'.owner)) ∧
        m.type.types = m'.type.types)) ∧
    ∀ c ∈ job.program.classes, (∀ d ∈ job.program.lineage c, d.verbatim = none) →
      ∀ docs : Class → Doc, (∀ d ∈ job.program.lineage c, job.EmitsAs d (docs d)) →
      ∀ (name : String) (type : Signature), '(' ∉ name.toList ∧ '<' ∉ name.toList → type.Regular →
        (job.program.lineage c).find? (fun d =>
            (docs d).assigns (prototypeSlot d.name (name ++ type.descriptor))) =
          (job.program.lineage c).find? (·.declaresOrdinary name type) := by
  refine ⟨fun c hc m hm c' hc' m' hm' => Method.methodName_eq_iff (hregular.methods c hc m hm)
    (hregular.methods c' hc' m' hm'), fun c hc hverbatim docs hdocs name type hname htype => ?_⟩
  refine List.find?_congr fun d hd => ?_
  exact assigns_iff_declares hregular (Program.mem_classes_of_mem_lineage hc hd) (hverbatim d hd)
    (hdocs d hd) hname htype

section Overriding

/-- An ordinary method of objects without parameters, result and body. -/
def bodiless (owner name : String) : Method where
  name := name
  owner := ⟨owner⟩
  type := ⟨[], .void⟩
  isStatic := false
  role := .ordinary
  nativeName := none
  body := none
  bodyRef := none
  natives := []
  fluent := false

/-- A class of two methods, and one below it that overrides one of them. -/
def overridden : Class := baseClass [bodiless "app.Base" "run", bodiless "app.Base" "stop"]

def overrider : Class := subClass [bodiless "app.Sub" "stop"]

def overridingJob : Job where
  program := inheriting [bodiless "app.Base" "run", bodiless "app.Base" "stop"]
    [bodiless "app.Sub" "stop"]
  config := {}
  templater := plainTemplater

theorem regular_bodiless {owner name : String} (howner : (ClassName.mk owner).Regular)
    (hname : '(' ∉ name.toList ∧ '<' ∉ name.toList) : (bodiless owner name).Regular where
  nativeName := rfl
  owner := howner
  type := ⟨by simp [bodiless], trivial⟩
  name := hname

theorem regular_overriding : overridingJob.program.Regular where
  classes := by
    simp [overridingJob, inheriting, baseClass, subClass, Class.bare, ClassName.Regular]
  methods := by
    have hbase : (ClassName.mk "app.Base").Regular := by simp [ClassName.Regular]
    have hsub : (ClassName.mk "app.Sub").Regular := by simp [ClassName.Regular]
    simp [overridingJob, inheriting, baseClass, subClass, Class.bare, regular_bodiless, hbase, hsub]
  fields := by
    simp [overridingJob, inheriting, baseClass, subClass, Class.bare]

/-- Methods without bodies are bound to traps. -/
theorem run_bodiless (job : Job) (n : ClassName) {methods : List Method}
    (h : ∀ m ∈ methods, ∃ owner name, m = bodiless owner name) (s : State) :
    ∃ docs, (methods.mapM (lowerMethod job n)).run s = (.ok docs, s) := by
  induction methods with
  | nil => exact ⟨[], rfl⟩
  | cons m rest ih =>
      obtain ⟨owner, name, rfl⟩ := h m List.mem_cons_self
      obtain ⟨docs, hdocs⟩ := ih fun m hm => h m (List.mem_cons_of_mem _ hm)
      have hfirst : (lowerMethod job n (bodiless owner name)).run s =
          (.ok (bindStub (methodSlot n (bodiless owner name))), s) := rfl
      refine ⟨bindStub (methodSlot n (bodiless owner name)) :: docs, ?_⟩
      rw [List.mapM_cons, run_bind_ok hfirst, run_bind_ok hdocs]
      rfl

/-- So a class of such methods is emitted. -/
theorem exists_emitsAs {job : Job} (c : Class) {parent : String} {related : List Class}
    (hmethods : ∀ m ∈ c.methods, ∃ owner name, m = bodiless owner name)
    (hparent : (parentBase job c).run .initial = (.ok parent, .initial))
    (hfields : c.instanceFields ++ (job.program.ancestors c).flatMap (·.instanceFields) = [])
    (hrelated : job.program.related c = .ok related) (hstatic : c.staticFields = [])
    (hverbatim : c.verbatim = none) : ∃ d, job.EmitsAs c d := by
  obtain ⟨inits, hinits⟩ := run_bodiless job c.name
    (fun m hm => hmethods m (List.mem_filter.1 hm).1 : ∀ m ∈ c.methods.filter (·.isInit), _) .initial
  obtain ⟨others, hothers⟩ := run_bodiless job c.name
    (fun m hm => hmethods m (List.mem_filter.1 hm).1 : ∀ m ∈ c.methods.filter (!·.isInit), _) .initial
  obtain ⟨staticInit, -, hrun⟩ :=
    exists_lowerClass_run hparent hfields hrelated hstatic hinits hothers
  refine ⟨fieldlessDoc c parent related staticInit inits others, .initial, .initial, .initial, ?_⟩
  rw [lowerOrCopy, hverbatim]
  exact hrun

/-- What is not overridden is found above, and what is overridden is not. -/
theorem slots_tell_methods_overriding : overridingJob.program.Regular ∧
    ∃ docs : Class → Doc,
      (∀ d ∈ overridingJob.program.lineage overrider,
        overridingJob.EmitsAs d (docs d)) ∧
      (overridingJob.program.lineage overrider).find? (fun d =>
          (docs d).assigns (prototypeSlot d.name ("run" ++ "()V"))) =
        some overridden ∧
      (overridingJob.program.lineage overrider).find? (fun d =>
          (docs d).assigns (prototypeSlot d.name ("stop" ++ "()V"))) =
        some overrider := by
  have hlineage : overridingJob.program.lineage overrider = [overrider, overridden] :=
    congrArg (overrider :: ·) (ancestors_subClass _ _)
  obtain ⟨upper, hupper⟩ : ∃ d, overridingJob.EmitsAs overridden d := by
    refine exists_emitsAs _ (by simp [overridden, baseClass]) rfl ?_ (related_baseClass _ _) rfl rfl
    rw [overridden, overridingJob, ancestors_baseClass]
    rfl
  obtain ⟨lower, hlower⟩ : ∃ d, overridingJob.EmitsAs overrider d := by
    refine exists_emitsAs _ (by simp [overrider, subClass]) rfl ?_ (related_subClass _ _) rfl rfl
    rw [overrider, overridingJob, ancestors_subClass]
    rfl
  have hdocs : ∀ d ∈ overridingJob.program.lineage overrider,
      overridingJob.EmitsAs d (if d.name = ⟨"app.Sub"⟩ then lower else upper) := by
    rw [hlineage]
    exact List.forall_mem_cons.2 ⟨hlower, List.forall_mem_singleton.2 hupper⟩
  have hmember : overrider ∈ overridingJob.program.classes :=
    List.mem_cons_of_mem _ List.mem_cons_self
  have hverbatim : ∀ d ∈ overridingJob.program.lineage overrider,
      d.verbatim = none := by
    rw [hlineage]
    simp [overrider, overridden, subClass, baseClass, Class.bare]
  have hfind := (slots_tell_methods overridingJob regular_overriding).2 _ hmember hverbatim _ hdocs
  refine ⟨regular_overriding, _, hdocs, ?_, ?_⟩
  · refine (hfind "run" ⟨[], .void⟩ (by decide) ⟨by simp, trivial⟩).trans ?_
    rw [hlineage]
    rfl
  · refine (hfind "stop" ⟨[], .void⟩ (by decide) ⟨by simp, trivial⟩).trans ?_
    rw [hlineage]
    rfl

end Overriding

end Emission

end ClassScript
