import ClassScript.Emission.Class
import ClassScript.Proofs.AlikeBodies
import ClassScript.Proofs.Revision

/-!
Lowering for a program and for a revision of it. Lowering a body asks the program
for classes, fields and methods, but never for the body of another method, so it
is the same step for both programs. Methods that find the same body, and classes
with such methods only, are lowered by the same steps, too.
-/

namespace ClassScript

theorem List.mapM_congr_mem {m : Type → Type} [Monad m] [LawfulMonad m] {α β : Type}
    {f g : α → m β} {items : List α} (h : ∀ a ∈ items, f a = g a) : items.mapM f = items.mapM g := by
  induction items with
  | nil => rfl
  | cons a rest ih =>
      rw [List.mapM_cons, List.mapM_cons, h a List.mem_cons_self,
        ih fun b hb => h b (List.mem_cons_of_mem _ hb)]

namespace Emission

open Output

/-- The same job for another program. -/
def Job.on (job : Job) (q : Program) : Job := { job with program := q }

@[simp]
theorem Job.on_program (job : Job) (q : Program) : (job.on q).program = q := rfl

@[simp]
theorem Job.on_config (job : Job) (q : Program) : (job.on q).config = job.config := rfl

section Names

variable {f : Class → Class} {p q : Program} (h : p.Revised f q)

include h

theorem inheritedNamesakes_revised (r : FieldRef) :
    inheritedNamesakes q r = inheritedNamesakes p r := by
  unfold inheritedNamesakes
  rw [h.class?]
  cases p.class? r.owner with
  | none => rfl
  | some c =>
      have hnamed : ∀ d : Class, (f d).fieldsNamed r.name = d.fieldsNamed r.name := fun d => by
        rw [Class.fieldsNamed, Class.fieldsNamed, h.bodies.fields]
      simp only [Option.map_some, h.ancestors, ← List.map_reverse, List.flatMap_map, hnamed]

theorem ownNamesakes_revised (r : FieldRef) : ownNamesakes q r = ownNamesakes p r := by
  unfold ownNamesakes
  rw [h.class?]
  cases p.class? r.owner with
  | none => rfl
  | some c => simp only [Option.map_some, Class.fieldsNamed, h.bodies.fields]

theorem nameField_revised (fuel : Nat) (r : FieldRef) : nameField q fuel r = nameField p fuel r := by
  induction fuel generalizing r with
  | zero => rfl
  | succ fuel ih =>
      simp only [nameField, inheritedNamesakes_revised h, ownNamesakes_revised h, ih]

theorem namingDepth_revised : namingDepth q = namingDepth p := by
  have hfields : (q.classes.flatMap (·.fields)).Perm (p.classes.flatMap (·.fields)) := by
    have hperm := h.classes.flatMap_right (·.fields)
    rw [List.flatMap_map] at hperm
    simpa only [h.bodies.fields] using hperm
  rw [namingDepth, namingDepth, hfields.length_eq]

/-- The method that a reference means has a revision, or neither program has one. -/
theorem resolve_revised (r : MethodRef) :
    (p.resolve r = none ∧ q.resolve r = none) ∨
      ∃ m m', p.resolve r = some m ∧ q.resolve r = some m' ∧ m'.bodiless = m.bodiless := by
  have hsame := h.resolve r
  cases hm : p.resolve r with
  | none =>
      rw [hm, Option.map_none, Option.map_eq_none_iff] at hsame
      exact .inl ⟨rfl, hsame⟩
  | some m =>
      rw [hm, Option.map_some, Option.map_eq_some_iff] at hsame
      obtain ⟨m', hm', hbody⟩ := hsame
      exact .inr ⟨m, m', rfl, hm', hbody⟩

end Names

/-- What calls ask of a method is not its body. -/
theorem slotName_of_bodiless {m m' : Method} (h : m'.bodiless = m.bodiless) (r : MethodRef) :
    slotName m' r = slotName m r :=
  (congrArg (slotName · r) h :)

theorem methodName_of_bodiless {m m' : Method} (h : m'.bodiless = m.bodiless) :
    methodName m' = methodName m :=
  (congrArg methodName h :)

theorem owner_of_bodiless {m m' : Method} (h : m'.bodiless = m.bodiless) : m'.owner = m.owner :=
  (congrArg Method.owner h :)

section Nodes

variable {job : Job} {f : Class → Class} {q : Program} (h : job.program.Revised f q)

include h

theorem declaredFieldName_revised (d : Field) :
    (job.on q).declaredFieldName d = job.declaredFieldName d := by
  simp only [Job.declaredFieldName, Job.on_program, nameField_revised h, namingDepth_revised h]

theorem field_revised (r : FieldRef) : (job.on q).field r = job.field r := by
  simp only [Job.field, Job.on_program, h.findField]

theorem fieldName_revised (r : FieldRef) : (job.on q).fieldName r = job.fieldName r := by
  simp only [Job.fieldName, field_revised h, declaredFieldName_revised h]

theorem staticField_revised (r : FieldRef) : (job.on q).staticField r = job.staticField r := by
  simp only [Job.staticField, field_revised h, declaredFieldName_revised h]

theorem instanceTest_revised (value : String) (type : Ty) :
    (job.on q).instanceTest value type = job.instanceTest value type := by
  cases type with
  | ref name =>
      simp only [Job.instanceTest, Job.on_program, h.class?]
      cases job.program.class? name with
      | none => rfl
      | some c =>
          simp only [Option.map_some, Class.isInterface, h.bodies.kind, h.bodies.id]
          rfl
  | _ => rfl

/-- So both jobs give every expression the same answers. -/
theorem alikeNodes_revised : AlikeNodes Eq job (job.on q) where
  literal _ := .refl _
  rawCall _ _ _ _ := .refl _
  fieldName r := fieldName_revised h r ▸ .refl _
  staticField r := staticField_revised h r ▸ .refl _
  instanceTest := instanceTest_revised h
  resolve r := by
    rw [Job.on_program]
    rcases resolve_revised h r with ⟨hnone, hnone'⟩ | ⟨m, m', hm, hm', hbody⟩
    · rw [hnone, hnone']
      exact .none
    · rw [hm, hm']
      exact .some ⟨owner_of_bodiless hbody, methodName_of_bodiless hbody, slotName_of_bodiless hbody⟩

end Nodes

section Bodies

variable {job : Job} {f : Class → Class} {q : Program}

/-- A statement is lowered by the same step for both programs. -/
theorem lowerStmt_revised (h : job.program.Revised f q) (ctx : Context) (chain : Option Nat)
    (s : Stmt) : lowerStmt (job.on q) ctx chain s = lowerStmt job ctx chain s :=
  ((alikeNodes_revised h).sameStmt Congruence.eq ⟨rfl, fun _ => rfl⟩ ctx s chain).eq.symm

theorem staticInitTargets_revised (h : job.program.Revised f q) (owner : ClassName) (body : Body) :
    staticInitTargets q owner body = staticInitTargets job.program owner body := by
  have htouched : touchedBy q = touchedBy job.program := by
    funext e
    cases e with
    | staticField r => simp only [touchedBy, h.findField]
    | callStatic r args =>
        simp only [touchedBy]
        split
        · rfl
        · rcases resolve_revised h r with ⟨hnone, hnone'⟩ | ⟨m, m', hm, hm', hbody⟩
          · rw [hnone, hnone']
          · rw [hm, hm', Option.map_some, Option.map_some, owner_of_bodiless hbody]
    | _ => rfl
  have hwritten : writtenBy q = writtenBy job.program := by
    funext s
    cases s with
    | setStaticField r value => simp only [writtenBy, h.findField]
    | _ => rfl
  have hpresent : ∀ name, (q.class? name).any (!·.isNative) =
      (job.program.class? name).any (!·.isNative) := fun name => by
    rw [h.class?]
    cases job.program.class? name with
    | none => rfl
    | some c => simp only [Option.map_some, Option.any_some, h.bodies.isNative]
  simp only [staticInitTargets, htouched, hwritten, hpresent]

theorem lowerBody_revised (h : job.program.Revised f q) (owner : ClassName) (m : Method) (body : Body) :
    lowerBody (job.on q) owner m body = lowerBody job owner m body := by
  simp only [lowerBody, lowerStmt_revised h, Job.on_program, staticInitTargets_revised h]

end Bodies

/-- The method shares the same body with another one in both programs, if any. -/
def SharesAlike (p q : Program) (m : Method) : Prop :=
  ∀ r, m.bodyRef = some r → (q.resolve r).bind (·.body) = (p.resolve r).bind (·.body)

section Methods

variable {job : Job} {f : Class → Class} {q : Program} (h : job.program.Revised f q)

include h

/-- A method with the same body of its own or of another method is lowered by the
same step for both programs. -/
theorem lowerMethod_revised (owner : ClassName) {m : Method}
    (hshared : SharesAlike job.program q m) : lowerMethod (job.on q) owner m = lowerMethod job owner m := by
  have hbody : generatedBody? q m = generatedBody? job.program m := by
    unfold generatedBody?
    cases m.body with
    | some body => rfl
    | none =>
        cases hr : m.bodyRef with
        | none => rfl
        | some r => exact hshared r hr
  have hgenerated : lowerGenerated (job.on q) owner m = lowerGenerated job owner m := by
    simp only [lowerGenerated, Job.on_program, hbody, lowerBody_revised h]
  have hnative : lowerNative (job.on q) = lowerNative job := rfl
  simp only [lowerMethod, bindMethod, hgenerated, hnative, Job.on_config]

theorem fieldDefault_revised : fieldDefault (job.on q) = fieldDefault job := by
  funext d
  simp only [fieldDefault, declaredFieldName_revised h]

theorem parentBase_revised (c : Class) : parentBase (job.on q) (f c) = parentBase job c := by
  simp only [parentBase, h.bodies.parent, Job.on_program, h.isNone_class?]

theorem relatedClasses_revised (c : Class) :
    relatedClasses (job.on q) (f c) = List.map f <$> relatedClasses job c := by
  simp only [relatedClasses, Job.on_program, h.related]
  cases job.program.related c <;> rfl

theorem lowerStaticInit_revised (c : Class) :
    lowerStaticInit (job.on q) (f c) = lowerStaticInit job c := by
  have hinit : (f c).staticInit?.map Method.bodiless = c.staticInit?.map Method.bodiless := by
    have hfind : ∀ methods : List Method,
        (methods.find? (·.role = .staticInit)).map Method.bodiless =
          (methods.map Method.bodiless).find? (·.role = .staticInit) := by
      intro methods
      rw [List.find?_map]
      rfl
    rw [Class.staticInit?, Class.staticInit?, hfind, hfind, h.bodies.methods]
  have hfields : (f c).staticFields = c.staticFields := by
    rw [Class.staticFields, Class.staticFields, h.bodies.fields]
  simp only [lowerStaticInit, h.bodies.name, hfields, fieldDefault_revised h]
  cases hm : c.staticInit? with
  | none =>
      rw [hm, Option.map_none, Option.map_eq_none_iff] at hinit
      rw [hinit]
  | some m =>
      rw [hm, Option.map_some, Option.map_eq_some_iff] at hinit
      obtain ⟨m', hm', hbody⟩ := hinit
      rw [hm']
      simp only [methodName_of_bodiless hbody, Option.isNone_some]

end Methods

/-- The document of a class up to its methods. -/
def lowerClassFront (job : Job) (c : Class) : Emit Doc := do
  let base := c.name.identifier
  let parent ← parentBase job c
  let fields := c.instanceFields ++ (job.program.ancestors c).flatMap (·.instanceFields)
  let defaults ← fields.mapM (fieldDefault job)
  let related ← relatedClasses job c
  let ids := related.map fun d => Text.natural d.id.toNat
  let staticInit ← lowerStaticInit job c
  return (if c.isAbstract then .line "// ABSTRACT" else .empty) ++
    .block ("function " ++ base ++ "()") .empty "" ++
    .line (base ++ ".prototype = Object.create(" ++ parent ++ ".prototype);") ++
    .line (base ++ ".prototype.constructor = " ++ base ++ ";") ++
    Doc.lines (defaults.map fun text => base ++ ".prototype" ++ text ++ ";") ++
    .line (base ++ ".prototype.$$CLASS_ID = " ++ Text.natural c.id.toNat ++ ";") ++
    .line (base ++ ".prototype.$$CLASS_IDS = [" ++ ",".intercalate ids ++ "];") ++
    staticInit

/-- A class is lowered up to its methods, and then these are: the initialisers
first. -/
theorem lowerClass_eq (job : Job) (c : Class) : lowerClass job c = do
    let front ← lowerClassFront job c
    let inits ← (c.methods.filter (·.isInit)).mapM (lowerMethod job c.name)
    let others ← (c.methods.filter (!·.isInit)).mapM (lowerMethod job c.name)
    return front ++ Doc.concat inits ++ Doc.concat others := by
  simp only [lowerClass, lowerClassFront, bind_assoc, pure_bind]

section Classes

variable {job : Job} {f : Class → Class} {q : Program} (h : job.program.Revised f q)

include h

theorem lowerClassFront_revised (c : Class) :
    lowerClassFront (job.on q) (f c) = lowerClassFront job c := by
  have hinstance : ∀ d : Class, (f d).instanceFields = d.instanceFields := fun d => by
    rw [Class.instanceFields, Class.instanceFields, h.bodies.fields]
  have habstract : (f c).isAbstract = c.isAbstract := by
    rw [Class.isAbstract, Class.isAbstract, h.bodies.kind]
  simp only [lowerClassFront, parentBase_revised h, relatedClasses_revised h,
    lowerStaticInit_revised h, Job.on_program, h.ancestors, List.flatMap_map, hinstance,
    fieldDefault_revised h, h.bodies.name, h.bodies.id, habstract, map_eq_pure_bind, bind_assoc,
    pure_bind, List.map_map, Function.comp_def]

/-- A class that is not revised is lowered by the same step for both programs, if
its methods find the same bodies. -/
theorem lowerClass_revised {c : Class} (hsame : f c = c)
    (hshared : ∀ m ∈ c.methods, SharesAlike job.program q m) :
    lowerClass (job.on q) c = lowerClass job c := by
  have hfront := lowerClassFront_revised h c
  rw [hsame] at hfront
  have hmethods : ∀ keep : Method → Bool,
      (c.methods.filter keep).mapM (lowerMethod (job.on q) c.name) =
        (c.methods.filter keep).mapM (lowerMethod job c.name) := fun keep =>
    List.mapM_congr_mem fun m hm => lowerMethod_revised h c.name (hshared m (List.mem_filter.1 hm).1)
  rw [lowerClass_eq, lowerClass_eq, hfront, hmethods, hmethods]

end Classes

end Emission

end ClassScript
