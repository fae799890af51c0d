import ClassScript.Proofs.EmissionOrder
import ClassScript.Proofs.PoolHistory
import ClassScript.Proofs.RevisedLowering

/-!
Programs that list the same classes in different orders. Every question about the
hierarchy has the same answer in both, and every class and method is emitted the
same; the order shows in nothing but the order of emission and what comes of it.
-/

namespace ClassScript

open Emission

/-- The second program lists the classes of the first in some order. -/
structure Program.Reordered (p q : Program) : Prop where
  classes : q.classes.Perm p.classes
  entry : q.entry = p.entry
  customMains : q.customMains = p.customMains

namespace Program.Reordered

variable {p q : Program} (h : p.Reordered q)

include h

theorem revised : p.Revised id q where
  classes := by simpa using h.classes
  entry := h.entry
  customMains := h.customMains
  bodies := revisesBodies_id

theorem class? (name : ClassName) : q.class? name = p.class? name := by
  simpa using h.revised.class? name

theorem ancestors (c : Class) : q.ancestors c = p.ancestors c := by
  simpa using h.revised.ancestors c

theorem related (c : Class) : q.related c = p.related c := by
  have hrelated := h.revised.related c
  rw [List.map_id_fun] at hrelated
  cases hp : p.related c <;> simpa [hp, Except.map] using hrelated

theorem findMethod (owner : ClassName) (name descriptor : String) :
    q.findMethod owner name descriptor = p.findMethod owner name descriptor :=
  h.revised.findMethod_eq owner name descriptor

theorem resolve (r : MethodRef) : q.resolve r = p.resolve r :=
  h.findMethod ..

theorem emissionOrder_perm : q.emissionOrder.Perm p.emissionOrder :=
  Program.emissionOrder_perm.trans ((h.classes.filter _).trans Program.emissionOrder_perm.symm)

end Program.Reordered

namespace Emission

/-- The memos and the pools of both hold the same. -/
structure SameLookups (s t : State) : Prop where
  fieldNames : ∀ r, s.fieldNames.lookup r = t.fieldNames.lookup r
  pool : s.pool = t.pool

/-- A field is named alike from memos that hold the same. -/
theorem agree_nameField (p : Program) (fuel : Nat) (r : FieldRef) :
    Agree (fun known known' => ∀ r : FieldRef, known.lookup r = known'.lookup r) Eq
      (nameField p fuel r) (nameField p fuel r) := by
  induction fuel generalizing r with
  | zero => exact .throw r
  | succ fuel ih =>
      rw [nameField]
      refine Agree.get.bind fun known known' hknown => ?_
      rw [hknown r]
      cases known'.lookup r with
      | some name => exact .pure rfl
      | none =>
          refine (Agree.mapMEq fun d _ => ih d.reference).bindEq fun taken => ?_
          have hmodify : Agree (fun known known' : FieldNames => ∀ r, known.lookup r = known'.lookup r)
              Eq (modify (assignNames taken (plainFieldName r.name) (ownNamesakes p r)) :
                ExceptT FieldRef (StateM FieldNames) PUnit)
              (modify (assignNames taken (plainFieldName r.name) (ownNamesakes p r))) := by
            intro known known' hknown
            refine .ok rfl fun other => ?_
            rw [assignNames_append, assignNames_append _ _ _ known', List.lookup_append,
              List.lookup_append, hknown]
          refine hmodify.bindEq fun _ => Agree.get.bind fun known known' hknown => ?_
          rw [hknown r]
          cases known'.lookup r with
          | some name => exact .pure rfl
          | none => exact .throw r

/-- A step ends alike from states whose memos and pools hold the same. -/
theorem Assembled.agree_of_lookups {job : Job} {noting : Prop} {α : Type} {x : Emit α}
    (h : Assembled job noting x) : Agree SameLookups Eq x x := by
  refine h.agree ?_ ?_ ?_ ?_
  · intro v s t hst
    rcases run_literal v with ⟨text, rfl⟩ | hrun
    · rw [run_literal_string, run_literal_string, hst.pool]
      exact .ok rfl ⟨hst.fieldNames, rfl⟩
    · rw [hrun, hrun]
      exact .ok rfl hst
  · intro site text s t hst
    rw [run_render, run_render]
    cases job.templater site text with
    | ok out => exact .ok rfl ⟨hst.fieldNames, hst.pool⟩
    | error e => exact .error ⟨hst.fieldNames, hst.pool⟩
  · intro f s t hst
    rw [Job.declaredFieldName, run_bind_ok (run_get s), run_bind_ok (run_get t)]
    have hnamed := agree_nameField job.program (namingDepth job.program) f.reference _ _ hst.fieldNames
    generalize (nameField job.program (namingDepth job.program) f.reference).run s.fieldNames = named
      at hnamed ⊢
    generalize (nameField job.program (namingDepth job.program) f.reference).run t.fieldNames = named'
      at hnamed ⊢
    cases hnamed with
    | ok hname hknown =>
        subst hname
        exact .ok rfl ⟨hknown, hst.pool⟩
    | error hknown => exact .error ⟨hknown, hst.pool⟩
  · exact fun _ level message values s t hst => .ok rfl ⟨hst.fieldNames, hst.pool⟩

section Reordering

variable {job : Job} {q : Program} (h : job.program.Reordered q)

include h

theorem sharesAlike_reordered (m : Method) : SharesAlike job.program q m := by
  intro r _
  rw [h.resolve]

theorem lowerMethod_reordered (owner : ClassName) (m : Method) :
    lowerMethod (job.on q) owner m = lowerMethod job owner m :=
  lowerMethod_revised h.revised owner (sharesAlike_reordered h m)

theorem lowerClass_reordered (c : Class) : lowerClass (job.on q) c = lowerClass job c :=
  lowerClass_revised h.revised rfl fun m _ => sharesAlike_reordered h m

/-- A request is answered by the same step for both programs. -/
theorem Request.run_reordered (request : Request) : request.run (job.on q) = request.run job := by
  cases request with
  | ofClass c => simp only [Request.run, emitClass, lowerClass_reordered h]
  | ofMethod c m => simp only [Request.run, emitMethod, lowerMethod_reordered h]

/-- So is a whole program whose classes come in the same order. -/
theorem emitProgram_reordered (horder : q.emissionOrder = job.program.emissionOrder) :
    emitProgram (job.on q) = emitProgram job := by
  have hclass : lowerOrCopy (job.on q) = lowerOrCopy job := by
    funext c
    simp only [lowerOrCopy, lowerClass_reordered h]
  have hmain : ∀ target, q.customMain? target = job.program.customMain? target := fun target => by
    rw [Program.customMain?, Program.customMain?, h.customMains]
  have hfragment : resolveFragment (job.on q) = resolveFragment job := rfl
  have hstart : startStatement (job.on q) = startStatement job := rfl
  simp only [emitProgram, lowerProgram, Job.on_program, Job.on_config, horder, hclass, h.entry,
    h.class?, hmain, hfragment, hstart]
  rfl

end Reordering

/-- The order in which a program lists its classes does not influence what a class
or method becomes. For the same classes in another order, all look-ups and walks of
the hierarchy have the same answers, and from states with the same memo and pool
every request has the same answer and leaves the same memo and pool. The order of
emission may be another one of the same classes; if it is the same, so is the whole
emission. -/
theorem classOrder_irrelevant (job : Job) {q : Program} (h : job.program.Reordered q) :
    ((∀ name, q.class? name = job.program.class? name) ∧
      (∀ c, q.ancestors c = job.program.ancestors c) ∧
      (∀ c, q.related c = job.program.related c) ∧
      (∀ r, q.findField r = job.program.findField r) ∧
      (∀ owner name descriptor,
        q.findMethod owner name descriptor = job.program.findMethod owner name descriptor)) ∧
    (∀ s t, SameLookups s t → ∀ request : Request,
      Matching SameLookups Eq ((request.run job).runFrom s) ((request.run (job.on q)).runFrom t)) ∧
    q.emissionOrder.Perm job.program.emissionOrder ∧
    (q.emissionOrder = job.program.emissionOrder → emitProgram (job.on q) = emitProgram job) := by
  refine ⟨⟨h.class?, h.ancestors, h.related, h.revised.findField, h.findMethod⟩, ?_,
    h.emissionOrder_perm, emitProgram_reordered h⟩
  intro s t hst request
  rw [Request.run_reordered h]
  exact (request.assembled job).agree_of_lookups s t hst

/-- The classes of the line above, with superclasses first. -/
def unshadowing : Program where
  classes := shadowing.classes.reverse
  entry := shadowing.entry
  customMains := []
  distinct := by decide
  hasEntry := by decide

/-- Listed from the top or from the bottom, the lowest class has the same ancestors
and becomes the same, and a method of it the same text, also with a memo that holds
an entry twice. -/
theorem classOrder_irrelevant_reversed :
    let job : Job := ⟨shadowing, {}, plainTemplater⟩
    let leaf := shadowing.classes[0]
    let named : FieldRef × String := (⟨⟨"Base"⟩, "a$", .int⟩, "_a_")
    let s : State := { State.initial with fieldNames := [named] }
    let t : State := { State.initial with fieldNames := [named, named] }
    let method : Request := .ofMethod leaf (.mentioning "Leaf" "a" .nop)
    shadowing.Reordered unshadowing ∧ SameLookups s t ∧
      unshadowing.ancestors leaf = shadowing.ancestors leaf ∧
      Matching SameLookups Eq (((Request.ofClass leaf).run job).runFrom s)
        (((Request.ofClass leaf).run (job.on unshadowing)).runFrom t) ∧
      ∃ text u v, (method.run job).runFrom s = (.ok text, u) ∧
        (method.run (job.on unshadowing)).runFrom t = (.ok text, v) ∧ SameLookups u v := by
  intro job leaf named s t method
  have h : shadowing.Reordered unshadowing := ⟨shadowing.classes.reverse_perm, rfl, rfl⟩
  have hst : SameLookups s t := by
    refine ⟨fun r => ?_, rfl⟩
    change [named].lookup r = [named, named].lookup r
    rw [List.lookup_cons, List.lookup_cons, List.lookup_cons]
    cases r == named.1 <;> rfl
  obtain ⟨⟨-, hancestors, -⟩, hanswers, -⟩ := classOrder_irrelevant job h
  refine ⟨h, hst, hancestors leaf, hanswers s t hst (.ofClass leaf), ?_⟩
  have hmethod := hanswers s t hst method
  obtain ⟨text, u, hrun⟩ : ∃ text u, (method.run job).runFrom s = (.ok text, u) := ⟨_, _, rfl⟩
  rw [hrun] at hmethod
  generalize hrun' : (method.run (job.on unshadowing)).runFrom t = r at hmethod
  cases hmethod with
  | ok hvalue hstate => exact ⟨text, u, _, hrun, hvalue ▸ rfl, hstate⟩

end Emission

end ClassScript
