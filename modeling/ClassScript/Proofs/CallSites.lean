import ClassScript.Proofs.Assignment
import ClassScript.Proofs.ProgramRun
import ClassScript.Proofs.QuotedText

/-!
Which slot a call selects, and which one its method is stored in. Both come from
a name and a descriptor, once those of the reference and once those of the method
that it means, and these are the same. The class in front of a constructor is the
reference's in one and the method's in the other, so that a constructor is only
reached through references to its own class.
-/

namespace ClassScript

/-- Every method belongs to the class that lists it. -/
def Program.OwnsMethods (p : Program) : Prop :=
  ∀ c ∈ p.classes, ∀ m ∈ c.methods, m.owner = c.name

/-- Whether the reference puts the same class in front of the method as the
method itself. Only constructors have one in front. -/
def Method.NamedBy (m : Method) (r : MethodRef) : Prop :=
  m.nativeName.isSome ∨ m.role ≠ .instanceInit ∨ r.owner = m.owner

/-- The method that a call selects by its slot. Raw calls and calls that skip
overriding do not. -/
def Expr.called? : Expr → Option MethodRef
  | .callStatic r _ => if Emission.isRawCall r then none else some r
  | .callInstance _ r _ => some r
  | .construct _ r _ => some r
  | _ => none

/-- A reference means a method of its own name and descriptor. -/
theorem Program.answers_of_resolve {p : Program} {r : MethodRef} {m : Method}
    (h : p.resolve r = some m) : m.name = r.name ∧ m.descriptor = r.descriptor := by
  simp only [resolve, findMethod, Option.bind_eq_bind, Option.bind_eq_some_iff] at h
  obtain ⟨c, -, classes, -, hfound⟩ := h
  obtain ⟨d, -, hm⟩ := List.exists_of_findSome?_eq_some hfound
  rw [Class.method?] at hm
  have hanswers := List.find?_some hm
  simpa [Method.answers] using hanswers

namespace Emission

open Output

section Owners

variable {p : Program} {job : Job} {P : ClassName → Prop}

/-- What holds of the owners of all members holds of the owner of what a reference means. -/
theorem owner_of_findField
    (h : ∀ c ∈ p.classes, (∀ f ∈ c.fields, P f.owner) ∧ ∀ m ∈ c.methods, P m.owner)
    {r : FieldRef} {f : Field} (hfound : p.findField r = some f) : P f.owner := by
  obtain ⟨c, hc, hf⟩ := Program.declares_of_findField hfound
  exact (h c hc).1 f hf

theorem owner_of_resolve
    (h : ∀ c ∈ p.classes, (∀ f ∈ c.fields, P f.owner) ∧ ∀ m ∈ c.methods, P m.owner)
    {r : MethodRef} {m : Method} (hfound : p.resolve r = some m) : P m.owner := by
  obtain ⟨c, hc, hm⟩ := Program.mem_methods_of_resolve hfound
  exact (h c hc).2 m hm

theorem returns_field
    (h : ∀ c ∈ job.program.classes, (∀ f ∈ c.fields, P f.owner) ∧ ∀ m ∈ c.methods, P m.owner)
    (r : FieldRef) : Returns (fun f => P f.owner) (job.field r) := by
  unfold Job.field
  split
  · next f hfound => exact .pure (owner_of_findField h hfound)
  · exact .throw _

theorem returns_method
    (h : ∀ c ∈ job.program.classes, (∀ f ∈ c.fields, P f.owner) ∧ ∀ m ∈ c.methods, P m.owner)
    (r : MethodRef) : Returns (fun m => P m.owner) (job.method r) := by
  unfold Job.method
  split
  · next m hfound => exact .pure (owner_of_resolve h hfound)
  · exact .throw _

end Owners

/-- Whatever classes a slot has in front, what comes after is the same. -/
theorem slotName_eq_iff {p : Program} {r : MethodRef} {m : Method} (h : p.resolve r = some m) :
    slotName m r = methodName m ↔ m.NamedBy r := by
  obtain ⟨hname, hdescriptor⟩ := Program.answers_of_resolve h
  have howner : r.owner.text = m.owner.text ↔ r.owner = m.owner :=
    ⟨congrArg ClassName.mk, congrArg ClassName.text⟩
  have hreference : m.reference = ⟨m.owner, r.name, m.type⟩ := by rw [Method.reference, hname]
  have hslot : MethodRef.descriptor ⟨m.owner, r.name, m.type⟩ = r.descriptor := hdescriptor
  unfold methodName slotName Method.NamedBy
  cases hnative : m.nativeName with
  | some name => simp
  | none =>
      simp only [hreference, hslot]
      by_cases hrole : m.role = .instanceInit
      · rw [if_pos hrole, if_pos hrole, String.append_left_inj, String.append_left_inj, howner]
        simp [hrole]
      · simp [hrole]

/-- What stands in front of the access in the text of a call, which means `m`
and is lowered from the state `s`. -/
inductive CallBase (job : Job) (caller : MethodRef) (m : Method) (s : State) : Expr → String → Prop where
  | static {r : MethodRef} {args : List Expr} :
      CallBase job caller m s (.callStatic r args) m.owner.identifier
  | virtual {object : Expr} {r : MethodRef} {args : List Expr} {text : String} {t : State}
      (h : (lowerExpr job caller object).run s = (.ok text, t)) :
      CallBase job caller m s (.callInstance object r args) text
  | construct {owner : ClassName} {r : MethodRef} {args : List Expr} :
      CallBase job caller m s (.construct owner r args) ("new " ++ owner.identifier ++ "()")

section Calls

variable {job : Job} {r : MethodRef} {m : Method}

theorem run_method (h : job.program.resolve r = some m) (s : State) :
    (job.method r).run s = (.ok m, s) := by
  rw [Job.method, h]
  rfl

theorem run_methodRefName (h : job.program.resolve r = some m) (s : State) :
    (job.methodRefName r).run s = (.ok (slotName m r), s) := by
  rw [Job.methodRefName, run_bind_ok (run_method h s)]
  rfl

/-- A call that is lowered selects the slot that its reference names. -/
theorem lowerExpr_call (h : job.program.resolve r = some m) {caller : MethodRef} {e : Expr}
    (hcall : e.called? = some r) {s t : State} {text : String}
    (hrun : (lowerExpr job caller e).run s = (.ok text, t)) :
    ∃ base args, CallBase job caller m s e base ∧
      text = base ++ Script.member (slotName m r) ++ arguments args := by
  cases e with
  | callStatic method args =>
      simp only [Expr.called?, Option.ite_none_left_eq_some, Option.some.injEq] at hcall
      obtain ⟨hraw, rfl⟩ := hcall
      rw [lowerExpr, if_neg hraw, run_bind_ok (run_method h s)] at hrun
      obtain ⟨texts, u, -, hrun⟩ := exists_of_run_bind_ok hrun
      obtain ⟨rfl, -⟩ := eq_of_run_pure hrun
      exact ⟨_, texts, .static, rfl⟩
  | callInstance object method args =>
      obtain rfl := Option.some.inj hcall
      rw [lowerExpr] at hrun
      obtain ⟨base, u, hobject, hrun⟩ := exists_of_run_bind_ok hrun
      rw [run_bind_ok (run_methodRefName h u)] at hrun
      obtain ⟨texts, v, -, hrun⟩ := exists_of_run_bind_ok hrun
      obtain ⟨rfl, -⟩ := eq_of_run_pure hrun
      exact ⟨base, texts, .virtual hobject, rfl⟩
  | construct owner ctor args =>
      obtain rfl := Option.some.inj hcall
      rw [lowerExpr, run_bind_ok (run_methodRefName h s)] at hrun
      obtain ⟨texts, u, -, hrun⟩ := exists_of_run_bind_ok hrun
      obtain ⟨rfl, -⟩ := eq_of_run_pure hrun
      exact ⟨_, texts, .construct, rfl⟩
  | _ => cases hcall

/-- A call selects the slot that the document of its method assigns if, and only
if, its reference names the method by the same class. Only constructors of other
classes are missed. -/
theorem called_slot (howns : job.program.OwnsMethods) (h : job.program.resolve r = some m) :
    (∃ c ∈ job.program.classes, c.name = m.owner ∧ m ∈ c.methods) ∧
    (∀ s d t, (lowerMethod job m.owner m).run s = (.ok d, t) →
      d.assigns (memberBase m.owner m.isStatic ++ Script.member (methodName m)) = true) ∧
    (∀ s, (job.methodRefName r).run s = (.ok (slotName m r), s)) ∧
    (slotName m r = methodName m ↔ m.NamedBy r) ∧
    ∀ caller e s text t, e.called? = some r → (lowerExpr job caller e).run s = (.ok text, t) →
      ∃ base access args, CallBase job caller m s e base ∧
        text = base ++ access ++ arguments args ∧
        (access = Script.member (methodName m) ↔ m.NamedBy r) := by
  obtain ⟨c, hc, hm⟩ := Program.mem_methods_of_resolve h
  refine ⟨⟨c, hc, (howns c hc m hm).symm, hm⟩, fun s d t hrun => lowerMethod_assigns hrun,
    run_methodRefName h, slotName_eq_iff h, fun caller e s text t hcall hrun => ?_⟩
  obtain ⟨base, args, hbase, rfl⟩ := lowerExpr_call h hcall hrun
  refine ⟨base, Script.member (slotName m r), args, hbase, rfl, ?_⟩
  rw [Script.member_injective.eq_iff, slotName_eq_iff h]

end Calls

section Inheriting

/-- A constructor without parameters that does nothing. -/
def emptyConstructor (owner : String) : Method where
  name := "<init>"
  owner := ⟨owner⟩
  type := ⟨[], .void⟩
  isStatic := false
  role := .instanceInit
  nativeName := none
  body := some ⟨[], .nop⟩
  bodyRef := none
  natives := []
  fluent := false

/-- A program in which only the upper class has methods: a constructor and a
static one. -/
def inheritingJob : Job where
  program := inheriting [emptyConstructor "app.Base", .mentioning "app.Base" "hello" .nop] []
  config := {}
  templater := plainTemplater

/-- The reference to a method without parameters and result. -/
def procedureRef (owner name : String) : MethodRef := ⟨⟨owner⟩, name, ⟨[], .void⟩⟩

theorem ownsMethods_inheriting : inheritingJob.program.OwnsMethods := by
  simp [Program.OwnsMethods, inheritingJob, inheriting, baseClass, subClass, Class.bare,
    emptyConstructor, Method.mentioning]

/-- What the class below lacks is looked for in the other. -/
theorem resolve_inherited (name : String) :
    inheritingJob.program.resolve (procedureRef "app.Sub" name) =
      ([emptyConstructor "app.Base", .mentioning "app.Base" "hello" .nop] : List Method).find?
        (·.answers name "()V") := by
  have hclass : inheritingJob.program.class? ⟨"app.Sub"⟩ = some (subClass []) := rfl
  have hrelated : inheritingJob.program.related (subClass []) = _ := related_subClass _ _
  have hnone : (subClass []).method? name "()V" = none := rfl
  change inheritingJob.program.findMethod ⟨"app.Sub"⟩ name "()V" = _
  simp only [Program.findMethod, hclass, hrelated, Option.bind_eq_bind, Option.bind_some,
    Except.toOption, List.findSome?_cons, List.findSome?_nil, hnone]
  rw [Class.method?, baseClass]
  generalize ([_, _] : List Method).find? _ = found
  cases found <;> rfl

/-- An inherited static method is called under its own slot. -/
theorem called_slot_inherited :
    inheritingJob.program.OwnsMethods ∧
    inheritingJob.program.resolve (procedureRef "app.Sub" "mention") =
      some (.mentioning "app.Base" "hello" .nop) ∧
    slotName (.mentioning "app.Base" "hello" .nop) (procedureRef "app.Sub" "mention") =
      methodName (.mentioning "app.Base" "hello" .nop) := by
  have hresolve : inheritingJob.program.resolve (procedureRef "app.Sub" "mention") =
      some (.mentioning "app.Base" "hello" .nop) := (resolve_inherited "mention").trans rfl
  obtain ⟨-, -, -, hslot, -⟩ := called_slot ownsMethods_inheriting hresolve
  exact ⟨ownsMethods_inheriting, hresolve, hslot.2 (.inr (.inl (by decide)))⟩

/-- A constructor that is called through a class that inherits it is looked for
under a slot that it does not have. -/
theorem inherited_constructor_slot :
    inheritingJob.program.OwnsMethods ∧
    inheritingJob.program.resolve (procedureRef "app.Sub" "<init>") =
      some (emptyConstructor "app.Base") ∧
    methodName (emptyConstructor "app.Base") = "app.Base<init>()V" ∧
    ((inheritingJob.methodRefName (procedureRef "app.Sub" "<init>")).run .initial).1 =
      .ok "app.Sub<init>()V" ∧
    ((lowerExpr inheritingJob (procedureRef "app.Sub" "run")
      (.construct ⟨"app.Sub"⟩ (procedureRef "app.Sub" "<init>") [])).run .initial).1 =
        .ok "new app_Sub()[\"app.Sub<init>()V\"]()" := by
  have hresolve : inheritingJob.program.resolve (procedureRef "app.Sub" "<init>") =
      some (emptyConstructor "app.Base") := (resolve_inherited "<init>").trans rfl
  have hrun := run_methodRefName hresolve .initial
  refine ⟨ownsMethods_inheriting, hresolve, by decide, by rw [hrun]; rfl, ?_⟩
  simp only [lowerExpr, lowerExprs]
  rw [run_bind_ok hrun, run_bind_ok (run_pure _ _)]
  exact congrArg Except.ok (by decide +kernel)

end Inheriting

end Emission

end ClassScript
