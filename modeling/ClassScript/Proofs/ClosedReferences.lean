import ClassScript.Proofs.CallSites
import ClassScript.Proofs.ExpressionRuns
import ClassScript.Proofs.FieldLookup
import ClassScript.Proofs.ProgramFaults

/-!
Which classes the text of a program refers to. Accesses to static members and
calls have the class of the member that their reference means in front, and a
reference to an absent class means nothing, so an emission that succeeds has only
present classes there. The class that is constructed and the one that an object
is tested for are written down without being looked for.
-/

namespace ClassScript

namespace Expr

/-- The class whose identifier the text of an expression has as its base. A test
for an interface has none, since it is answered by number. -/
def base? (p : Program) : Expr → Option ClassName
  | .staticField r => (p.findField r).map (·.owner)
  | .callStatic r _ => if Emission.isRawCall r then none else (p.resolve r).map (·.owner)
  | .callSuper _ r _ => (p.resolve r).map (·.owner)
  | .construct owner _ _ => some owner
  | .instanceOf _ (.ref name) => if (p.class? name).any (·.isInterface) then none else some name
  | _ => none

/-- The class from which the question of an expression is asked. -/
def asked? : Expr → Option ClassName
  | .instanceField _ r | .staticField r => some r.owner
  | .callStatic r _ => if Emission.isRawCall r then none else some r.owner
  | .callInstance _ r _ | .callSuper _ r _ | .construct _ r _ => some r.owner
  | _ => none

/-- The class that an expression names without asking for it: one that is
constructed by the constructor of another class, or tested for. -/
def unasked? : Expr → Option ClassName
  | .construct owner ctor _ => if owner = ctor.owner then none else some owner
  | .instanceOf _ (.ref name) => some name
  | _ => none

end Expr

/-- There is a class of that name. -/
def Program.Has (p : Program) (name : ClassName) : Prop :=
  ∃ c, p.class? name = some c

namespace Program

variable {p : Program}

theorem class?_of_not_has {name : ClassName} (h : ¬ p.Has name) : p.class? name = none :=
  Option.eq_none_iff_forall_ne_some.2 fun c hc => h ⟨c, hc⟩

/-- A class that is not there has no fields, inherited ones included. -/
theorem findField_absent {r : FieldRef} (h : ¬ p.Has r.owner) : p.findField r = none := by
  have hdraw : draw? p.classes r.owner = none := class?_of_not_has h
  rw [findField, searchField_absent hdraw, searchField_nil]

theorem resolve_absent {r : MethodRef} (h : ¬ p.Has r.owner) : p.resolve r = none := by
  rw [resolve, findMethod, class?_of_not_has h]
  rfl

theorem has_of_findField (howns : p.OwnsFields) {r : FieldRef} {f : Field}
    (h : p.findField r = some f) : p.Has f.owner := by
  obtain ⟨c, hc, hf⟩ := declares_of_findField h
  exact ⟨c, Emission.class?_owner howns hc hf⟩

theorem has_of_resolve (howns : p.OwnsMethods) {r : MethodRef} {m : Method}
    (h : p.resolve r = some m) : p.Has m.owner := by
  obtain ⟨c, hc, hm⟩ := mem_methods_of_resolve h
  rw [howns c hc m hm]
  exact ⟨c, class?_name hc⟩

end Program

namespace Emission

open Output

/-- Whether a reference to a class or a member is what has failed. -/
def EmitError.isUnresolved : EmitError → Bool
  | .unresolvedClass _ | .unresolvedField _ | .unresolvedMethod _ | .unresolvedSuperCall _ _ => true
  | _ => false

/-- Where the text of an expression has the identifier of its base. -/
inductive Based (base : String) : Expr → String → Prop where
  | staticField {r : FieldRef} (name : String) :
      Based base (.staticField r) (base ++ Script.member name)
  | callStatic {r : MethodRef} {args : List Expr} (slot : String) (texts : List String) :
      Based base (.callStatic r args) (base ++ Script.member slot ++ arguments texts)
  | callSuper {object : Expr} {r : MethodRef} {args : List Expr} (slot : String)
      (texts : List String) :
      Based base (.callSuper object r args)
        (base ++ ".prototype" ++ Script.member slot ++ ".call" ++ arguments texts)
  | construct {owner : ClassName} {ctor : MethodRef} {args : List Expr} (slot : String)
      (texts : List String) :
      Based base (.construct owner ctor args)
        ("new " ++ base ++ "()" ++ Script.member slot ++ arguments texts)
  | instanceOf {value : Expr} {type : Ty} (text : String) :
      Based base (.instanceOf value type) ("(" ++ text ++ " instanceof " ++ base ++ ")")

/-- The body that the output has for a method: a stub takes its place if the first
thing that is wrong with it is one that costs only the body. -/
def Job.keptBody? (job : Job) (owner : ClassName) (m : Method) : Option Body :=
  (selectedBody? job m).filter fun body =>
    !(job.bodyFaults owner m body).head?.any EmitError.isRecoverable

/-- The expression is lowered for the output: it is a node of the body of an
emitted method, the caller. -/
inductive Job.Lowers (job : Job) : MethodRef → Expr → Prop where
  | node {owner : ClassName} {m : Method} {body : Body} {e : Expr}
      (hmethod : (owner, m) ∈ job.emittedMethods) (hbody : job.keptBody? owner m = some body)
      (hnode : e ∈ job.nodesIn body) : job.Lowers ⟨owner, m.name, m.type⟩ e

section Bases

variable {job : Job} {caller : MethodRef} {name : ClassName} {s t : State}

theorem staticField_based {r : FieldRef} {text : String}
    (hbase : (Expr.staticField r).base? job.program = some name)
    (hrun : (job.staticField r).run s = (.ok text, t)) :
    Based name.identifier (.staticField r) text := by
  obtain ⟨f, hf, rfl⟩ := Option.map_eq_some_iff.1 hbase
  rw [Job.staticField, Job.field, hf] at hrun
  obtain ⟨g, u, hfound, hrun⟩ := exists_of_run_bind_ok hrun
  obtain ⟨rfl, -⟩ := eq_of_run_pure hfound
  obtain ⟨access, v, -, hrun⟩ := exists_of_run_bind_ok hrun
  obtain ⟨rfl, -⟩ := eq_of_run_pure hrun
  exact .staticField access

/-- What is called the base of an expression stands at the base of its text. -/
theorem lowerExpr_based {e : Expr} (hbase : e.base? job.program = some name) {text : String}
    (hrun : (lowerExpr job caller e).run s = (.ok text, t)) : Based name.identifier e text := by
  cases lowersExpr_of_run e hrun with
  | staticField hfield => exact staticField_based hbase hfield
  | rawCall hraw _ =>
      rw [Expr.base?, if_pos hraw] at hbase
      cases hbase
  | @callStatic r args _ _ _ _ texts hraw hmethod _ =>
      rw [Expr.base?, if_neg hraw] at hbase
      obtain ⟨m, hm, rfl⟩ := Option.map_eq_some_iff.1 hbase
      rw [run_method hm s] at hmethod
      cases hmethod
      exact .callStatic _ texts
  | @callSuper _ _ _ _ _ _ _ base texts hmethod _ _ =>
      obtain ⟨m, hm, rfl⟩ := Option.map_eq_some_iff.1 hbase
      obtain rfl := Option.some.inj (hm.symm.trans hmethod)
      exact .callSuper _ (base :: texts)
  | @construct _ _ _ _ _ _ slot texts _ _ =>
      obtain rfl := Option.some.inj hbase
      exact .construct slot texts
  | @instanceOf _ type _ _ text _ =>
      cases type with
      | ref other =>
          rw [Expr.base?, Option.ite_none_left_eq_some] at hbase
          obtain ⟨hclass, hname⟩ := hbase
          obtain rfl := Option.some.inj hname
          have htest : job.instanceTest text (.ref other) =
              "(" ++ text ++ " instanceof " ++ other.identifier ++ ")" := by
            rw [Job.instanceTest]
            split
            · next c hc =>
                rw [hc, Option.any_some] at hclass
                rw [if_neg hclass]
            · rfl
          rw [htest]
          exact .instanceOf text
      | _ => cases hbase
  | _ => cases hbase

/-- An assignment to a static field has the base of the access in front. -/
theorem lowerStmt_based {ctx : Context} {chain : Option Nat} {r : FieldRef} {value : Expr}
    {n k : Nat} {d : Doc} (hbase : (Expr.staticField r).base? job.program = some name)
    (hrun : ((lowerStmt job ctx chain (.setStaticField r value)).run n).run s = (.ok (d, k), t)) :
    ∃ access text, Based name.identifier (.staticField r) access ∧
      d = statement (access ++ " = " ++ text) := by
  simp only [lowerStmt, StateT.run_bind, StateT.run_monadLift] at hrun
  obtain ⟨p, u, -, hrun⟩ := exists_of_run_bind_ok hrun
  obtain ⟨q, v, hlift, hrun⟩ := exists_of_run_bind_ok hrun
  obtain ⟨access, w, haccess, hlift⟩ := exists_of_run_bind_ok hlift
  obtain ⟨rfl, -⟩ := eq_of_run_pure hlift
  obtain ⟨hvalue, -⟩ := eq_of_run_pure hrun
  exact ⟨access, p.1, staticField_based hbase haccess, (congrArg Prod.fst hvalue).symm⟩

end Bases

section Faults

variable {job : Job} {owner : ClassName} {m : Method} {body : Body} {caller : MethodRef} {e : Expr}

/-- The faults of the body come before those of native texts. -/
theorem bindingFaults_of_selected (owner : ClassName) (h : selectedBody? job m = some body) :
    ∃ texts, job.bindingFaults owner m = job.bodyFaults owner m body ++ texts := by
  simp only [Job.bindingFaults, h, Option.toList_some, List.flatMap_singleton]
  exact ⟨_, rfl⟩

/-- A body that is not kept leaves a stub. -/
theorem lowerMethod_abandoned (hselected : selectedBody? job m = some body)
    (hkept : job.keptBody? owner m = none) {s t : State} (hs : job.Ordered s) {d : Doc}
    (h : (lowerMethod job owner m).run s = (.ok d, t)) : ∃ error, d = stubDoc owner m error := by
  obtain ⟨texts, hfaults⟩ := bindingFaults_of_selected owner hselected
  have hfaulty : job.bindingFaults owner m ≠ [] := by
    rw [Job.keptBody?, hselected, Option.filter_some] at hkept
    rw [hfaults]
    rintro hnil
    rw [(List.append_eq_nil_iff.1 hnil).1] at hkept
    cases hkept
  obtain ⟨-, hend⟩ := Meets.bindMethod owner m (methodSlot owner m) s hs
  rcases of_run_tryCatch_ok h with hbind | ⟨error, u, -, hhandle⟩
  · change (bindMethod job owner m (methodSlot owner m)).run s = _ at hbind
    rw [hbind] at hend
    generalize job.bindingFaults owner m = faults at hend hfaulty
    cases hend with
    | ok => exact absurd rfl hfaulty
  · split at hhandle
    · obtain ⟨_, v, -, hdoc⟩ := exists_of_run_bind_ok hhandle
      obtain ⟨rfl, -⟩ := eq_of_run_pure hdoc
      exact ⟨error, rfl⟩
    · cases hhandle

/-- The faults of a body that is kept are those of its method. -/
theorem bodyFaults_subset (h : job.keptBody? owner m = some body) :
    job.bodyFaults owner m body ⊆ job.methodFaults owner m := by
  obtain ⟨hselected, hkept⟩ := Option.filter_eq_some_iff.1 h
  obtain ⟨texts, hfaults⟩ := bindingFaults_of_selected owner hselected
  rw [Job.methodFaults, hfaults]
  generalize job.bodyFaults owner m body = faults at hkept
  cases faults with
  | nil => exact List.nil_subset _
  | cons first rest =>
      have hfirst : first.isRecoverable = false := by simpa using hkept
      have hall : fatal (first :: rest ++ texts) = first :: rest ++ texts := by
        simp [fatal, hfirst]
      rw [hall]
      exact List.subset_append_left _ _

theorem methodFaults_subset (h : (owner, m) ∈ job.emittedMethods) :
    job.methodFaults owner m ⊆ job.faults := by
  obtain ⟨c, hc, hm⟩ := List.mem_flatMap.1 h
  obtain ⟨horder, hverbatim⟩ := List.mem_filter.1 hc
  intro fault hfault
  have hclass : fault ∈ job.classFaults c := by
    simp only [Job.classFaults, Option.isNone_iff_eq_none.1 hverbatim, List.mem_append]
    exact .inr (.inr (List.mem_flatMap.2 ⟨_, hm, hfault⟩))
  exact List.mem_append_left _ (List.mem_flatMap.2 ⟨c, horder, hclass⟩)

/-- What is lowered for the output can make the emission fail. -/
theorem faultAt_subset (h : job.Lowers caller e) : job.faultAt caller e ⊆ job.faults := by
  cases h with
  | node hmethod hbody hnode =>
      intro fault hfault
      exact methodFaults_subset hmethod
        (bodyFaults_subset hbody (List.mem_flatMap.2 ⟨e, hnode, hfault⟩))

/-- A question that is asked from an absent class has no answer. -/
theorem faultAt_absent {name : ClassName} (h : e.asked? = some name)
    (habsent : ¬ job.program.Has name) :
    ∃ fault, job.faultAt caller e = [fault] ∧ fault.isUnresolved = true := by
  have hfield : ∀ {r : FieldRef}, r.owner = name → job.program.findField r = none := fun hr =>
    Program.findField_absent (hr ▸ habsent)
  have hmethod : ∀ {r : MethodRef}, r.owner = name → job.program.resolve r = none := fun hr =>
    Program.resolve_absent (hr ▸ habsent)
  cases e with
  | instanceField object r =>
      exact ⟨.unresolvedField r, by rw [Job.faultAt, hfield (Option.some.inj h)]; rfl, rfl⟩
  | staticField r =>
      exact ⟨.unresolvedField r, by rw [Job.faultAt, hfield (Option.some.inj h)]; rfl, rfl⟩
  | callStatic r args =>
      rw [Expr.asked?, Option.ite_none_left_eq_some] at h
      obtain ⟨hraw, hname⟩ := h
      refine ⟨.unresolvedMethod r, ?_, rfl⟩
      simp only [Job.faultAt, hraw, hmethod (Option.some.inj hname)]
      rfl
  | callInstance object r args =>
      exact ⟨.unresolvedMethod r, by rw [Job.faultAt, hmethod (Option.some.inj h)]; rfl, rfl⟩
  | callSuper object r args =>
      exact ⟨.unresolvedSuperCall caller.owner r,
        by rw [Job.faultAt, hmethod (Option.some.inj h)]; rfl, rfl⟩
  | construct owner ctor args =>
      exact ⟨.unresolvedMethod ctor, by rw [Job.faultAt, hmethod (Option.some.inj h)]; rfl, rfl⟩
  | _ => cases h

theorem faultAt_ne_nil {name : ClassName} (h : e.asked? = some name)
    (habsent : ¬ job.program.Has name) : job.faultAt caller e ≠ [] := by
  obtain ⟨fault, hone, -⟩ := faultAt_absent h habsent
  rw [hone]
  exact List.cons_ne_nil _ _

/-- A node that is not at fault has a present class as its base, unless it names
the class without asking for it. -/
theorem has_of_base (hfields : job.program.OwnsFields) (hmethods : job.program.OwnsMethods)
    (hfault : job.faultAt caller e = []) {name : ClassName} (hbase : e.base? job.program = some name)
    (hasked : e.unasked? ≠ some name) : job.program.Has name := by
  cases e with
  | staticField r =>
      obtain ⟨f, hf, rfl⟩ := Option.map_eq_some_iff.1 hbase
      exact Program.has_of_findField hfields hf
  | callStatic r args =>
      rw [Expr.base?, Option.ite_none_left_eq_some] at hbase
      obtain ⟨m, hm, rfl⟩ := Option.map_eq_some_iff.1 hbase.2
      exact Program.has_of_resolve hmethods hm
  | callSuper object r args =>
      obtain ⟨m, hm, rfl⟩ := Option.map_eq_some_iff.1 hbase
      exact Program.has_of_resolve hmethods hm
  | construct owner ctor args =>
      obtain rfl := Option.some.inj hbase
      have hsame : owner = ctor.owner := by
        by_contra hne
        exact hasked (if_neg hne)
      -- The class that is constructed is the one from which its constructor is looked for.
      have hasks : (Expr.construct owner ctor args).asked? = some owner :=
        congrArg some hsame.symm
      by_contra habsent
      exact faultAt_ne_nil hasks habsent hfault
  | instanceOf value type =>
      cases type with
      | ref other =>
          rw [Expr.base?, Option.ite_none_left_eq_some] at hbase
          exact absurd hbase.2 hasked
      | _ => cases hbase
  | _ => cases hbase

end Faults

/-- Successful emissions are closed, but for classes that are named without being
asked for. The identifier of its base stands at the base of every text, and bodies
that are not kept leave stubs. If an emission succeeds, every class from which
something lowered asks a question is there, and so is every base that is not named
unasked, where members belong to the classes that list them. An absent class in a
question makes the emission fail, with the unresolved reference or with what is
wrong before it. -/
theorem emitProgram_closed (job : Job) :
    (∀ caller e name s text t, e.base? job.program = some name →
      (lowerExpr job caller e).run s = (.ok text, t) → Based name.identifier e text) ∧
    (∀ ctx chain r value name n k s d t, (Expr.staticField r).base? job.program = some name →
      ((lowerStmt job ctx chain (.setStaticField r value)).run n).run s = (.ok (d, k), t) →
      ∃ access text, Based name.identifier (.staticField r) access ∧
        d = statement (access ++ " = " ++ text)) ∧
    (∀ owner m body s d t, selectedBody? job m = some body → job.keptBody? owner m = none →
      job.Ordered s → (lowerMethod job owner m).run s = (.ok d, t) →
      ∃ error, d = stubDoc owner m error) ∧
    (∀ result t, (emitProgram job).runFrom .initial = (.ok result, t) →
      ∀ caller e, job.Lowers caller e →
        (∀ name, e.asked? = some name → job.program.Has name) ∧
        (job.program.OwnsFields → job.program.OwnsMethods →
          ∀ name, e.base? job.program = some name → e.unasked? ≠ some name →
            job.program.Has name)) ∧
    ∀ caller e name, job.Lowers caller e → e.asked? = some name → ¬ job.program.Has name →
      ∃ before fault later error t, job.faultAt caller e = [fault] ∧ fault.isUnresolved = true ∧
        job.faults = before ++ fault :: later ∧
        (emitProgram job).runFrom .initial = (.error error, t) ∧
        (job.program.NamesFields → (before ++ [fault]).head? = some error) := by
  have hend := emitProgram_endsOn job
  refine ⟨fun _ _ _ _ _ _ hbase hrun => lowerExpr_based hbase hrun,
    fun _ _ _ _ _ _ _ _ _ _ hbase hrun => lowerStmt_based hbase hrun,
    fun _ _ _ _ _ _ hselected hkept hs hrun => lowerMethod_abandoned hselected hkept hs hrun,
    fun result t hrun caller e he => ?_, fun caller e name he hasked habsent => ?_⟩
  · rw [hrun] at hend
    have hnone : job.faultAt caller e = [] := by
      have hsubset := faultAt_subset he
      generalize job.faults = faults at hend hsubset
      cases hend with
      | ok => exact List.subset_nil.1 hsubset
    refine ⟨fun name hasked => ?_, fun hfields hmethods name hbase hasked =>
      has_of_base hfields hmethods hnone hbase hasked⟩
    by_contra habsent
    exact faultAt_ne_nil hasked habsent hnone
  · obtain ⟨fault, hone, hunresolved⟩ := faultAt_absent hasked habsent
    have hmem : fault ∈ job.faults := faultAt_subset he (hone ▸ List.mem_singleton_self fault)
    obtain ⟨before, later, hfaults⟩ := List.append_of_mem hmem
    have hhead : job.faults.head? = (before ++ [fault]).head? := by
      rw [hfaults]
      cases before <;> rfl
    generalize hrun : (emitProgram job).runFrom .initial = r at hend
    obtain ⟨result, t⟩ := r
    generalize job.faults = faults at hend hfaults hhead ⊢
    cases hend with
    | ok => exact absurd hfaults.symm (by simp)
    | first error =>
        exact ⟨before, fault, later, error, t, hone, hunresolved, hfaults, rfl,
          fun _ => hhead.symm⟩
    | unnamed _ field hnames =>
        exact ⟨before, fault, later, _, t, hone, hunresolved, hfaults, rfl,
          fun h => absurd h hnames⟩

/-- A method without native bodies fails on what its own body fails on. -/
theorem bindingFaults_of_body {job : Job} {m : Method} {body : Body} (hnatives : m.natives = [])
    (hbody : m.body = some body) (owner : ClassName) :
    job.bindingFaults owner m = job.bodyFaults owner m body := by
  have hnone : m.nativesFor job.config.target = [] := by
    rw [Method.nativesFor, hnatives, List.filter_nil]
  have hselected : selectedBody? job m = some body := by
    rw [selectedBody?, hnone, generatedBody?, hbody]
    rfl
  simp [Job.bindingFaults, hnone, hselected, byGuard]

section Solo

/-- A class of methods alone fails on what they fail on. -/
theorem faults_solo (methods : List Method) :
    Job.faults ⟨solo methods, {}, plainTemplater⟩ =
      (methods.filter (·.isInit) ++ methods.filter (!·.isInit)).flatMap
        (Job.methodFaults ⟨solo methods, {}, plainTemplater⟩ ⟨"Main"⟩) := by
  have hmain : (solo methods).customMain? "js" = some "Main.run();" := rfl
  have hparent : Job.parentFaults ⟨solo methods, {}, plainTemplater⟩ (soloClass methods) = [] := rfl
  have hrelated : Job.relatedFaults ⟨solo methods, {}, plainTemplater⟩ (soloClass methods) = [] := by
    rw [Job.relatedFaults, related_solo]
  have hstart : Job.startFaults ⟨solo methods, {}, plainTemplater⟩ = [] := by
    rw [Job.startFaults, hmain]
    rfl
  have hclass : Job.classFaults ⟨solo methods, {}, plainTemplater⟩ (soloClass methods) =
      (emittedMethods (soloClass methods)).flatMap fun o =>
        Job.methodFaults ⟨solo methods, {}, plainTemplater⟩ o.1 o.2 := by
    rw [Job.classFaults, hparent, hrelated]
    rfl
  rw [Job.faults, emissionOrder_solo, List.flatMap_singleton, hclass, hstart, emittedMethods,
    List.flatMap_map]
  exact List.append_nil _

theorem mem_emittedMethods_solo {methods : List Method} {m : Method} (hm : m ∈ methods) :
    (⟨"Main"⟩, m) ∈ Job.emittedMethods ⟨solo methods, {}, plainTemplater⟩ := by
  have hsplit : m ∈ methods.filter (·.isInit) ++ methods.filter (!·.isInit) := by
    cases h : m.isInit <;> simp [hm, h]
  rw [Job.emittedMethods, emissionOrder_solo]
  exact List.mem_flatMap.2 ⟨soloClass methods, by simp [soloClass, Class.bare],
    List.mem_map.2 ⟨m, hsplit, rfl⟩⟩

theorem namesFields_solo (methods : List Method) : (solo methods).NamesFields := by
  refine ⟨Program.acyclic_of_rank (fun _ => 0) ?_, ?_⟩
  · simp [solo, soloClass, ExtendsIn, Class.bare]
  · simp [Program.OwnsFields, solo, soloClass, Class.bare]

/-- A class with a constructor and a method that does one thing after mentioning
a text. -/
def soloMethods (next : Stmt) : List Method :=
  [emptyConstructor "Main", .mentioning "Main" "hello" next]

def soloJob (next : Stmt) : Job := ⟨solo (soloMethods next), {}, plainTemplater⟩

/-- The method of that class as a caller. -/
def soloCaller : MethodRef := ⟨⟨"Main"⟩, "mention", ⟨[], .void⟩⟩

section Values

variable (value : Expr)

/-- The body of that method. -/
def soloBody : Body := ⟨[], .block [.eval (.literal (.string "hello")), .eval value]⟩

theorem nodesIn_solo :
    (soloJob (.eval value)).nodesIn (soloBody value) = .literal (.string "hello") :: value.nodes := by
  simp [Job.nodesIn, soloBody, Stmt.lowered, loweredInAll, Stmt.ownNodes, Expr.nodes]

theorem bodyFaults_solo :
    (soloJob (.eval value)).bodyFaults ⟨"Main"⟩ (.mentioning "Main" "hello" (.eval value))
      (soloBody value) = value.nodes.flatMap ((soloJob (.eval value)).faultAt soloCaller) := by
  rw [Job.bodyFaults, nodesIn_solo]
  rfl

/-- The value is all that can be wrong with the program. -/
theorem faults_soloJob :
    (soloJob (.eval value)).faults =
      fatal (value.nodes.flatMap ((soloJob (.eval value)).faultAt soloCaller)) := by
  have hconstructor : (soloJob (.eval value)).methodFaults ⟨"Main"⟩ (emptyConstructor "Main") = [] :=
    rfl
  have hmethod : (soloJob (.eval value)).methodFaults ⟨"Main"⟩
      (.mentioning "Main" "hello" (.eval value)) =
        fatal (value.nodes.flatMap ((soloJob (.eval value)).faultAt soloCaller)) := by
    rw [Job.methodFaults, bindingFaults_of_body rfl rfl]
    exact congrArg fatal (bodyFaults_solo value)
  calc (soloJob (.eval value)).faults
      = [emptyConstructor "Main", .mentioning "Main" "hello" (.eval value)].flatMap
          ((soloJob (.eval value)).methodFaults ⟨"Main"⟩) := faults_solo _
    _ = fatal (value.nodes.flatMap ((soloJob (.eval value)).faultAt soloCaller)) := by
        rw [List.flatMap_cons, List.flatMap_singleton, hconstructor, List.nil_append, hmethod]

/-- Unless a stub takes the place of the method, the value is lowered for the
output. -/
theorem lowers_soloJob {e : Expr} (he : e ∈ value.nodes)
    (hkept : (value.nodes.flatMap ((soloJob (.eval value)).faultAt soloCaller)).head?.any
      EmitError.isRecoverable = false) : (soloJob (.eval value)).Lowers soloCaller e := by
  have hselected : selectedBody? (soloJob (.eval value)) (.mentioning "Main" "hello" (.eval value)) =
      some (soloBody value) := rfl
  have hbody : (soloJob (.eval value)).keptBody? ⟨"Main"⟩
      (.mentioning "Main" "hello" (.eval value)) = some (soloBody value) := by
    rw [Job.keptBody?, hselected, Option.filter_some, bodyFaults_solo, hkept]
    rfl
  have hnode : e ∈ (soloJob (.eval value)).nodesIn (soloBody value) := by
    rw [nodesIn_solo]
    exact List.mem_cons_of_mem _ he
  exact .node (mem_emittedMethods_solo (List.mem_cons_of_mem _ (List.mem_singleton_self _))) hbody hnode

end Values

theorem not_has_solo (methods : List Method) : ¬ (solo methods).Has ⟨"app.Absent"⟩ := by
  rintro ⟨c, hc⟩
  simp [Program.class?, solo, soloClass, Class.bare] at hc

/-- A static method of an absent class is called: the emission fails on it. -/
theorem emitProgram_closed_absent :
    let call : Expr := .callStatic (procedureRef "app.Absent" "run") []
    (soloJob (.eval call)).Lowers soloCaller call ∧ call.asked? = some ⟨"app.Absent"⟩ ∧
      ¬ (soloJob (.eval call)).program.Has ⟨"app.Absent"⟩ ∧
      ((emitProgram (soloJob (.eval call))).runFrom .initial).1 =
        .error (.unresolvedMethod (procedureRef "app.Absent" "run")) := by
  intro call
  have hraw : isRawCall (procedureRef "app.Absent" "run") = false := by decide
  have hasked : call.asked? = some ⟨"app.Absent"⟩ := by
    simp only [call, Expr.asked?, hraw]
    rfl
  have habsent : ¬ (soloJob (.eval call)).program.Has ⟨"app.Absent"⟩ := not_has_solo _
  have hfault : (soloJob (.eval call)).faultAt soloCaller call =
      [.unresolvedMethod (procedureRef "app.Absent" "run")] := by
    have hresolve : (soloJob (.eval call)).program.resolve (procedureRef "app.Absent" "run") = none :=
      Program.resolve_absent habsent
    simp only [call, Job.faultAt, hraw, hresolve]
    rfl
  have hnodes : call.nodes.flatMap ((soloJob (.eval call)).faultAt soloCaller) =
      [.unresolvedMethod (procedureRef "app.Absent" "run")] := by
    have hone : call.nodes = [call] := by simp [call, Expr.nodes, nodesOfAll]
    rw [hone, List.flatMap_singleton, hfault]
  have hlowers : (soloJob (.eval call)).Lowers soloCaller call :=
    lowers_soloJob call (by simp [call, Expr.nodes]) (by rw [hnodes]; rfl)
  obtain ⟨-, -, -, -, hfails⟩ := emitProgram_closed (soloJob (.eval call))
  obtain ⟨before, fault, later, error, t, hone, -, hfaults, hrun, hfirst⟩ :=
    hfails soloCaller call _ hlowers hasked habsent
  refine ⟨hlowers, hasked, habsent, ?_⟩
  obtain rfl : fault = .unresolvedMethod (procedureRef "app.Absent" "run") :=
    (List.singleton_injective (hone.symm.trans hfault))
  rw [faults_soloJob, hnodes] at hfaults
  have hbefore : before = [] := by
    cases before with
    | nil => rfl
    | cons first rest => simp [fatal, EmitError.isRecoverable] at hfaults
  have herror := hfirst (namesFields_solo _)
  rw [hbefore] at herror
  rw [hrun]
  exact congrArg Except.error (Option.some.inj herror).symm

/-- A class that the program lacks is constructed, by the constructor of another
class, and tested for: the emission succeeds. -/
theorem emitProgram_open :
    let made : Expr := .construct ⟨"app.Absent"⟩ (procedureRef "Main" "<init>") []
    let test : Expr := .instanceOf made (.ref ⟨"app.Absent"⟩)
    let job := soloJob (.eval test)
    (∃ result t, (emitProgram job).runFrom .initial = (.ok result, t)) ∧
      job.Lowers soloCaller made ∧ made.base? job.program = some ⟨"app.Absent"⟩ ∧
      job.Lowers soloCaller test ∧ test.base? job.program = some ⟨"app.Absent"⟩ ∧
      ((lowerExpr job soloCaller test).run .initial).1 =
        .ok "(new app_Absent()[\"Main<init>()V\"]() instanceof app_Absent)" ∧
      ∀ c ∈ job.program.classes, c.name.identifier ≠ (ClassName.mk "app.Absent").identifier := by
  intro made test job
  have hnodes : test.nodes = [made, test] := by
    simp [test, made, Expr.nodes, nodesOfAll]
  have hresolve : job.program.resolve (procedureRef "Main" "<init>") = some (emptyConstructor "Main") :=
    (resolve_solo _ _ _).trans rfl
  have hmade : job.faultAt soloCaller made = [] := by
    simp only [made, Job.faultAt, hresolve]
    rfl
  have htest : job.faultAt soloCaller test = [] := rfl
  have hnone : test.nodes.flatMap (job.faultAt soloCaller) = [] := by
    rw [hnodes, List.flatMap_cons, List.flatMap_singleton, hmade, htest, List.nil_append]
  have hlowers : ∀ e ∈ test.nodes, job.Lowers soloCaller e := fun e he =>
    lowers_soloJob test he (by rw [hnone]; rfl)
  have hfaults : job.faults = [] := (faults_soloJob test).trans (congrArg fatal hnone)
  have hend := emitProgram_endsOn job
  rw [hfaults] at hend
  generalize (emitProgram job).runFrom .initial = r at hend ⊢
  obtain ⟨result, t⟩ := r
  have habsent : ¬ job.program.Has ⟨"app.Absent"⟩ := not_has_solo _
  have hclass : job.program.class? ⟨"app.Absent"⟩ = none := Program.class?_of_not_has habsent
  refine ⟨?_, hlowers made (by simp [hnodes]), rfl, hlowers test (by simp [hnodes]), ?_, ?_, ?_⟩
  · cases hend with
    | ok result => exact ⟨result, t, rfl⟩
    | unnamed _ field h => exact absurd (namesFields_solo _) h
  · rw [Expr.base?, hclass]
    rfl
  · simp only [test, made, lowerExpr, lowerExprs, bind_assoc]
    rw [run_bind_ok (run_methodRefName hresolve .initial)]
    simp only [pure_bind, Job.instanceTest, hclass]
    exact congrArg Except.ok (by decide +kernel)
  · simp [job, soloJob, solo, soloClass, Class.bare, ClassName.identifier, ← String.toList_inj]

end Solo

end Emission

end ClassScript
