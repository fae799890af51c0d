import ClassScript.Proofs.InsertedLine
import ClassScript.Proofs.OneApart
import ClassScript.Proofs.RemovedBody
import ClassScript.Proofs.SourceMapping
import ClassScript.Proofs.StringlessBodies

/-!
A body that cannot be lowered costs nothing but its method. However far its lowering
has come, all that is left of it is a comment in front of the stub that the method
would have without a body: the rest of the class and of the program is the same, and
in the line map the lines behind the comment are one further down.
-/

namespace ClassScript

/-- No newline stands in a class name of the type. -/
def Ty.OneLine : Ty → Prop
  | .ref name => '\n' ∉ name.text.toList
  | .array element => element.OneLine
  | _ => True

def Signature.OneLine (s : Signature) : Prop :=
  (∀ b ∈ s.args, b.type.OneLine) ∧ s.ret.OneLine

theorem Ty.OneLine.descriptor {type : Ty} (h : type.OneLine) : '\n' ∉ type.descriptor.toList := by
  induction type with
  | ref name =>
      have hname : '\n' ∉ name.slashed.toList := by
        rw [ClassName.slashed, String.toList_map]
        exact fun hmem => forall_mem_replaced (P := (· ≠ '\n')) (by decide)
          (fun _ hc _ hbreak => h (hbreak ▸ hc)) _ hmem rfl
      simp only [Ty.descriptor, String.toList_append, List.mem_append, not_or]
      exact ⟨⟨by decide, hname⟩, by decide⟩
  | array element ih =>
      simp only [Ty.descriptor, String.toList_append, List.mem_append, not_or]
      exact ⟨by decide, ih h⟩
  | _ => exact of_decide_eq_true rfl

theorem Signature.OneLine.descriptor {s : Signature} (h : s.OneLine) :
    '\n' ∉ s.descriptor.toList := by
  have hargs : ∀ b ∈ s.args, '\n' ∉ b.type.descriptor.toList := fun b hb => (h.1 b hb).descriptor
  simpa [Signature.descriptor, h.2.descriptor] using hargs

/-- No newline stands in the name of a class that the body converts from or to. -/
def Body.OneLine (body : Body) : Prop :=
  ∀ value source target, .cast value source target ∈ body.stmt.expressions →
    source.OneLine ∧ target.OneLine

namespace Emission

open Output

/-- No newline stands in a class name that the cause tells. -/
def Malformed.OneLine : Malformed → Prop
  | .conversion source target => source.OneLine ∧ target.OneLine
  | _ => True

theorem Malformed.OneLine.message {cause : Malformed} (h : cause.OneLine) :
    '\n' ∉ cause.message.toList := by
  have hkind : ∀ kind : OperandKind, '\n' ∉ kind.inspect.toList := fun kind => by
    cases kind <;> decide
  cases cause with
  | unary op kind =>
      have hop : '\n' ∉ op.inspect.toList := by cases op <;> decide
      change '\n' ∉ ("unary " ++ op.inspect ++ " is not defined for " ++ kind.inspect).toList
      simp only [String.toList_append, List.mem_append, not_or]
      exact ⟨⟨⟨by decide, hop⟩, by decide⟩, hkind kind⟩
  | binary op kind =>
      have hop : '\n' ∉ op.inspect.toList := by cases op <;> decide
      change '\n' ∉ ("binary " ++ op.inspect ++ " is not defined for " ++ kind.inspect).toList
      simp only [String.toList_append, List.mem_append, not_or]
      exact ⟨⟨⟨by decide, hop⟩, by decide⟩, hkind kind⟩
  | conversion source target =>
      change '\n' ∉ ("can't convert " ++ source.descriptor ++ " to " ++ target.descriptor).toList
      simp only [String.toList_append, List.mem_append, not_or]
      exact ⟨⟨⟨by decide, h.1.descriptor⟩, by decide⟩, h.2.descriptor⟩

section Comments

variable (owner : ClassName) (m : Method)

theorem text_bindStub : (bindStub (methodSlot owner m)).text = stubLine owner m ++ "\n" := by
  have hsuffix : "') \x7d;".toList.getLast? = some ';' := by decide
  have hlast : (stubLine owner m).toList.getLast? = some ';' := Doc.getLast?_append _ hsuffix
  have hended : (stubLine owner m).toList.getLast? ≠ some '\n' := by
    rw [hlast]
    decide
  exact Doc.text_line hended

variable {owner m} in
theorem stubComment_oneLine {cause : Malformed} (howner : '\n' ∉ owner.text.toList)
    (hname : '\n' ∉ m.name.toList) (htype : m.type.OneLine) (hcause : cause.OneLine) :
    '\n' ∉ (stubComment owner m (.malformedBody cause)).toList := by
  change '\n' ∉ ("// Errored method: " ++ owner.text ++ "." ++ m.name ++ " :: " ++ m.descriptor ++ " :: " ++
    cause.message ++ ";").toList
  simp only [String.toList_append, List.mem_append, not_or]
  exact ⟨⟨⟨⟨⟨⟨⟨⟨by decide, howner⟩, by decide⟩, hname⟩, by decide⟩, htype.descriptor⟩, by decide⟩,
    hcause.message⟩, by decide⟩

end Comments

theorem ended_concat {ds : List Doc} (h : ∀ d ∈ ds, d.Ended) : (Doc.concat ds).Ended := by
  induction ds with
  | nil => rfl
  | cons first rest ih =>
      obtain ⟨hfirst, hrest⟩ := List.forall_mem_cons.1 h
      exact hfirst.append (ih hrest)

/-- The documents in front of the place leave no mark to it. -/
theorem inserted_concat {line : String} {part : Doc} {ds es : List Doc}
    (h : OneApart Doc.Ended (Inserted line part) ds es) :
    Inserted line part (Doc.concat ds) (Doc.concat es) := by
  obtain ⟨front, d, e, back, rfl, rfl, hended, hde⟩ := h
  induction front with
  | nil => exact hde.before _
  | cons first rest ih =>
      obtain ⟨hfirst, hrest⟩ := List.forall_mem_cons.1 hended
      exact (ih hrest).after hfirst

/-- What is laid out in stretches leaves no mark over. -/
theorem LaidOut.ended {job : Job} {s t : State} {methods : List (ClassName × Method)} {d : Doc}
    (h : LaidOut job s t methods (d.entriesAt 0)) : d.Ended := by
  obtain ⟨_, stretches, hlayout⟩ := h
  rw [Doc.Ended, hlayout.entries]
  exact (firstLines_stretches 0 stretches).2

/-- Up to its methods a class asks for names and literals, and has no marks. -/
theorem Assembled.classFront {job : Job} {noting : Prop} (c : Class) :
    Assembled job noting (lowerClassFront job c) :=
  (immediate (.parentBase job c)).bind fun _ => (mapM fieldDefault _).bind fun _ =>
    (immediate (.relatedClasses job c)).bind fun _ => (staticInit c).bind fun _ => .pure _

theorem marks_lowerClassFront {job : Job} {c : Class} {s t : State} {d : Doc}
    (h : (lowerClassFront job c).run s = (.ok d, t)) : d.marks = [] := by
  simp only [lowerClassFront] at h
  obtain ⟨parent, s₁, _, h⟩ := exists_of_run_bind_ok h
  obtain ⟨defaults, s₂, _, h⟩ := exists_of_run_bind_ok h
  obtain ⟨related, s₃, _, h⟩ := exists_of_run_bind_ok h
  obtain ⟨staticInit, s₄, hinit, h⟩ := exists_of_run_bind_ok h
  obtain ⟨rfl, rfl⟩ := eq_of_run_pure h
  simp [marks_lowerStaticInit hinit]

/-- The same job for the program without that body. -/
def Job.withoutBody (job : Job) (name : ClassName) (i : Nat) : Job :=
  job.on (job.program.withoutBody name i)

/-- A method of an emitted class that has a body of its own, without string literals,
which cannot be lowered. No native body stands in for it, and no method shares it,
unless an equal one before it is the one meant. -/
structure Fault (job : Job) (c : Class) (i : Nat) (m : Method) (body : Body) (cause : Malformed) :
    Prop where
  isMember : c ∈ job.program.classes
  notNative : c.isNative = false
  notVerbatim : c.verbatim = none
  listed : c.methods[i]? = some m
  noNatives : m.nativesFor job.config.target = []
  noBodyRef : m.bodyRef = none
  ownBody : m.body = some body
  stringless : body.Stringless
  fails : ((lowerBody job c.name m body).runFrom .initial).1 = .error (.malformedBody cause)
  unshared : ∀ d ∈ job.program.classes, ∀ other ∈ d.methods, ∀ r, other.bodyRef = some r →
    job.program.resolve r = some m → m ∈ c.methods.take i

namespace Fault

variable {job : Job} {c : Class} {i : Nat} {m : Method} {body : Body} {cause : Malformed}
  (h : Fault job c i m body cause)

include h

/-- The cause tells no class names but those in the body. -/
theorem cause_oneLine (hbody : body.OneLine) : cause.OneLine := by
  obtain ⟨e, he, hcause⟩ := exists_malformation h.stringless h.fails
  cases e with
  | cast value source target =>
      obtain rfl := Option.some.inj hcause
      exact hbody value source target he
  | unary | binary =>
      obtain rfl := Option.some.inj hcause
      trivial
  | _ => cases hcause

theorem shares {d : Class} (hd : d ∈ job.program.classes) {other : Method} (hother : other ∈ d.methods) :
    SharesAlike job.program (job.program.withoutBody c.name i) other := by
  intro r hr
  rw [Program.resolve_withoutBody h.isMember h.listed (h.unshared d hd other hother r hr)]

/-- The methods of the class differ in this one. -/
theorem methods_apart :
    OneApart (· ∈ c.methods) (fun a b => a = m ∧ b = m.bodiless) c.methods
      (c.withoutBody i).methods := by
  obtain ⟨hmethods, hwithout⟩ := c.split_methods h.listed
  refine ⟨_, m, m.bodiless, _, hmethods, hwithout, fun other hother => ?_, rfl, rfl⟩
  rw [hmethods]
  exact List.mem_append.2 ((List.mem_append.1 hother).imp_right (List.mem_cons_of_mem m))

variable (hacyclic : job.program.Acyclic) (howns : job.program.OwnsFields)

include hacyclic howns

/-- From any state the body fails as it does from the first, and leaves the pool as
it is. -/
theorem lowerBody_run {s : State} (hs : Determined job.program s.fieldNames) :
    ∃ t, (lowerBody job c.name m body).run s = (.error (.malformedBody cause), t) ∧
      t.pool = s.pool ∧ Determined job.program t.fieldNames := by
  have hinitial : Determined job.program State.initial.fieldNames := determined_nil job.program
  have hends := lowerBody_stringless hacyclic howns h.stringless c.name m State.initial.pool s.pool
    .initial s ⟨⟨rfl, hinitial⟩, rfl, hs⟩
  have hfails := h.fails
  rw [Emit.runFrom] at hfails
  generalize (lowerBody job c.name m body).run .initial = r at hends hfails
  generalize (lowerBody job c.name m body).run s = r' at hends ⊢
  cases hends with
  | ok => cases hfails
  | error hstate =>
      obtain rfl := Except.error.inj hfails
      exact ⟨_, rfl, hstate.right⟩

/-- The method is emitted as without its body, with the comment in front. -/
theorem lowerMethod_agree :
    Agree (SamePool job.program)
      (Inserted (stubComment c.name m (.malformedBody cause)) (bindStub (methodSlot c.name m)))
      (lowerMethod job c.name m) (lowerMethod (job.withoutBody c.name i) c.name m.bodiless) := by
  intro s t hst
  obtain ⟨u, hrun, hpool, hu⟩ := h.lowerBody_run hacyclic howns hst.left
  have hgenerated : (lowerGenerated job c.name m).run s = (.error (.malformedBody cause), u) := by
    rw [lowerGenerated, generatedBody?, h.ownBody]
    exact run_bind_error hrun
  have hbind : (bindMethod job c.name m (methodSlot c.name m)).run s =
      (.error (.malformedBody cause), u) := by
    rw [bindMethod, h.noNatives]
    exact run_bind_error hgenerated
  have hstub : ∃ v, (lowerMethod job c.name m).run s =
      (.ok (stubDoc c.name m (.malformedBody cause)), v) ∧ v.pool = u.pool ∧
        v.fieldNames = u.fieldNames := ⟨_, run_tryCatch_error hbind, rfl, rfl⟩
  obtain ⟨v, hstub, hvpool, hvnames⟩ := hstub
  have hplain : (lowerMethod (job.withoutBody c.name i) c.name m.bodiless).run t =
      (.ok (bindStub (methodSlot c.name m)), t) := by
    have hnone : (lowerGenerated (job.withoutBody c.name i) c.name m.bodiless).run t = (.ok none, t) := by
      rw [lowerGenerated, generatedBody?]
      simp only [Method.bodiless, h.noBodyRef]
      rfl
    have hnatives : m.bodiless.nativesFor (job.withoutBody c.name i).config.target = [] := h.noNatives
    have hbind : (bindMethod (job.withoutBody c.name i) c.name m.bodiless
        (methodSlot c.name m.bodiless)).run t = (.ok (bindStub (methodSlot c.name m)), t) := by
      rw [bindMethod, hnatives]
      exact run_bind_ok hnone
    exact run_tryCatch_ok hbind
  rw [hstub, hplain]
  refine .ok (.here _ _) ⟨?_, ?_, hst.right⟩
  · rw [hvpool, hpool, hst.pool]
  · rw [hvnames]
    exact hu

/-- Every other method is emitted the same. -/
theorem lowerMethod_other (owner : ClassName) {d : Class} (hd : d ∈ job.program.classes) {other : Method}
    (hother : other ∈ d.methods) :
    Agree (SamePool job.program) (fun d e => d = e ∧ d.Ended) (lowerMethod job owner other)
      (lowerMethod (job.withoutBody c.name i) owner other) := by
  rw [Job.withoutBody, lowerMethod_revised (job.program.revised_withoutBody c.name i) owner
    (h.shares hd hother)]
  have hassembled : Assembled job True (lowerMethod job owner other) := .methodDoc trivial owner other
  exact (hassembled.agree_of_pool hacyclic howns).also fun hrun => (laidOut_method hrun 0).ended

/-- The class is emitted as without the body, with the comment in front of the
stub. -/
theorem lowerClass_agree :
    Agree (SamePool job.program)
      (Inserted (stubComment c.name m (.malformedBody cause)) (bindStub (methodSlot c.name m)))
      (lowerClass job c) (lowerClass (job.withoutBody c.name i) (c.withoutBody i)) := by
  have hfront : lowerClassFront (job.withoutBody c.name i) (c.withoutBody i) = lowerClassFront job c := by
    rw [← bodyRemoved_own i]
    exact lowerClassFront_revised (job.program.revised_withoutBody c.name i) c
  have hassembled : Assembled job True (lowerClassFront job c) := .classFront c
  have hfronts := (hassembled.agree_of_pool hacyclic howns).also
    fun hrun => Doc.ended_of_no_marks (marks_lowerClassFront hrun)
  have hsame : ∀ other ∈ c.methods, Agree (SamePool job.program) (fun d e => d = e ∧ d.Ended)
      (lowerMethod job c.name other) (lowerMethod (job.withoutBody c.name i) c.name other) :=
    fun other hother => h.lowerMethod_other hacyclic howns c.name h.isMember hother
  have hplace : ∀ a b : Method, a = m ∧ b = m.bodiless → Agree (SamePool job.program)
      (Inserted (stubComment c.name m (.malformedBody cause)) (bindStub (methodSlot c.name m)))
      (lowerMethod job c.name a) (lowerMethod (job.withoutBody c.name i) c.name b) := by
    rintro _ _ ⟨rfl, rfl⟩
    exact h.lowerMethod_agree hacyclic howns
  have hname : (c.withoutBody i).name = c.name := rfl
  rw [lowerClass_eq, lowerClass_eq, hfront, hname]
  refine hfronts.bind fun front _ hfront => ?_
  obtain ⟨rfl, hfront⟩ := hfront
  cases hinit : m.isInit with
  | true =>
      have hother : (!m.isInit) = false := by rw [hinit, Bool.not_true]
      have hinits := h.methods_apart.filter_kept (·.isInit)
        (by rintro _ _ ⟨rfl, rfl⟩; exact ⟨hinit, hinit⟩)
      obtain ⟨hlists, hothers⟩ := h.methods_apart.filter_dropped (!·.isInit)
        (by rintro _ _ ⟨rfl, rfl⟩; exact ⟨hother, hother⟩)
      rw [hlists]
      refine (Agree.mapM_oneApart hsame hplace hinits).bind fun inits inits' hinits => ?_
      refine (Agree.mapM_same hsame hothers).bind fun others _ hothers => ?_
      obtain ⟨rfl, _⟩ := hothers
      exact .pure (((inserted_concat hinits).after hfront).before _)
  | false =>
      have hother : (!m.isInit) = true := by rw [hinit, Bool.not_false]
      obtain ⟨hlists, hinits⟩ := h.methods_apart.filter_dropped (·.isInit)
        (by rintro _ _ ⟨rfl, rfl⟩; exact ⟨hinit, hinit⟩)
      have hothers := h.methods_apart.filter_kept (!·.isInit)
        (by rintro _ _ ⟨rfl, rfl⟩; exact ⟨hother, hother⟩)
      rw [hlists]
      refine (Agree.mapM_same hsame hinits).bind fun inits _ hinits => ?_
      refine (Agree.mapM_oneApart hsame hplace hothers).bind fun others others' hothers => ?_
      obtain ⟨rfl, hinits⟩ := hinits
      exact .pure ((inserted_concat hothers).after (hfront.append (ended_concat hinits)))

end Fault

end Emission

end ClassScript
