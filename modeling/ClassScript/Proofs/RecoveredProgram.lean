import ClassScript.Proofs.ClassOrder
import ClassScript.Proofs.Recovery

/-!
A program with a body that cannot be lowered, next to the same program without this
body. Whatever was emitted before, class and program are emitted from the one as from
the other, but for the comment and for the numbers of the lines behind it.
-/

namespace ClassScript

namespace Emission

open Output

/-- The main method is called alike, whatever its body. -/
theorem mainCall_revised {f : Class → Class} (hf : RevisesBodies f) (c : Class) :
    mainCall (f c) = mainCall c := by
  have hmain := hf.method? c "main" mainSignature.descriptor
  simp only [mainCall, hf.name, MethodRef.descriptor]
  cases hm : c.method? "main" mainSignature.descriptor with
  | none =>
      rw [hm, Option.map_none, Option.map_eq_none_iff] at hmain
      rw [hmain]
  | some m =>
      rw [hm, Option.map_some, Option.map_eq_some_iff] at hmain
      obtain ⟨m', hm', hbody⟩ := hmain
      have hstatic : m'.isStatic = m.isStatic := (congrArg Method.isStatic hbody :)
      rw [hm', Option.filter_some, Option.filter_some, hstatic]
      cases m.isStatic with
      | true => simp only [reduceIte, methodName_of_bodiless hbody]
      | false => rfl

theorem startStatement_withoutBody (job : Job) (name : ClassName) (i : Nat) (entry : Class)
    (custom : Option String) :
    startStatement (job.withoutBody name i) (bodyRemoved name i entry) custom =
      startStatement job entry custom := by
  cases custom with
  | some text => rfl
  | none => exact mainCall_revised (revisesBodies_bodyRemoved name i) entry

/-- A line put in among the classes of a program is put in in the program. -/
theorem inserted_programDoc {job : Job} {name : ClassName} {i : Nat} {line : String} {part : Doc}
    {ds es : List (Class × Doc)} (pool : StringPool) (fragments : List (Option String × Option String))
    (start : String)
    (h : OneApart (fun e => e.2.Ended) (fun e e' => Inserted line part e.2 e'.2) ds es) :
    Inserted line part (programDoc job pool fragments ds start)
      (programDoc (job.withoutBody name i) pool fragments es start) := by
  have hclasses : Inserted line part (Doc.concat (ds.map fun e => .splice e.2))
      (Doc.concat (es.map fun e => .splice e.2)) :=
    inserted_concat (h.map (fun e => Doc.splice e.2) (fun _ he => he) fun _ _ he => he.splice)
  have hfront := Doc.ended_of_no_marks (marks_programFront job fragments pool)
  exact ((hclasses.after hfront).before _).before _

theorem SamePool.after {p : Program} {s t u v : State} (h : SamePool p s t) (hu : SameSoFar s u)
    (hv : SameSoFar t v) : SamePool p u v where
  pool := hu.pool.symm.trans (h.pool.trans hv.pool)
  left := hu.fieldNames ▸ h.left
  right := hv.fieldNames ▸ h.right

namespace Fault

variable {job : Job} {c : Class} {i : Nat} {m : Method} {body : Body} {cause : Malformed}
  (h : Fault job c i m body cause)

include h

/-- The classes in the order of their emission differ in this one. -/
theorem order_apart :
    OneApart (fun d => d ∈ job.program.classes ∧ d.name ≠ c.name)
      (fun a b => a = c ∧ b = c.withoutBody i) job.program.emissionOrder
      (job.withoutBody c.name i).program.emissionOrder := by
  have horder : (job.withoutBody c.name i).program.emissionOrder =
      job.program.emissionOrder.map (bodyRemoved c.name i) :=
    Program.emissionOrder_map (revisesBodies_bodyRemoved c.name i) rfl
  have hperm := Program.emissionOrder_perm (p := job.program)
  have hmem : c ∈ job.program.emissionOrder :=
    hperm.mem_iff.2 (Program.mem_emitted.2 ⟨h.isMember, h.notNative⟩)
  have hnames : (job.program.emissionOrder.map Class.name).Nodup :=
    (hperm.map Class.name).nodup_iff.2 Program.emitted_names_nodup
  obtain ⟨front, back, hsplit, hremoved, hothers⟩ := exists_split_bodyRemoved i hnames hmem
  refine ⟨front, c, c.withoutBody i, back, hsplit, horder.trans hremoved, fun d hd => ?_, rfl, rfl⟩
  have hd' : d ∈ job.program.emissionOrder := by
    rw [hsplit]
    exact List.mem_append.2 ((List.mem_append.1 hd).imp_right (List.mem_cons_of_mem c))
  exact ⟨mem_classes_of_mem_emissionOrder hd', hothers d hd⟩

variable (hacyclic : job.program.Acyclic) (howns : job.program.OwnsFields)

include hacyclic howns

/-- Every other class is emitted the same. -/
theorem lowerOrCopy_other {d : Class} (hd : d ∈ job.program.classes) (hname : d.name ≠ c.name) :
    Agree (SamePool job.program) (fun e e' => e = e' ∧ e.Ended) (lowerOrCopy job d)
      (lowerOrCopy (job.withoutBody c.name i) d) := by
  have hclass : lowerClass (job.withoutBody c.name i) d = lowerClass job d :=
    lowerClass_revised (job.program.revised_withoutBody c.name i) (bodyRemoved_other i hname)
      fun other hother => h.shares hd hother
  have hsame : lowerOrCopy (job.withoutBody c.name i) d = lowerOrCopy job d := by
    simp only [lowerOrCopy, hclass]
  have hassembled : Assembled job True (lowerOrCopy job d) := .orCopy trivial d
  rw [hsame]
  exact (hassembled.agree_of_pool hacyclic howns).also fun hrun => (laidOut_orCopy hrun 0).ended

/-- The classes of the program are emitted as without the body, with the comment in
front of the stub. -/
theorem classDocs_agree :
    Agree (SamePool job.program)
      (OneApart (fun e => e.2.Ended) fun e e' =>
        Inserted (stubComment c.name m (.malformedBody cause)) (bindStub (methodSlot c.name m)) e.2 e'.2)
      (job.program.emissionOrder.mapM fun d => do return (d, ← lowerOrCopy job d))
      ((job.withoutBody c.name i).program.emissionOrder.mapM fun d => do
        return (d, ← lowerOrCopy (job.withoutBody c.name i) d)) := by
  have hown : lowerOrCopy job c = lowerClass job c := by
    simp only [lowerOrCopy, h.notVerbatim]
  have hplain : lowerOrCopy (job.withoutBody c.name i) (c.withoutBody i) =
      lowerClass (job.withoutBody c.name i) (c.withoutBody i) := by
    have hverbatim : (c.withoutBody i).verbatim = none := h.notVerbatim
    simp only [lowerOrCopy, hverbatim]
  refine Agree.mapM_oneApart (fun d hd => ?_) (fun a b hab => ?_) h.order_apart
  · refine (h.lowerOrCopy_other hacyclic howns hd.1 hd.2).bind fun e _ he => ?_
    obtain ⟨rfl, hended⟩ := he
    exact .pure ⟨rfl, hended⟩
  · rw [hab.1, hab.2, hown, hplain]
    exact (h.lowerClass_agree hacyclic howns).bind fun e e' he => .pure he

/-- The program is emitted as without the body, with the comment in front of the
stub. -/
theorem lowerProgram_agree :
    Agree (SamePool job.program)
      (Inserted (stubComment c.name m (.malformedBody cause)) (bindStub (methodSlot c.name m)))
      (lowerProgram job) (lowerProgram (job.withoutBody c.name i)) := by
  have hrevised := job.program.revised_withoutBody c.name i
  have horder : "class emission order" ≠ stubMessage := by decide
  have hentry : "entry point" ≠ stubMessage := by decide
  simp only [lowerProgram]
  apply (agree_of_silent .after (note_silent horder) (note_silent horder)).bindEq
  intro _
  apply (h.classDocs_agree hacyclic howns).bind
  intro ds es hdocs
  apply (agree_of_silent .after (noteSizes_silent ds) (noteSizes_silent es)).bindEq
  intro _
  have hclass : (job.withoutBody c.name i).program.class? (job.withoutBody c.name i).program.entry =
      (job.program.class? job.program.entry).map (bodyRemoved c.name i) := hrevised.class? _
  rw [hclass]
  cases job.program.class? job.program.entry with
  | none => exact .throw _
  | some entryClass =>
      apply (agree_of_silent .after (note_silent hentry) (note_silent hentry)).bindEq
      intro _
      have hfragments : Assembled job True (job.config.fragments.mapM (resolveFragment job)) :=
        .mapM .fragment _
      apply (hfragments.agree_of_pool hacyclic howns).bindEq
      intro fragments
      apply Agree.get.bind
      intro s t hst
      rw [startStatement_withoutBody]
      have hstart : Assembled job True
          (startStatement job entryClass (job.program.customMain? job.config.target)) := .start _ _
      apply (hstart.agree_of_pool hacyclic howns).bindEq
      intro start
      rw [hst.pool]
      exact .pure (inserted_programDoc t.pool fragments start hdocs)

end Fault

/-- A text in which a comment stands on a line of its own in front of a stub, and the
same text without it. -/
structure CommentedAt (comment stub front back text plain : String) : Prop where
  lineStart : (Text.lines front.toList).getLast? = some []
  text : text = front ++ (comment ++ "\n") ++ (stub ++ "\n") ++ back
  plain : plain = front ++ (stub ++ "\n") ++ back

/-- What the comment changes of a result: its line is put in, and in debug mode what
is mapped behind it lies one line further down. -/
structure Commented (job : Job) (comment stub : String) (result plain : Result) : Prop where
  entryPoint : result.entryPoint = plain.entryPoint
  noMap : job.config.debug = false → result.sourceMap = none ∧ plain.sourceMap = none
  source : ∃ front back, CommentedAt comment stub front back result.source plain.source ∧
    (job.config.debug = true → ∃ (map plainMap : LineMap) (segments : List Segment),
      result.sourceMap = some (map.toJson job.config.outputName).text ∧
      plain.sourceMap = some (plainMap.toJson job.config.outputName).text ∧
      map.sources = plainMap.sources ∧
      decodeMappings plainMap.mappings = some segments ∧
      decodeMappings map.mappings =
        some (segments.map (Segment.moved (pushed (front.toList.count '\n')))))

section Results

variable {owner : ClassName} {m : Method} {comment : String} {d e : Doc}
  (hline : '\n' ∉ comment.toList) (h : Inserted comment (bindStub (methodSlot owner m)) d e)

include hline h

theorem commentedAt_text :
    ∃ front back, CommentedAt comment (stubLine owner m) front back d.text e.text ∧
      (d.write .empty).marks =
        (e.write .empty).marks.map (moved (pushed (front.toList.count '\n'))) := by
  obtain ⟨front, back, hstart, hd, he, hmarks⟩ := h.exists_text hline
  rw [text_bindStub] at hd he
  exact ⟨front, back, ⟨hstart, hd, he⟩, hmarks⟩

theorem commented_resultOf (job : Job) (name : ClassName) (i : Nat) :
    Commented job comment (stubLine owner m) (resultOf job d) (resultOf (job.withoutBody name i) e) where
  entryPoint := rfl
  noMap hdebug := ⟨sourceMap_resultOf_plain hdebug d, sourceMap_resultOf_plain hdebug e⟩
  source := by
    obtain ⟨front, back, htexts, hmarks⟩ := commentedAt_text hline h
    have hmono := strictMono_pushed (front.toList.count '\n')
    exact ⟨front, back, htexts, exists_sourceMaps_moved rfl hmono hmarks⟩

end Results

/-- A body that cannot be lowered costs its method and nothing else, wherever the fault
lies in it. Emitted from one pool, its class and the whole program fail as they do for
the same program without this body, or give what they give for that, with one more
line, a comment right before the stub of the method; and the pools that are left are
the same. In debug mode the line map is the same but for the numbers of the lines
behind the comment, which are greater by one. -/
theorem fault_local (job : Job) (hacyclic : job.program.Acyclic) (howns : job.program.OwnsFields)
    {c : Class} {i : Nat} {m : Method} {body : Body} {cause : Malformed}
    (h : Fault job c i m body cause) (howner : '\n' ∉ c.name.text.toList)
    (hname : '\n' ∉ m.name.toList) (htype : m.type.OneLine) (hbody : body.OneLine) :
    '\n' ∉ (stubComment c.name m (.malformedBody cause)).toList ∧
    ∀ s t, SamePool job.program s t →
      Matching (SamePool job.program)
          (fun text plain => ∃ front back, CommentedAt (stubComment c.name m (.malformedBody cause))
            (stubLine c.name m) front back text plain)
          ((emitClass job c).runFrom s)
          ((emitClass (job.withoutBody c.name i) (c.withoutBody i)).runFrom t) ∧
        Matching (SamePool job.program)
          (Commented job (stubComment c.name m (.malformedBody cause)) (stubLine c.name m))
          ((emitProgram job).runFrom s) ((emitProgram (job.withoutBody c.name i)).runFrom t) := by
  have hline := stubComment_oneLine howner hname htype (h.cause_oneLine hbody)
  refine ⟨hline, fun s t hst => ⟨?_, ?_⟩⟩
  · refine (h.lowerClass_agree hacyclic howns).bind (fun d e hde => ?_) s t hst
    obtain ⟨front, back, htexts, _⟩ := commentedAt_text hline hde
    exact .pure ⟨front, back, htexts⟩
  · exact (h.lowerProgram_agree hacyclic howns).emitProgramFrom
      (fun d e hde => commented_resultOf hline hde job c.name i) .after hst

/-- A body whose last statement cannot be lowered. -/
def faultyBody : Body :=
  ⟨[], .block [.position "Main.java" 3, .eval (.binary .add .int (.literal (.int 1)) (.literal (.int 2))),
    .eval (.unary .not .int .this)]⟩

/-- A method that ends with two positions. -/
def traced : Method :=
  .mentioning "Main" "a" (.block [.position "Main.java" 7, .position "Main.java" 8])

/-- A method with that body. -/
def faulty : Method := { traced with name := "fail", body := some faultyBody }

/-- A job for a program in which this method stands in front of one with positions. -/
def recovering : Job := ⟨solo [faulty, traced], { debug := true }, plainTemplater⟩

theorem fault_recovering :
    Fault recovering (soloClass [faulty, traced]) 0 faulty faultyBody (.unary .not .int) := by
  refine ⟨List.mem_singleton.2 rfl, rfl, rfl, rfl, rfl, rfl, rfl, ?_, rfl, ?_⟩
  · intro text hmem
    simp [faultyBody, Stmt.expressions, expressionsOfAll, Expr.subterms] at hmem
  · intro d hd other hother r hr
    rw [List.mem_singleton.1 hd] at hother
    have hshares : ∀ other ∈ [faulty, traced], other.bodyRef = none := by
      simp [faulty, traced, Method.mentioning]
    rw [hshares other hother] at hr
    cases hr

theorem solo_acyclic (methods : List Method) : (solo methods).Acyclic := by
  refine Program.acyclic_of_rank (fun _ => 0) fun c hc d hd => ?_
  rw [List.mem_singleton.1 hc] at hd
  cases hd.2

theorem lowerProgram_recovering :
    ∃ d t, (lowerProgram recovering).run .initial = (.ok d, t) ∧
      t.stubs = [stubEvent ⟨"Main"⟩ faulty (.malformedBody (.unary .not .int))] := by
  refine exists_lowerProgram_solo rfl rfl rfl (fun s => ?_) .initial
  exact ⟨_, _, rfl, List.filter_append _ _⟩

/-- In front of a method with positions stands one that cannot be lowered. -/
theorem fault_local_recovering :
    ∃ result plain t u,
      (emitProgram recovering).runFrom .initial = (.ok result, t) ∧
      (emitProgram (recovering.withoutBody ⟨"Main"⟩ 0)).runFrom .initial = (.ok plain, u) ∧
      t.pool = u.pool ∧
      Commented recovering "// Errored method: Main.fail :: ()V :: unary Not is not defined for Int;"
        (stubLine ⟨"Main"⟩ faulty) result plain := by
  have howns : recovering.program.OwnsFields := by
    simp [recovering, Program.OwnsFields, solo, soloClass, Class.bare]
  have htype : faulty.type.OneLine := ⟨fun _ h => absurd h List.not_mem_nil, trivial⟩
  have hbody : faultyBody.OneLine := by
    intro value source target hmem
    simp [faultyBody, Stmt.expressions, expressionsOfAll, Expr.subterms] at hmem
  have hinitial : Determined recovering.program State.initial.fieldNames := determined_nil _
  have hcomment : stubComment ⟨"Main"⟩ faulty (.malformedBody (.unary .not .int)) =
      "// Errored method: Main.fail :: ()V :: unary Not is not defined for Int;" := by decide
  obtain ⟨-, hboth⟩ :=
    fault_local recovering (solo_acyclic _) howns fault_recovering (by decide) (by decide) htype hbody
  obtain ⟨-, hmatching⟩ := hboth .initial .initial ⟨rfl, hinitial, hinitial⟩
  obtain ⟨d, v, hlower, _⟩ := lowerProgram_recovering
  obtain ⟨t, hrun, _⟩ := emitProgram_run hlower
  rw [Emit.runFrom, hrun] at hmatching
  generalize hplain : (emitProgram (recovering.withoutBody _ 0)).runFrom .initial = r at hmatching
  cases hmatching with
  | ok hcommented hstate => exact ⟨_, _, _, _, hrun, hplain, hstate.pool, hcomment ▸ hcommented⟩

end Emission

end ClassScript
