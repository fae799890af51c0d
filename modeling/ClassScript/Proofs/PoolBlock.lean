import ClassScript.Proofs.LoweredParts
import ClassScript.Proofs.PoolHistory
import ClassScript.Proofs.ProgramRun

/-!
The string pool from its first slot to the block that fills it. However classes
and methods are emitted, slots only come to the end and keep their literals. A
program that is emitted without stubs has filled exactly the slots of the
literals in it, in the order in which they are met first.
-/

namespace ClassScript.Emission

open Output

/-- The strings that a method asks the pool for: those of its generated body, if
that is lowered. -/
def Job.methodStrings (job : Job) (m : Method) : List String :=
  match selectedBody? job m with
  | some body => (body.stmt.lowered job.config.nativeSwitch).flatMap Stmt.ownStrings
  | none => []

/-- The strings that fields start with. -/
def fieldStrings (fields : List Field) : List String :=
  fields.flatMap fun f => f.initial.string?.toList

/-- The strings that a class asks the pool for: of its own and its ancestors'
instance fields, nearest first, of its static fields, of its initialisers and of
its other methods. -/
def Job.classStrings (job : Job) (c : Class) : List String :=
  fieldStrings (c.instanceFields ++ (job.program.ancestors c).flatMap (·.instanceFields)) ++
    fieldStrings c.staticFields ++
    (c.methods.filter (·.isInit)).flatMap job.methodStrings ++
    (c.methods.filter (!·.isInit)).flatMap job.methodStrings

/-- The strings that a program asks the pool for, class by class in the order of
emission; verbatim text asks for none. -/
def Job.programStrings (job : Job) : List String :=
  (job.program.emissionOrder.filter (·.verbatim.isNone)).flatMap job.classStrings

/-- The statements that fill a pool with these literals. -/
def poolBlock (literals : List String) : String :=
  "SS = new Array(" ++ Text.natural literals.length ++ ");\n" ++
    String.join (literals.zipIdx.map fun (value, slot) =>
      "SS[" ++ Text.natural slot ++ "] = " ++ Script.quote value ++ ";\n")

theorem text_pool (p : StringPool) : p.doc.text = poolBlock p.entries := by
  have hslot : ∀ value slot,
      (Doc.line ("SS[" ++ Text.natural slot ++ "] = " ++ Script.quote value ++ ";")).text =
        "SS[" ++ Text.natural slot ++ "] = " ++ Script.quote value ++ ";\n" :=
    fun value slot => Doc.text_line_append _ (c := ';') rfl (by decide)
  have hsize : (Doc.line ("SS = new Array(" ++ Text.natural p.size ++ ");")).text =
      "SS = new Array(" ++ Text.natural p.size ++ ");\n" :=
    Doc.text_line_append _ (c := ';') rfl (by decide)
  rw [StringPool.doc, Doc.text_append, hsize, Doc.lines, Doc.text_concat, StringPool.slots,
    List.map_map, List.map_map, List.map_map]
  apply congrArg (_ ++ String.join ·)
  apply List.map_congr_left
  rintro ⟨value, slot⟩ _
  simp only [Function.comp_apply, hslot]

/-- A slot that is bound has asked for the strings of the body selected for it. -/
theorem Bound.pool {job : Job} {owner : ClassName} {m : Method} {s t : State} {d : Doc}
    (h : Bound job owner m s t d) : t.pool = s.pool.allocAll (job.methodStrings m) := by
  have hbody : ∀ {body : Body} {doc : Doc} {u : State}, selectedBody? job m = some body →
      (lowerBody job owner m body).run s = (.ok doc, u) → t.pool = u.pool →
      t.pool = s.pool.allocAll (job.methodStrings m) := by
    intro body doc u hbody hrun hpool
    have hquiet : Assembled job False (lowerBody job owner m body) := .body owner m body
    have hstubs : u.stubs = s.stubs := hquiet.stubs_eq hrun
    have hdemands := (lowerBody_leaves job owner m body).1 s doc u hrun
    rw [hpool, hdemands.2 hstubs, Job.methodStrings, hbody]
  cases h with
  | alone hselected hrun hpool => exact hbody hselected hrun hpool
  | guarded hselected hrun hpool => exact hbody hselected hrun hpool
  | plain hselected hpool =>
      rw [hpool, Job.methodStrings, hselected]
      rfl

namespace Demands

variable {job : Job}

/-- A method whose slot is not left to a stub asks for its strings. -/
theorem methodDoc (owner : ClassName) (m : Method) :
    Demands (job.methodStrings m) (lowerMethod job owner m) := by
  intro s d t h
  rcases lowerMethod_run h with ⟨hbound, hstubs⟩ | ⟨error, _, hstubs⟩
  · exact ⟨hstubs ▸ List.prefix_rfl, fun _ => hbound.pool⟩
  · refine ⟨hstubs ▸ List.prefix_append _ _, fun hsame => ?_⟩
    rw [hstubs] at hsame
    exact absurd hsame (by simp)

theorem fieldDefault (f : Field) : Demands f.initial.string?.toList (fieldDefault job f) :=
  (declaredFieldName f).after fun _ => (literal f.initial).before fun _ => .pure _

theorem fieldDefaults (fields : List Field) :
    Demands (fieldStrings fields) (fields.mapM (Emission.fieldDefault job)) :=
  .mapM fieldDefault

theorem staticInit (c : Class) : Demands (fieldStrings c.staticFields) (lowerStaticInit job c) := by
  unfold lowerStaticInit
  dsimp only
  split
  · next hnone =>
      rw [Bool.and_eq_true, List.isEmpty_iff] at hnone
      rw [hnone.1]
      exact .pure _
  · exact (fieldDefaults _).before fun _ => .pure _

theorem classDoc (c : Class) : Demands (job.classStrings c) (lowerClass job c) := by
  unfold lowerClass Job.classStrings
  simp only [List.append_assoc]
  exact (immediate (.parentBase job c)).after fun _ => (fieldDefaults _).bind fun _ =>
    (immediate (.relatedClasses job c)).after fun _ => (staticInit c).bind fun _ => (mapM fun m => methodDoc c.name m).bind fun _ =>
    (mapM fun m => methodDoc c.name m).before fun _ => .pure _

theorem classDocs (classes : List Class) :
    Demands ((classes.filter (·.verbatim.isNone)).flatMap job.classStrings)
      (classes.mapM fun c => do return (c, ← lowerOrCopy job c)) := by
  have hclass : ∀ c, Demands (if c.verbatim.isNone then job.classStrings c else [])
      (do return (c, ← lowerOrCopy job c)) := by
    intro c
    unfold lowerOrCopy
    cases c.verbatim with
    | none => exact (classDoc c).before fun _ => .pure _
    | some text => exact (pure _).before fun _ => .pure _
  rw [flatMap_filter]
  exact mapM hclass

end Demands

/-- A program that is emitted without stubs leaves the pool of its strings. -/
theorem pool_of_lowerProgram {job : Job} {s t : State} {d : Doc}
    (h : (lowerProgram job).run s = (.ok d, t)) (hstubs : t.stubs = s.stubs) :
    t.pool = s.pool.allocAll job.programStrings := by
  obtain ⟨classes, fragments, start, u, v, hbefore, hclasses, hafter, _, _⟩ := lowerProgram_run h
  have hmiddle : v.stubs = u.stubs := by rw [← hafter.stubs, hstubs, hbefore.stubs]
  obtain ⟨_, hpool⟩ := Demands.classDocs job.program.emissionOrder u classes v hclasses
  rw [hafter.pool, hpool hmiddle, hbefore.pool]
  rfl

/-- However emissions follow one another, slots only come to the end of the pool,
no two have the same literal, and one that has been written keeps its own. What
is emitted for a whole program without stubs has, behind its first line and the
fragments in front, the block for the literals in it by first occurrence. -/
theorem pool_exact (job : Job) :
    (∀ requests, (stateFrom job .initial requests).pool.entries.Nodup ∧
      ∀ text slot, (stateFrom job .initial requests).pool.slot? text = some slot ↔
        (stateFrom job .initial requests).pool.entries[slot]? = some text) ∧
    (∀ past later, (stateFrom job .initial past).pool.entries <+:
      (stateFrom job .initial (past ++ later)).pool.entries) ∧
    (∀ past request later text slot,
      Writes job (request.run job) (stateFrom job .initial past) text slot →
        (stateFrom job .initial (past ++ request :: later)).pool.entries[slot]? = some text) ∧
    ∀ result t, (emitProgram job).runFrom .initial = (.ok result, t) → t.stubs = [] →
      t.pool.entries = job.programStrings.eraseDups ∧
      ∃ fragments back,
        List.Forall₂ (fun f halves => job.halves f = .ok halves) job.config.fragments fragments ∧
        result.source = job.headerDoc.text ++
          (Doc.concat (fragments.map fun f => optionalLine f.1)).text ++
          poolBlock job.programStrings.eraseDups ++ back := by
  have hnodup : ∀ requests, (stateFrom job .initial requests).pool.entries.Nodup :=
    fun requests => stateFrom_nodup List.nodup_nil requests
  refine ⟨fun requests => ⟨hnodup requests, fun text slot => ?_⟩, fun past later => ?_,
    fun past request later text slot hwrites => ?_, fun result t hrun hstubs => ?_⟩
  · exact StringPool.slot?_eq_some_iff (hnodup requests)
  · rw [stateFrom_append]
    exact stateFrom_extends _ later
  · rw [stateFrom_append]
    exact StringPool.getElem?_of_extends (stateFrom_extends _ later) hwrites.getElem?
  · obtain ⟨d, u, hlower, hresult, hu⟩ := exists_of_emitProgram_ok hrun
    obtain ⟨classes, fragments, start, _, _, _, _, _, hhalves, hd⟩ := lowerProgram_run hlower
    have hpool : u.pool.entries = job.programStrings.eraseDups := by
      rw [pool_of_lowerProgram hlower (hu.stubs.trans hstubs)]
      exact StringPool.entries_allocAll_empty _
    let back : Doc := Doc.concat (classes.map fun c => .splice c.2) ++
      Doc.lines ["__createJavaArrays();", "__buildStrings();", "N.linit();",
        job.program.entry.staticInitCall, start] ++
      Doc.concat (fragments.reverse.map fun f => optionalLine f.2)
    refine ⟨hu.pool ▸ hpool, fragments, back.text, hhalves, ?_⟩
    rw [hresult, ← hpool, ← text_pool, hd]
    simp only [back, resultOf, programDoc, Doc.text_append, String.append_assoc]

/-- Asked for such a method, an emitter writes its text as the slot of it. -/
theorem writes_mentioning (job : Job) (c : Class) (s : State) (owner text : String) (next : Stmt) :
    Writes job (Request.run job (.ofMethod c (.mentioning owner text next))) s text
      (s.pool.alloc text).1 := by
  let m : Method := .mentioning owner text next
  let body : Body := ⟨[], .block [.eval (.literal (.string text)), next]⟩
  have hliteral : Writes job (literal (.string text)) s text (s.pool.alloc text).1 := .here rfl
  generalize (s.pool.alloc text).1 = slot at hliteral ⊢
  have hstmt : Writes job ((lowerStmt job ⟨⟨c.name, "mention", ⟨[], .void⟩⟩, false⟩ none
      (.block [.eval (.literal (.string text)), next])).run 0) s text slot := by
    simp only [lowerStmt, lowerStmts, lowerExpr, StateT.run_bind, StateT.run_monadLift]
    refine .first (fun p => ?_) (.first (fun p => .pure _) (.first (fun p => .pure _) hliteral))
    exact ((Assembled.steps (StepsCounting.stmt job _ next none p.2)).bind fun q =>
      .bind (.pure _) fun _ => .pure _).bind fun _ => .pure _
  have hbody : Writes job (lowerBody job c.name m body) s text slot := .first (fun _ => .pure _) hstmt
  have hgenerated : Writes job (lowerGenerated job c.name m) s text slot :=
    .first (fun _ => .pure _) hbody
  have hbind : Writes job (bindMethod job c.name m (methodSlot c.name m)) s text slot := by
    refine .first (fun found => ?_) hgenerated
    cases found with
    | none => exact .pure _
    | some doc => exact .pure _
  have hmethod : Writes job (lowerMethod job c.name m) s text slot := by
    refine .tried (fun e => ?_) hbind
    split
    · exact (Assembled.note trivial _ _ _).bind fun _ => .pure _
    · exact .throw _
  exact .first (fun _ => .pure _) hmethod

/-- A method that says one text, another one, and the first one again. -/
def echo : Method :=
  .mentioning "Main" "b" (.block [.eval (.literal (.string "a")), .eval (.literal (.string "b"))])

def echoing : Job := ⟨solo [echo], {}, plainTemplater⟩

theorem programStrings_echoing : echoing.programStrings = ["b", "a", "b"] := by
  have horder : echoing.program.emissionOrder = [soloClass [echo]] := emissionOrder_solo _
  have hancestors : echoing.program.ancestors (soloClass [echo]) = [] := ancestors_solo _
  have hclass : echoing.classStrings (soloClass [echo]) = ["b", "a", "b"] := by
    rw [Job.classStrings, hancestors]
    rfl
  rw [Job.programStrings, horder]
  exact (List.append_nil _).trans hclass

theorem lowerProgram_echoing :
    ∃ d t, (lowerProgram echoing).run .initial = (.ok d, t) ∧ t.stubs = [] := by
  refine exists_lowerProgram_solo rfl rfl rfl (fun s => ?_) .initial
  exact ⟨_, _, rfl, (List.append_nil _).symm⟩

/-- An emitter keeps the slots of the method, and the program fills them. -/
theorem pool_exact_echoing :
    let request : Request := .ofMethod (soloClass [echo]) echo
    Writes echoing (request.run echoing) .initial "b" 0 ∧
      (stateFrom echoing .initial [request, request]).pool.entries[0]? = some "b" ∧
      ∃ result t back, (emitProgram echoing).runFrom .initial = (.ok result, t) ∧ t.stubs = [] ∧
        t.pool.entries = ["b", "a"] ∧ result.source = poolBlock ["b", "a"] ++ back := by
  intro request
  obtain ⟨_, _, hkept, hprogram⟩ := pool_exact echoing
  have hwrites : Writes echoing (request.run echoing) .initial "b" 0 := writes_mentioning _ _ _ _ _ _
  refine ⟨hwrites, hkept [] request [request] "b" 0 hwrites, ?_⟩
  obtain ⟨d, u, hlower, hstubs⟩ := lowerProgram_echoing
  obtain ⟨t, hrun, ht⟩ := emitProgram_run hlower
  have hnone : t.stubs = [] := ht.stubs.symm.trans hstubs
  obtain ⟨hentries, fragments, back, hfragments, hsource⟩ := hprogram _ t hrun hnone
  rw [programStrings_echoing] at hentries hsource
  cases hfragments
  exact ⟨_, t, back, hrun, hnone, hentries, hsource⟩

end ClassScript.Emission
