import ClassScript.Proofs.LineShift
import ClassScript.Proofs.MethodOutcome
import ClassScript.Proofs.SwitchEmission

/-!
How the emission of a program runs, said once: the documents of its classes in
their order, then fragments and start, which leave the pool as it is. What is
returned is the text of the whole document, and in debug mode the map of its
marks.
-/

namespace ClassScript.Emission

open Output

/-- States with the same pool and the same stubs. -/
structure SameTally (s t : State) : Prop where
  pool : t.pool = s.pool
  stubs : t.stubs = s.stubs

namespace SameTally

theorem refl (s : State) : SameTally s s := ⟨rfl, rfl⟩

theorem trans {s t u : State} (h : SameTally s t) (h' : SameTally t u) : SameTally s u :=
  ⟨h'.pool.trans h.pool, h'.stubs.trans h.stubs⟩

theorem of_sameSoFar {s t : State} (h : SameSoFar s t) : SameTally s t :=
  ⟨h.pool.symm, h.stubs.symm⟩

end SameTally

/-- The first line of the output in debug mode. -/
def Job.header (job : Job) : String :=
  if job.config.debug then "//# sourceMappingURL=" ++ job.config.mapName ++ "\n" else ""

theorem Job.headerDoc_text (job : Job) : job.headerDoc.text = job.header := by
  unfold Job.headerDoc Job.header Config.mapName
  split
  · rw [← String.append_assoc, Doc.text_line_append _ (c := 'p') rfl (by decide), ← String.append_assoc]
  · rfl

/-- The halves of a fragment as they come into the output. -/
def Job.halves (job : Job) (f : Fragment) : Except EmitError (Option String × Option String) :=
  if f.process then do
    let before ← f.parts.1.mapM (job.templater .includeFile)
    let after ← f.parts.2.mapM (job.templater .includeFile)
    return (before, after)
  else return f.parts

/-- What is returned for a program's document. -/
def resultOf (job : Job) (d : Doc) : Result where
  source := d.text
  sourceMap :=
    if job.config.debug then
      some ((LineMap.ofMarks (d.write .empty).marks).toJson job.config.outputName).text
    else none
  entryPoint := EntryPoint.ofClass job.program.entry

theorem sourceMap_resultOf (hdebug : job.config.debug = true) (d : Doc) :
    (resultOf job d).sourceMap =
      some ((LineMap.ofMarks (d.write .empty).marks).toJson job.config.outputName).text :=
  if_pos hdebug

theorem sourceMap_resultOf_plain (hdebug : job.config.debug = false) (d : Doc) :
    (resultOf job d).sourceMap = none :=
  if_neg (by simp [hdebug])

/-- Results whose marks lie on moved lines have line maps that say the same of these
lines. -/
theorem exists_sourceMaps_moved {job' : Job} (hconfig : job'.config = job.config) {f : Nat → Nat}
    (hf : StrictMono f) {d e : Doc}
    (hmarks : (d.write .empty).marks = (e.write .empty).marks.map (moved f))
    (hdebug : job.config.debug = true) :
    ∃ (map plainMap : LineMap) (segments : List Segment),
      (resultOf job d).sourceMap = some (map.toJson job.config.outputName).text ∧
      (resultOf job' e).sourceMap = some (plainMap.toJson job.config.outputName).text ∧
      map.sources = plainMap.sources ∧
      decodeMappings plainMap.mappings = some segments ∧
      decodeMappings map.mappings = some (segments.map (Segment.moved f)) := by
  have hdebug' : job'.config.debug = true := by rw [hconfig, hdebug]
  obtain ⟨segments, hplain, hmoved⟩ := decodeMappings_moved hf (e.write .empty).marks
  rw [sourceMap_resultOf hdebug, sourceMap_resultOf hdebug', hconfig, hmarks, ofMarks_moved hf]
  exact ⟨_, _, segments, rfl, rfl, LineMap.sources_moved f _, hplain, hmoved⟩

/-- The halves of fragments have no marks. -/
theorem marks_halves (halves : List (Option String)) :
    (Doc.concat (halves.map optionalLine)).marks = [] := by
  apply marks_concat
  intro d hd
  obtain ⟨half, _, rfl⟩ := List.mem_map.1 hd
  cases half with
  | none => rfl
  | some text => rfl

section Runs

variable {job : Job} {s t : State}

theorem tally_of_silent {x : Emit Unit} (hsilent : Yields (SameSoFar s) x ()) {u : Unit}
    (h : x.run s = (.ok u, t)) : SameTally s t := by
  obtain ⟨v, hrun, hv⟩ := hsilent s (.refl s)
  rw [h, Prod.mk.injEq] at hrun
  exact hrun.2 ▸ .of_sameSoFar hv

theorem note_tally {level : Level} {message : String} {values : List (String × String)}
    (hmessage : message ≠ stubMessage) {u : Unit}
    (h : (note level message values).run s = (.ok u, t)) : SameTally s t :=
  tally_of_silent (note_silent hmessage s) h

theorem noteSizes_tally {classes : List (Class × Doc)} {u : Unit}
    (h : (noteSizes classes).run s = (.ok u, t)) : SameTally s t :=
  tally_of_silent (noteSizes_silent classes s) h

theorem render_tally {site : Site} {text out : String}
    (h : (job.render site text).run s = (.ok out, t)) :
    job.templater site text = .ok out ∧ SameTally s t := by
  rw [run_render, Prod.mk.injEq] at h
  exact ⟨h.1, h.2 ▸ ⟨rfl, rfl⟩⟩

theorem half_tally {half out : Option String}
    (h : (half.mapM (job.render .includeFile)).run s = (.ok out, t)) :
    half.mapM (job.templater .includeFile) = .ok out ∧ SameTally s t := by
  cases half with
  | none =>
      obtain ⟨rfl, rfl⟩ := eq_of_run_pure h
      exact ⟨rfl, .refl _⟩
  | some text =>
      obtain ⟨rendered, hrender, rfl⟩ := exists_of_run_map_ok h
      obtain ⟨hvalue, htally⟩ := render_tally hrender
      refine ⟨?_, htally⟩
      rw [Option.mapM_some, hvalue]
      rfl

theorem resolveFragment_tally {f : Fragment} {halves : Option String × Option String}
    (h : (resolveFragment job f).run s = (.ok halves, t)) :
    job.halves f = .ok halves ∧ SameTally s t := by
  simp only [resolveFragment] at h
  unfold Job.halves
  split at h
  · next hprocess =>
      obtain ⟨before, u, hbefore, h⟩ := exists_of_run_bind_ok h
      obtain ⟨after, v, hafter, h⟩ := exists_of_run_bind_ok h
      obtain ⟨rfl, rfl⟩ := eq_of_run_pure h
      obtain ⟨hfirst, hu⟩ := half_tally hbefore
      obtain ⟨hsecond, hv⟩ := half_tally hafter
      refine ⟨?_, hu.trans hv⟩
      rw [if_pos hprocess, hfirst, hsecond]
      rfl
  · next hprocess =>
      obtain ⟨rfl, rfl⟩ := eq_of_run_pure h
      rw [if_neg hprocess]
      exact ⟨rfl, .refl _⟩

theorem startStatement_tally {entry : Class} {custom : Option String} {start : String}
    (h : (startStatement job entry custom).run s = (.ok start, t)) : SameTally s t := by
  cases custom with
  | some text => exact (render_tally h).2
  | none =>
      simp only [startStatement, mainCall] at h
      split at h
      · obtain ⟨_, rfl⟩ := eq_of_run_pure h
        exact .refl _
      · cases h

/-- A program is put together from its classes, in the order of emission and
with the pool that they leave, and from the halves of its fragments. -/
theorem lowerProgram_run {d : Doc} (h : (lowerProgram job).run s = (.ok d, t)) :
    ∃ classes fragments start u v, SameTally s u ∧
      (job.program.emissionOrder.mapM fun c => do return (c, ← lowerOrCopy job c)).run u =
        (.ok classes, v) ∧
      SameTally v t ∧
      List.Forall₂ (fun f halves => job.halves f = .ok halves) job.config.fragments fragments ∧
      d = programDoc job t.pool fragments classes start := by
  have horder : "class emission order" ≠ stubMessage := by decide
  have hentry : "entry point" ≠ stubMessage := by decide
  simp only [lowerProgram] at h
  obtain ⟨_, u, hnote, h⟩ := exists_of_run_bind_ok h
  obtain ⟨classes, v, hclasses, h⟩ := exists_of_run_bind_ok h
  obtain ⟨_, w, hsizes, h⟩ := exists_of_run_bind_ok h
  split at h
  · cases h
  · obtain ⟨_, w', hnote', h⟩ := exists_of_run_bind_ok h
    obtain ⟨fragments, x, hfragments, h⟩ := exists_of_run_bind_ok h
    rw [run_bind_ok (run_get x)] at h
    obtain ⟨start, y, hstart, h⟩ := exists_of_run_bind_ok h
    obtain ⟨rfl, rfl⟩ := eq_of_run_pure h
    obtain ⟨hhalves, hx⟩ := forall₂_of_run_mapM_ok SameTally.refl SameTally.trans
      resolveFragment_tally hfragments
    have hy := startStatement_tally hstart
    have hlater := (noteSizes_tally hsizes).trans ((note_tally hentry hnote').trans (hx.trans hy))
    refine ⟨classes, fragments, start, u, v, note_tally horder hnote, hclasses, hlater, hhalves, ?_⟩
    rw [hy.pool]
    rfl

/-- Only notes come after the document, and none is about a stub. -/
theorem emitProgram_run {d : Doc} (h : (lowerProgram job).run s = (.ok d, t)) :
    ∃ u, (emitProgram job).run s = (.ok (resultOf job d), u) ∧ SameSoFar t u := by
  have hpool : "string pool" ≠ stubMessage := by decide
  have hmap : "line map" ≠ stubMessage := by decide
  have hsilent : ∀ {message : String} (values : List (String × String)), message ≠ stubMessage →
      ∀ u, SameSoFar t u → ∃ v, (note .debug message values).run u = (.ok (), v) ∧ SameSoFar t v :=
    fun values hmessage u hu => note_silent hmessage t u hu
  obtain ⟨u, hnote, hu⟩ := hsilent [("strings", Text.natural t.pool.size)] hpool t (.refl t)
  rw [emitProgram, run_bind_ok h, run_bind_ok (run_get t), run_bind_ok hnote]
  by_cases hdebug : job.config.debug = true
  · obtain ⟨v, hnote', hv⟩ := hsilent
      [("entries", Text.natural (LineMap.ofMarks (d.write .empty).marks).size)] hmap u hu
    rw [if_pos hdebug, run_bind_ok hnote', resultOf, if_pos hdebug]
    exact ⟨v, rfl, hv⟩
  · rw [if_neg hdebug, resultOf, if_neg hdebug]
    exact ⟨u, rfl, hu⟩

theorem exists_of_emitProgram_ok {r : Result} (h : (emitProgram job).run s = (.ok r, t)) :
    ∃ d u, (lowerProgram job).run s = (.ok d, u) ∧ r = resultOf job d ∧ SameSoFar u t := by
  obtain ⟨d, u, hlower, _⟩ := exists_of_run_bind_ok h
  obtain ⟨v, hrun, hv⟩ := emitProgram_run hlower
  rw [h, Prod.mk.injEq] at hrun
  exact ⟨d, u, hlower, Except.ok.inj hrun.1, hrun.2 ▸ hv⟩

theorem emitProgram_error {e : EmitError} (h : (lowerProgram job).run s = (.error e, t)) :
    (emitProgram job).run s = (.error e, t) := by
  rw [emitProgram]
  exact run_bind_error h

/-- Emissions whose programs agree return what follows for their documents, in
states that notes may tell apart. -/
theorem Agree.emitProgramFrom {job job' : Job} {S T : State → State → Prop} {R : Doc → Doc → Prop}
    {Q : Result → Result → Prop} (h : Agree S R (lowerProgram job) (lowerProgram job'))
    (hresult : ∀ d e, R d e → Q (resultOf job d) (resultOf job' e))
    (hstate : ∀ {u u' v v'}, S u u' → SameSoFar u v → SameSoFar u' v' → T v v') {s s' : State}
    (hs : S s s') :
    Matching T Q ((emitProgram job).runFrom s) ((emitProgram job').runFrom s') := by
  simp only [Emit.runFrom]
  have hends := h s s' hs
  generalize hrun : (lowerProgram job).run s = r at hends
  generalize hrun' : (lowerProgram job').run s' = r' at hends
  cases hends with
  | error hend =>
      rw [emitProgram_error hrun, emitProgram_error hrun']
      exact .error (hstate hend (.refl _) (.refl _))
  | ok hvalue hend =>
      obtain ⟨u, hemit, hu⟩ := emitProgram_run hrun
      obtain ⟨u', hemit', hu'⟩ := emitProgram_run hrun'
      rw [hemit, hemit']
      exact .ok (hresult _ _ hvalue) (hstate hend hu hu')

theorem Agree.emitProgram {job job' : Job} {R : Doc → Doc → Prop} {Q : Result → Result → Prop}
    (h : Agree Eq R (lowerProgram job) (lowerProgram job'))
    (hresult : ∀ d e, R d e → Q (resultOf job d) (resultOf job' e)) (s : State) :
    Matching SameSoFar Q ((emitProgram job).runFrom s) ((emitProgram job').runFrom s) :=
  h.emitProgramFrom hresult (fun hend hu hu' => hu.symm.trans (hend ▸ hu')) rfl

end Runs

/-- The document of a class without fields. -/
def fieldlessDoc (c : Class) (parent : String) (related : List Class) (staticInit : Doc)
    (inits others : List Doc) : Doc :=
  (if c.isAbstract then .line "// ABSTRACT" else .empty) ++
    .block ("function " ++ c.name.identifier ++ "()") .empty "" ++
    .line (c.name.identifier ++ ".prototype = Object.create(" ++ parent ++ ".prototype);") ++
    .line (c.name.identifier ++ ".prototype.constructor = " ++ c.name.identifier ++ ";") ++
    .empty ++
    .line (c.name.identifier ++ ".prototype.$$CLASS_ID = " ++ Text.natural c.id.toNat ++ ";") ++
    .line (c.name.identifier ++ ".prototype.$$CLASS_IDS = [" ++
      ",".intercalate (related.map fun d => Text.natural d.id.toNat) ++ "];") ++
    staticInit ++ Doc.concat inits ++ Doc.concat others

/-- A class without fields is emitted if its methods are. -/
theorem exists_lowerClass_run {job : Job} {c : Class} {parent : String} {related : List Class}
    {s t u : State} {inits others : List Doc} (hparent : (parentBase job c).run s = (.ok parent, s))
    (hfields : c.instanceFields ++ (job.program.ancestors c).flatMap (·.instanceFields) = [])
    (hrelated : job.program.related c = .ok related)
    (hstatic : c.staticFields = [])
    (hinits : ((c.methods.filter (·.isInit)).mapM (lowerMethod job c.name)).run s = (.ok inits, t))
    (hothers : ((c.methods.filter (!·.isInit)).mapM (lowerMethod job c.name)).run t =
      (.ok others, u)) :
    ∃ staticInit, (c.staticInit? = none → staticInit = .line (c.name.staticInit ++ " = N.EMPTY_FUNCTION;")) ∧
      (lowerClass job c).run s = (.ok (fieldlessDoc c parent related staticInit inits others), u) := by
  have hdefaults : ((c.instanceFields ++ (job.program.ancestors c).flatMap (·.instanceFields)).mapM
      (fieldDefault job)).run s = (.ok [], s) := by
    rw [hfields]
    rfl
  have hclasses : (relatedClasses job c).run s = (.ok related, s) := by
    rw [relatedClasses, hrelated]
    rfl
  obtain ⟨staticInit, hnone, hinit⟩ : ∃ d : Doc,
      (c.staticInit? = none → d = .line (c.name.staticInit ++ " = N.EMPTY_FUNCTION;")) ∧
        (lowerStaticInit job c).run s = (.ok d, s) := by
    simp only [lowerStaticInit, hstatic]
    split
    · exact ⟨_, fun _ => rfl, rfl⟩
    · next hsome => exact ⟨_, fun hnone => absurd (by rw [hnone]; rfl) hsome, rfl⟩
  refine ⟨staticInit, hnone, ?_⟩
  simp only [lowerClass]
  rw [run_bind_ok hparent, run_bind_ok hdefaults, run_bind_ok hclasses, run_bind_ok hinit,
    run_bind_ok hinits]
  exact run_bind_ok hothers

/-- A program that is started by text of its own is emitted if its classes are, with
their pool and their stubs. -/
theorem lowerProgram_started {job : Job} {entry : Class} {text : String}
    (hentry : job.program.class? job.program.entry = some entry)
    (hmain : job.program.customMain? job.config.target = some text)
    (htemplater : job.templater = plainTemplater) (hfragments : job.config.fragments = [])
    (s : State) :
    ∃ u, SameTally s u ∧ ∀ {classes v},
      (job.program.emissionOrder.mapM fun c => do return (c, ← lowerOrCopy job c)).run u =
        (.ok classes, v) →
      ∃ t, (lowerProgram job).run s = (.ok (programDoc job v.pool [] classes text), t) ∧
        t.stubs = v.stubs := by
  have horder : "class emission order" ≠ stubMessage := by decide
  have hnamed : "entry point" ≠ stubMessage := by decide
  obtain ⟨u, hnote, hu⟩ := note_silent horder s s (.refl s)
  refine ⟨u, .of_sameSoFar hu, fun {classes v} hdocs => ?_⟩
  simp only [lowerProgram, hentry, hmain, hfragments]
  obtain ⟨w, hsizes, hw⟩ := noteSizes_silent classes v v (.refl v)
  obtain ⟨x, hnote', hx⟩ := note_silent hnamed w w (.refl w)
  have hstart : (startStatement job entry (some text)).run x =
      (.ok text, { x with renders := x.renders ++ [(.customMain, text)] }) := by
    simp only [startStatement, run_render, htemplater]
    rfl
  have hnone : (([] : List Fragment).mapM (resolveFragment job)).run x = (.ok [], x) := rfl
  have hlater := hw.trans hx
  rw [run_bind_ok hnote, run_bind_ok hdocs, run_bind_ok hsizes, run_bind_ok hnote',
    run_bind_ok hnone, run_bind_ok (run_get x), run_bind_ok hstart, hlater.pool]
  exact ⟨_, rfl, hlater.stubs.symm⟩

/-- Such a program is emitted with the stubs of its classes. -/
theorem exists_lowerProgram_run {job : Job} {entry : Class} {text : String}
    (hentry : job.program.class? job.program.entry = some entry)
    (hmain : job.program.customMain? job.config.target = some text)
    (htemplater : job.templater = plainTemplater) (hfragments : job.config.fragments = [])
    {stubs : List Event} (hclasses : ∀ s, ∃ classes u,
      (job.program.emissionOrder.mapM fun c => do return (c, ← lowerOrCopy job c)).run s =
        (.ok classes, u) ∧ u.stubs = s.stubs ++ stubs) (s : State) :
    ∃ d t, (lowerProgram job).run s = (.ok d, t) ∧ t.stubs = s.stubs ++ stubs := by
  obtain ⟨u, hu, hprogram⟩ := lowerProgram_started hentry hmain htemplater hfragments s
  obtain ⟨classes, v, hdocs, hv⟩ := hclasses u
  obtain ⟨t, hrun, ht⟩ := hprogram hdocs
  exact ⟨_, t, hrun, by rw [ht, hv, hu.stubs]⟩

/-- A class of methods only. -/
def soloClass (methods : List Method) : Class := { Class.bare "Main" none with methods }

/-- The program of that class alone, started by text of its own. -/
def solo (methods : List Method) : Program where
  classes := [soloClass methods]
  entry := ⟨"Main"⟩
  customMains := [⟨"js", "Main.run();"⟩]
  distinct := by simp
  hasEntry := by simp [soloClass, Class.bare]

section Solo

variable (methods : List Method)

theorem emissionOrder_solo : (solo methods).emissionOrder = [soloClass methods] := by
  have hperm : (solo methods).emissionOrder.Perm (solo methods).emitted := Program.emissionOrder_perm
  exact List.perm_singleton.1 hperm

theorem ancestors_solo : (solo methods).ancestors (soloClass methods) = [] := by
  simp [Program.ancestors, soloClass, Class.bare]

theorem related_solo : (solo methods).related (soloClass methods) = .ok [soloClass methods] := by
  simp only [Program.related, ancestors_solo]
  simp [soloClass, Class.bare, Program.explore]

/-- The class's methods are all that a reference can mean. -/
theorem resolve_solo (name : String) (type : Signature) :
    (solo methods).resolve ⟨⟨"Main"⟩, name, type⟩ =
      methods.find? (·.answers name type.descriptor) := by
  have hclass : (solo methods).class? ⟨"Main"⟩ = some (soloClass methods) := by
    simp [Program.class?, solo, soloClass, Class.bare]
  change (solo methods).findMethod ⟨"Main"⟩ name type.descriptor = _
  simp only [Program.findMethod, hclass, related_solo, Option.bind_eq_bind, Option.bind_some,
    Except.toOption, List.findSome?_cons, List.findSome?_nil]
  rw [Class.method?, soloClass]
  generalize methods.find? _ = found
  cases found <;> rfl

variable {methods} {config : Config}

/-- The document of such a class, by those of its methods. -/
def soloDoc (methods : List Method) (docs : List Doc) : Doc :=
  fieldlessDoc (soloClass methods) rootBase [soloClass methods]
    (.line "Main.SI = N.EMPTY_FUNCTION;") [] docs

/-- Such a class is emitted if its methods are, and nothing else in it runs. -/
theorem lowerClass_solo {job : Job} (hprogram : job.program = solo methods)
    (hinit : methods.filter (·.isInit) = []) {s u : State} {docs : List Doc}
    (hmethods : ((methods.filter (!·.isInit)).mapM (lowerMethod job ⟨"Main"⟩)).run s =
      (.ok docs, u)) :
    (lowerClass job (soloClass methods)).run s = (.ok (soloDoc methods docs), u) := by
  have hparent : (parentBase job (soloClass methods)).run s = (.ok rootBase, s) := rfl
  have hancestors : job.program.ancestors (soloClass methods) = [] := by
    rw [hprogram, ancestors_solo]
  have hfields : (soloClass methods).instanceFields ++
      (job.program.ancestors (soloClass methods)).flatMap (·.instanceFields) = [] := by
    rw [hancestors]
    rfl
  have hrelated : job.program.related (soloClass methods) = .ok [soloClass methods] := by
    rw [hprogram, related_solo]
  have hinits : (((soloClass methods).methods.filter (·.isInit)).mapM
      (lowerMethod job (soloClass methods).name)).run s = (.ok [], s) := by
    change ((methods.filter (·.isInit)).mapM (lowerMethod job ⟨"Main"⟩)).run s = _
    rw [hinit]
    rfl
  have hnone : (soloClass methods).staticInit? = none := by
    refine List.find?_eq_none.2 fun m hm hrole => ?_
    have hother := List.filter_eq_nil_iff.1 hinit m hm
    simp [Method.isInit, of_decide_eq_true hrole] at hother
  obtain ⟨staticInit, hstatic, hrun⟩ :=
    exists_lowerClass_run hparent hfields hrelated rfl hinits hmethods
  have hslot : "Main.SI = N.EMPTY_FUNCTION;" =
      ClassName.staticInit ⟨"Main"⟩ ++ " = N.EMPTY_FUNCTION;" := by decide +kernel
  rw [hrun, hstatic hnone, soloDoc, hslot]
  rfl

/-- So is the program, which is started by text of its own. -/
theorem lowerProgram_solo (methods : List Method) (config : Config) (htarget : config.target = "js")
    (hfragments : config.fragments = []) (hinit : methods.filter (·.isInit) = []) (s : State) :
    let job : Job := ⟨solo methods, config, plainTemplater⟩
    ∃ u, SameTally s u ∧ ∀ {docs v},
      ((methods.filter (!·.isInit)).mapM (lowerMethod job ⟨"Main"⟩)).run u = (.ok docs, v) →
      ∃ t, (lowerProgram job).run s = (.ok (programDoc job v.pool []
        [(soloClass methods, soloDoc methods docs)] "Main.run();"), t) ∧ t.stubs = v.stubs := by
  intro job
  have hmain : (solo methods).customMain? config.target = some "Main.run();" := by
    rw [htarget]
    rfl
  have hfind : (solo methods).class? (solo methods).entry = some (soloClass methods) := by
    simp [Program.class?, solo, soloClass, Class.bare]
  obtain ⟨u, hu, hprogram⟩ := @lowerProgram_started job _ _ hfind hmain rfl hfragments s
  refine ⟨u, hu, fun {docs v} hdocs => hprogram ?_⟩
  have horder : job.program.emissionOrder = [soloClass methods] := emissionOrder_solo methods
  rw [horder, List.mapM_cons]
  exact run_bind_ok (run_bind_ok (lowerClass_solo rfl hinit hdocs))

/-- Such a program is emitted if its methods are, with their stubs. -/
theorem exists_lowerProgram_solo (htarget : config.target = "js") (hfragments : config.fragments = [])
    (hinit : methods.filter (·.isInit) = []) {stubs : List Event}
    (hmethods : ∀ s, ∃ docs u, ((methods.filter (!·.isInit)).mapM
      (lowerMethod ⟨solo methods, config, plainTemplater⟩ ⟨"Main"⟩)).run s = (.ok docs, u) ∧
        u.stubs = s.stubs ++ stubs) (s : State) :
    ∃ d t, (lowerProgram ⟨solo methods, config, plainTemplater⟩).run s = (.ok d, t) ∧
      t.stubs = s.stubs ++ stubs := by
  obtain ⟨u, hu, hprogram⟩ := lowerProgram_solo methods config htarget hfragments hinit s
  obtain ⟨docs, v, hdocs, hv⟩ := hmethods u
  obtain ⟨t, hrun, ht⟩ := hprogram hdocs
  exact ⟨_, t, hrun, by rw [ht, hv, hu.stubs]⟩

end Solo

section Pair

variable (above below : List Method)

/-- A class of methods only. -/
def baseClass : Class := { Class.bare "app.Base" none with methods := above }

/-- A class of methods only that extends it. -/
def subClass : Class := { Class.bare "app.Sub" (some "app.Base") with methods := below }

/-- The program of these two. -/
def inheriting : Program where
  classes := [baseClass above, subClass below]
  entry := ⟨"app.Sub"⟩
  customMains := []
  distinct := by simp [baseClass, subClass, Class.bare]
  hasEntry := by simp [subClass, Class.bare]

theorem ancestors_baseClass : (inheriting above below).ancestors (baseClass above) = [] := by
  simp [Program.ancestors, baseClass, Class.bare]

theorem ancestors_subClass :
    (inheriting above below).ancestors (subClass below) = [baseClass above] := by
  have hdraw : draw? (without (inheriting above below).classes (subClass below).name) ⟨"app.Base"⟩ =
      some (baseClass above) := rfl
  change climb (without (inheriting above below).classes (subClass below).name) (some ⟨"app.Base"⟩) = _
  rw [climb_present hdraw]
  exact congrArg (baseClass above :: ·) (climb_none _)

theorem related_baseClass :
    (inheriting above below).related (baseClass above) = .ok [baseClass above] := by
  simp only [Program.related, ancestors_baseClass]
  simp [baseClass, Class.bare, Program.explore]

theorem related_subClass :
    (inheriting above below).related (subClass below) = .ok [subClass below, baseClass above] := by
  simp only [Program.related, ancestors_subClass]
  simp [baseClass, subClass, Class.bare, Program.explore]

end Pair

end ClassScript.Emission
