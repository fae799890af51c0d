import ClassScript.Proofs.DebugLowering
import ClassScript.Proofs.LineShift
import ClassScript.Proofs.ProgramRun
import Mathlib.Data.List.ReduceOption

/-!
Fragments around a program. They come last in an emission and are not looked at
before, so a program is emitted around them just as it is without them: their
texts stand in front and behind, and the line map starts as many lines further
down as there are in front.
-/

namespace ClassScript

namespace Text

variable {marker text before after : List Char}

/-- A text is not cut just if it does not hold the marker. -/
theorem cutAt?_eq_none_iff (hmarker : marker ≠ []) :
    cutAt? marker text = none ↔ ¬ marker <:+: text := by
  induction text with
  | nil => simp [cutAt?, hmarker]
  | cons c rest ih =>
      rw [cutAt?, List.infix_cons_iff, not_or, ← ih]
      by_cases hhere : marker <+: c :: rest
      · simp [hhere]
      · simp [hhere]

/-- A text is cut at the first marker in it. -/
theorem cutAt?_first (hmarker : marker ≠ []) (hfirst : ¬ marker <:+: (before ++ marker).dropLast)
    (after : List Char) : cutAt? marker (before ++ marker ++ after) = some (before, after) := by
  induction before with
  | nil =>
      obtain ⟨c, rest, rfl⟩ := List.exists_cons_of_ne_nil hmarker
      rw [List.nil_append, List.cons_append, cutAt?, if_pos (by simp), ← List.cons_append,
        List.drop_left]
  | cons c before ih =>
      have hrest : c :: before ++ marker = c :: (before ++ marker) := List.cons_append
      have hshort : (c :: before ++ marker).dropLast = c :: (before ++ marker).dropLast :=
        List.dropLast_cons_of_ne_nil (by simp [hmarker])
      rw [hshort, List.infix_cons_iff, not_or] at hfirst
      have hlater : ¬ marker <+: c :: (before ++ marker ++ after) := by
        -- the marker behind it ends too far back for one that begins here
        intro hhere
        have hfront : c :: (before ++ marker).dropLast <+: c :: (before ++ marker ++ after) :=
          (List.prefix_cons_inj c).2 ((List.dropLast_prefix _).trans (List.prefix_append _ _))
        refine hfirst.1 (List.prefix_of_prefix_length_le hhere hfront ?_)
        simp only [List.length_cons, List.length_dropLast, List.length_append]
        omega
      rw [List.cons_append, List.cons_append, cutAt?, if_neg (by simpa using hlater), ih hfirst.2]
      rfl

end Text

namespace Emission

open Output

/-- The text of a line as it is written: one newline is added if none is at its end. -/
def ended (text : String) : String :=
  if text.toList.getLast? = some '\n' then text else text ++ "\n"

/-- Texts written one after the other. -/
def spliced (texts : List String) : String :=
  String.join (texts.map ended)

/-- The job with these fragments. -/
def Job.around (job : Job) (fragments : List Fragment) : Job :=
  { job with config := { job.config with fragments } }

/-- What stands between the fragments. -/
def bodyDoc (job : Job) (pool : StringPool) (classes : List (Class × Doc)) (start : String) : Doc :=
  pool.doc ++ Doc.concat (classes.map fun c => .splice c.2) ++
    Doc.lines ["__createJavaArrays();", "__buildStrings();", "N.linit();",
      job.program.entry.staticInitCall, start]

/-- States that agree in names and slots, whatever was rendered and noted. -/
structure SameTables (s t : State) : Prop where
  fieldNames : s.fieldNames = t.fieldNames
  pool : s.pool = t.pool

namespace SameTables

theorem refl (s : State) : SameTables s s := ⟨rfl, rfl⟩

theorem symm {s t : State} (h : SameTables s t) : SameTables t s :=
  ⟨h.fieldNames.symm, h.pool.symm⟩

theorem trans {s t u : State} (h : SameTables s t) (h' : SameTables t u) : SameTables s u :=
  ⟨h.fieldNames.trans h'.fieldNames, h.pool.trans h'.pool⟩

theorem after {s t u v : State} (h : SameTables s t) (hu : SameSoFar s u) (hv : SameSoFar t v) :
    SameTables u v :=
  ⟨hu.fieldNames.symm.trans (h.fieldNames.trans hv.fieldNames),
    hu.pool.symm.trans (h.pool.trans hv.pool)⟩

theorem parallel : Parallel SameTables where
  fieldNames h := h.fieldNames
  pool h := h.pool
  setFieldNames _ h := ⟨rfl, h.pool⟩
  setPool _ h := ⟨h.fieldNames, rfl⟩
  render _ h := ⟨h.fieldNames, h.pool⟩
  note _ h := ⟨h.fieldNames, h.pool⟩

end SameTables

section Halves

variable {job : Job} {s : State}

theorem yields_half {half out : Option String}
    (h : half.mapM (job.templater .includeFile) = .ok out) :
    Yields (SameTables s) (half.mapM (job.render .includeFile)) out := by
  cases half with
  | none =>
      obtain rfl : none = out := Except.ok.inj h
      exact .pure _
  | some text =>
      rw [Option.mapM_some] at h ⊢
      obtain ⟨rendered, hrendered, hout⟩ := exists_of_bind_eq_ok ((map_eq_pure_bind _ _).symm.trans h)
      obtain rfl : some rendered = out := Except.ok.inj hout
      intro t ht
      rw [map_eq_pure_bind, run_bind_ok ((run_render job _ text t).trans (by rw [hrendered]))]
      exact ⟨_, rfl, ht.fieldNames, ht.pool⟩

/-- Halves that can be rendered come out of a fragment in every state. -/
theorem yields_halves {f : Fragment} {halves : Option String × Option String}
    (h : job.halves f = .ok halves) : Yields (SameTables s) (resolveFragment job f) halves := by
  unfold Job.halves at h
  simp only [resolveFragment]
  split at h
  · next hprocess =>
      rw [if_pos hprocess]
      obtain ⟨before, hbefore, h⟩ := exists_of_bind_eq_ok h
      obtain ⟨after, hafter, h⟩ := exists_of_bind_eq_ok h
      obtain rfl : (before, after) = halves := Except.ok.inj h
      exact (yields_half hbefore).bind ((yields_half hafter).bind (.pure _))
  · next hprocess =>
      rw [if_neg hprocess]
      obtain rfl : f.parts = halves := Except.ok.inj h
      exact .pure _

theorem yields_fragments {fragments : List Fragment} {halves : List (Option String × Option String)}
    (h : List.Forall₂ (fun f half => job.halves f = .ok half) fragments halves) :
    Yields (SameTables s) (fragments.mapM (resolveFragment job)) halves := by
  induction h with
  | nil => exact .pure []
  | cons hfirst _ ih =>
      rw [List.mapM_cons]
      exact (yields_halves hfirst).bind (ih.bind (.pure _))

end Halves

section Parts

theorem bodyMarker_ne_nil : bodyMarker.toList ≠ [] := by
  decide

/-- A newline at the end of a text makes no marker. -/
theorem holds_marker_newline {text : List Char} :
    bodyMarker.toList <:+: text ++ ['\n'] ↔ bodyMarker.toList <:+: text := by
  rw [List.infix_concat_iff]
  refine or_iff_right fun hend => ?_
  obtain ⟨front, hfront⟩ := hend
  have hlast : bodyMarker.toList.getLast? = some '\n' := by
    rw [← List.getLast?_append_of_ne_nil front bodyMarker_ne_nil, hfront, List.getLast?_concat]
  exact absurd hlast (by decide)

/-- A combined text in which the marker stands once, between two halves. -/
structure MarkedOnce (text before after : String) : Prop where
  text : text = before ++ bodyMarker ++ after
  first : ¬ bodyMarker.toList <:+: (before ++ bodyMarker).toList.dropLast
  last : ¬ bodyMarker.toList <:+: after.toList

variable {f : Fragment}

/-- A combined text with one marker takes the place of the separate halves. -/
theorem parts_combined {text before after : String} (hf : f.combined = some text)
    (h : MarkedOnce text before after) : f.parts = (some before, some (after ++ "\n")) := by
  have htext : (text ++ "\n").toList = before.toList ++ bodyMarker.toList ++ (after ++ "\n").toList := by
    simp only [h.text, String.toList_append, List.append_assoc]
  have hfirst : ¬ bodyMarker.toList <:+: (before.toList ++ bodyMarker.toList).dropLast := by
    rw [← String.toList_append]
    exact h.first
  have hlast : Text.cutAt? bodyMarker.toList (after ++ "\n").toList = none := by
    rw [Text.cutAt?_eq_none_iff bodyMarker_ne_nil, String.toList_append]
    exact fun hmarker => h.last (holds_marker_newline.1 hmarker)
  have hhalves : halves? (text ++ "\n").toList = some (before.toList, (after ++ "\n").toList) := by
    rw [halves?, htext, Text.cutAt?_first bodyMarker_ne_nil hfirst]
    simp only [hlast]
  simp only [Fragment.parts, hf, Option.bind_some, hhalves, String.ofList_toList]

/-- Without a marker the separate halves come into the output, each with a newline
of its own. -/
theorem parts_separate (h : ∀ text ∈ f.combined, ¬ bodyMarker.toList <:+: text.toList) :
    f.parts = (f.before.map (· ++ "\n"), f.after.map (· ++ "\n")) := by
  cases hcombined : f.combined with
  | none => simp only [Fragment.parts, hcombined, Option.bind_none]
  | some text =>
      have hcut : Text.cutAt? bodyMarker.toList (text ++ "\n").toList = none := by
        rw [Text.cutAt?_eq_none_iff bodyMarker_ne_nil, String.toList_append]
        exact fun hmarker => h text hcombined (holds_marker_newline.1 hmarker)
      simp only [Fragment.parts, hcombined, Option.bind_some, halves?, hcut]

end Parts

section Layout

variable {job : Job}

theorem text_line_ended (text : String) : (Doc.line text).text = ended text := by
  unfold ended
  split
  · next h => exact Doc.text_line_of_newline h
  · next h => exact Doc.text_line h

/-- The halves of fragments are written one after the other. -/
theorem text_halves (halves : List (Option String)) :
    (Doc.concat (halves.map optionalLine)).text = spliced halves.reduceOption := by
  rw [Doc.text_concat, spliced, List.map_map]
  induction halves with
  | nil => rfl
  | cons half rest ih =>
      rw [List.map_cons, String.join_cons, ih]
      cases half with
      | none => exact String.empty_append
      | some text =>
          rw [List.reduceOption_cons_of_some, List.map_cons, String.join_cons]
          exact congrArg (· ++ _) (text_line_ended text)

variable (pool : StringPool) (halves : List (Option String × Option String))
  (classes : List (Class × Doc)) (start : String)

/-- The document of a program is its body between the halves of its fragments. -/
theorem programDoc_entries : (programDoc job pool halves classes start).entriesAt 0 =
    job.headerDoc.entriesAt 0 ++
      (Doc.concat ((halves.map Prod.fst).map optionalLine)).entriesAt 0 ++
      (bodyDoc job pool classes start).entriesAt 0 ++
      (Doc.concat ((halves.reverse.map Prod.snd).map optionalLine)).entriesAt 0 := by
  simp only [programDoc, bodyDoc, Doc.entriesAt_append, List.map_map, List.append_assoc]
  rfl

theorem programDoc_text : (programDoc job pool halves classes start).text =
    job.header ++ spliced (halves.map Prod.fst).reduceOption ++
      (bodyDoc job pool classes start).text ++
      spliced (halves.reverse.map Prod.snd).reduceOption := by
  rw [← Job.headerDoc_text, ← text_halves, ← text_halves]
  simp only [programDoc, bodyDoc, Doc.text_append, List.map_map, String.append_assoc]
  rfl

/-- The marks of the body where there are no fragments. -/
def bodyMarks (job : Job) (pool : StringPool) (classes : List (Class × Doc)) (start : String) :
    List (Nat × Mark) :=
  marksFrom (lineCount (job.headerDoc.entriesAt 0)) ((bodyDoc job pool classes start).entriesAt 0)

/-- The marks are those of the body, as many lines further down as the fragments
put in front of it. -/
theorem programDoc_marks : ((programDoc job pool halves classes start).write .empty).marks =
    (bodyMarks job pool classes start).map
      (below ((spliced (halves.map Prod.fst).reduceOption).toList.count '\n')) := by
  have hplain : ∀ {d : Doc}, d.marks = [] → ∀ line, marksFrom line (d.entriesAt 0) = [] :=
    fun hd line => marksFrom_of_no_marks ((Doc.mark_entriesAt 0 _).trans hd) line
  have hheader : job.headerDoc.marks = [] := Doc.marks_lineIf _ _
  rw [Doc.write_eq, Writer.marks, bodyMarks, ← text_halves, ← lineCount_entriesAt, ← marksFrom_add]
  change marksFrom 0 ((programDoc job pool halves classes start).entriesAt 0) = _
  rw [programDoc_entries, marksFrom_append, marksFrom_append, marksFrom_append, hplain hheader,
    hplain (marks_halves _), hplain (marks_halves _), lineCount_append, Nat.zero_add,
    List.nil_append, List.nil_append, List.append_nil]

theorem programDoc_plain_marks : ((programDoc job pool [] classes start).write .empty).marks =
    bodyMarks job pool classes start :=
  (programDoc_marks pool [] classes start).trans (List.map_id _)

theorem programDoc_plain_text : (programDoc job pool [] classes start).text =
    job.header ++ (bodyDoc job pool classes start).text := by
  rw [programDoc_text]
  exact String.append_empty.trans (congrArg (· ++ _) String.append_empty)

end Layout

/-- What fragments with these halves add to a result: their texts around the body,
and as many lines in front of all that is mapped as there are in front of the body. -/
structure Wrapped (job : Job) (halves : List (Option String × Option String))
    (result plain : Result) : Prop where
  source : ∃ body, plain.source = job.header ++ body ∧
    result.source = job.header ++ spliced (halves.map Prod.fst).reduceOption ++ body ++
      spliced (halves.reverse.map Prod.snd).reduceOption
  entryPoint : result.entryPoint = plain.entryPoint
  noMap : job.config.debug = false → result.sourceMap = none ∧ plain.sourceMap = none
  map : job.config.debug = true → ∃ (map plainMap : LineMap) (segments : List Segment),
    result.sourceMap = some (map.toJson job.config.outputName).text ∧
    plain.sourceMap = some (plainMap.toJson job.config.outputName).text ∧
    map.sources = plainMap.sources ∧
    decodeMappings plainMap.mappings = some segments ∧
    decodeMappings map.mappings = some (segments.map
      (Segment.below ((spliced (halves.map Prod.fst).reduceOption).toList.count '\n')))

section Emissions

variable (job : Job) {fragments : List Fragment} {halves : List (Option String × Option String)}

/-- Around fragments whose halves are known, a program has the body that it has
without them. -/
theorem lowerProgram_around
    (h : List.Forall₂ (fun f half => job.halves f = .ok half) fragments halves) :
    Agree SameTables
      (fun d e => ∃ pool classes start, d = programDoc job pool halves classes start ∧
        e = programDoc job pool [] classes start)
      (lowerProgram (job.around fragments)) (lowerProgram (job.around [])) := by
  have halike : Alike SameTables (job.around fragments) (job.around []) :=
    SameTables.parallel.alike rfl rfl rfl
  have hbodies := halike.sameBodies Congruence.eq ⟨rfl, fun _ => rfl⟩
  have hfragments : Agree SameTables (fun found none => found = halves ∧ none = [])
      (fragments.mapM (resolveFragment (job.around fragments)))
      (([] : List Fragment).mapM (resolveFragment (job.around []))) := by
    intro s t hs
    have hyields : Yields (SameTables s)
        (fragments.mapM (resolveFragment (job.around fragments))) halves := yields_fragments h
    obtain ⟨u, hrun, hu⟩ := hyields s (.refl s)
    rw [hrun]
    exact .ok ⟨rfl, rfl⟩ (hu.symm.trans hs)
  have hsame : ∀ {ds es : List (Class × Doc)}, SameClasses Eq ds es → ds = es := by
    intro ds es hclasses
    rw [← List.forall₂_eq_eq_eq]
    exact hclasses.imp fun _ _ hde => Prod.ext hde.1 hde.2
  have hsizes : ∀ ds es, SameClasses Eq ds es → Agree SameTables Eq (noteSizes ds) (noteSizes es) := by
    intro ds es _
    exact agree_of_silent .after (noteSizes_silent ds) (noteSizes_silent es)
  apply (halike.programHalves Congruence.eq hbodies hfragments (fun _ _ hs => hs.pool) hsizes).mono
  rintro d e ⟨pool, _, _, ds, es, start, ⟨rfl, rfl⟩, hclasses, rfl, rfl⟩
  rw [hsame hclasses]
  exact ⟨pool, es, start, rfl, rfl⟩

theorem wrapped_resultOf (pool : StringPool) (classes : List (Class × Doc)) (start : String) :
    Wrapped job halves
      (resultOf (job.around fragments) (programDoc job pool halves classes start))
      (resultOf (job.around []) (programDoc job pool [] classes start)) where
  source :=
    ⟨(bodyDoc job pool classes start).text, programDoc_plain_text pool classes start,
      programDoc_text pool halves classes start⟩
  entryPoint := rfl
  noMap hdebug := ⟨sourceMap_resultOf_plain hdebug _, sourceMap_resultOf_plain hdebug _⟩
  map hdebug := by
    let lines := (spliced (halves.map Prod.fst).reduceOption).toList.count '\n'
    have hmarks : ((programDoc job pool halves classes start).write .empty).marks =
        ((programDoc job pool [] classes start).write .empty).marks.map (below lines) := by
      rw [programDoc_marks, programDoc_plain_marks]
    exact exists_sourceMaps_moved rfl (strictMono_below lines) hmarks hdebug

theorem emitProgram_wrapped
    (h : List.Forall₂ (fun f half => job.halves f = .ok half) fragments halves) (s : State) :
    Matching SameTables (Wrapped job halves) ((emitProgram (job.around fragments)).runFrom s)
      ((emitProgram (job.around [])).runFrom s) := by
  refine (lowerProgram_around job h).emitProgramFrom ?_ .after (.refl s)
  rintro _ _ ⟨pool, classes, start, rfl, rfl⟩
  exact wrapped_resultOf job pool classes start

/-- Fragments whose texts can be rendered nest around a program and change nothing
else: emission fails as it does without them, and otherwise their texts stand as
they are in front of what is returned without them and in reverse order behind
it, ended by a newline where they have none, and what is mapped lies as many lines
further down as there are newlines in front of it. The texts are what stands before
and behind the one marker of a combined text, the latter with a newline, or else
the separate halves with a newline each. -/
theorem emitProgram_around
    (h : List.Forall₂ (fun f half => job.halves f = .ok half) fragments halves) (s : State) :
    Matching SameTables (Wrapped job halves) ((emitProgram (job.around fragments)).runFrom s)
      ((emitProgram (job.around [])).runFrom s) ∧
    ∀ f ∈ fragments,
      (∀ text before after, f.combined = some text → MarkedOnce text before after →
        f.parts = (some before, some (after ++ "\n"))) ∧
      ((∀ text ∈ f.combined, ¬ bodyMarker.toList <:+: text.toList) →
        f.parts = (f.before.map (· ++ "\n"), f.after.map (· ++ "\n"))) :=
  ⟨emitProgram_wrapped job h s,
    fun _ _ => ⟨fun _ _ _ hf honce => parts_combined hf honce, parts_separate⟩⟩

end Emissions

section Nested

/-- A job for a program of one empty class. -/
def nesting (debug : Bool) : Job := ⟨solo [], { debug }, plainTemplater⟩

theorem exists_emitProgram_nesting (debug : Bool) :
    ∃ plain t, (emitProgram ((nesting debug).around [])).runFrom .initial = (.ok plain, t) := by
  have hlower : ∃ d t, (lowerProgram ((nesting debug).around [])).run .initial = (.ok d, t) ∧
      t.stubs = State.initial.stubs ++ [] :=
    exists_lowerProgram_solo rfl rfl rfl (fun s => ⟨[], s, rfl, (List.append_nil _).symm⟩) .initial
  obtain ⟨d, u, hrun, _⟩ := hlower
  obtain ⟨t, hemit, _⟩ := emitProgram_run hrun
  exact ⟨_, t, hemit⟩

/-- A combined fragment around two separate halves that are rendered. -/
theorem emitProgram_around_nested :
    ∃ result plain t u body,
      (emitProgram ((nesting true).around
        [⟨some "unused", none, some "a\n/* ## BODY ## */b", false⟩,
          ⟨some "x\n", some "y", none, true⟩])).runFrom .initial = (.ok result, t) ∧
      (emitProgram ((nesting true).around [])).runFrom .initial = (.ok plain, u) ∧
      plain.source = "//# sourceMappingURL=program.js.map\n" ++ body ∧
      result.source = "//# sourceMappingURL=program.js.map\n" ++ "a\nx\n\n" ++ body ++ "y\nb\n" := by
  have hhalves : List.Forall₂ (fun f half => (nesting true).halves f = .ok half)
      [⟨some "unused", none, some "a\n/* ## BODY ## */b", false⟩, ⟨some "x\n", some "y", none, true⟩]
      [(some "a\n", some "b\n"), (some "x\n\n", some "y\n")] :=
    .cons rfl (.cons rfl .nil)
  obtain ⟨plain, u, hplain⟩ := exists_emitProgram_nesting true
  have hmatching := (emitProgram_around (nesting true) hhalves .initial).1
  rw [hplain] at hmatching
  obtain ⟨result, t, hresult, hwrapped⟩ := hmatching.exists_ok
  obtain ⟨body, hbody, hsource⟩ := hwrapped.source
  exact ⟨result, plain, t, u, body, hresult, hplain, hbody, hsource⟩

/-- A separate half gets a newline although it ends with one. -/
theorem emitProgram_around_ended :
    ∃ result plain t u,
      (emitProgram ((nesting false).around [⟨some "x\n", none, none, false⟩])).runFrom .initial =
        (.ok result, t) ∧
      (emitProgram ((nesting false).around [])).runFrom .initial = (.ok plain, u) ∧
      result.source = "x\n\n" ++ plain.source ∧ result.source ≠ "x\n" ++ plain.source := by
  have hhalves : List.Forall₂ (fun f half => (nesting false).halves f = .ok half)
      [⟨some "x\n", none, none, false⟩] [(some "x\n\n", none)] := .cons rfl .nil
  obtain ⟨plain, u, hplain⟩ := exists_emitProgram_nesting false
  have hmatching := emitProgram_wrapped (nesting false) hhalves .initial
  rw [hplain] at hmatching
  obtain ⟨result, t, hresult, hwrapped⟩ := hmatching.exists_ok
  obtain ⟨body, hbody, hsource⟩ := hwrapped.source
  have hplainBody : plain.source = body := hbody.trans String.empty_append
  have htwice : result.source = "x\n\n" ++ plain.source := by
    rw [hsource, hplainBody]
    exact String.append_empty
  refine ⟨result, plain, t, u, hresult, hplain, htwice, fun honce => ?_⟩
  have hsame : "x\n\n".toList ++ plain.source.toList = "x\n".toList ++ plain.source.toList := by
    rw [← String.toList_append, ← String.toList_append, ← htwice, honce]
  exact absurd (List.append_cancel_right hsame) (by decide)

end Nested

end Emission

end ClassScript
