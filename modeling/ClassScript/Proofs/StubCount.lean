import ClassScript.Proofs.CommandVerdict
import ClassScript.Proofs.MarkerCount
import ClassScript.Proofs.RecoveredProgram
import Mathlib.Algebra.GroupWithZero.Nat

/-!
The stubbed methods that a check reports. It looks for the marker of their comments in
the source, and there it finds one for each stub, at the front of a line of its own. But
texts of the program may hold the marker as well, and then these are counted too.
-/

namespace ClassScript

open CommandLine

namespace Text

/-- What is put in front of a text stands in front of its first piece. -/
theorem lines_prepend {front : List Char} (h : '\n' ∉ front) (text : List Char) :
    ∃ piece others, lines (front ++ text) = (front ++ piece) :: others := by
  cases hlines : lines text with
  | nil => exact absurd hlines (lines_ne_nil text)
  | cons piece others =>
      refine ⟨piece, others, ?_⟩
      induction front with
      | nil => exact hlines
      | cons c front ih =>
          have hc : c ≠ '\n' := (List.ne_of_not_mem_cons h).symm
          rw [List.cons_append, lines, if_neg hc, ih (List.not_mem_of_not_mem_cons h)]
          rfl

/-- Of a marker within one line, those in the pieces of a text are all that there are. -/
theorem occurrences_eq_sum {marker : List Char} (h : Unbordered marker) (hmarker : marker ≠ [])
    (hline : '\n' ∉ marker) (text : List Char) :
    occurrences marker text = ((lines text).map (occurrences marker)).sum := by
  have hpieces : ∀ pieces : List (List Char),
      occurrences marker (pieces.flatMap (· ++ ['\n'])) = (pieces.map (occurrences marker)).sum := by
    intro pieces
    induction pieces with
    | nil => rfl
    | cons piece rest ih =>
        rw [List.flatMap_cons, List.append_assoc, List.singleton_append,
          occurrences_append_break h hmarker hline, ih, List.map_cons, List.sum_cons]
  rw [← hpieces, Output.flatMap_lines, occurrences_append_break h hmarker hline]
  rfl

end Text

namespace Emission

open Output

/-- How often the marker of stubs stands in a text. -/
abbrev markers (text : String) : Nat :=
  Text.occurrences stubMarker.toList text.toList

theorem unbordered_stubMarker : Text.Unbordered stubMarker.toList := by decide

theorem stubMarker_ne_nil : stubMarker.toList ≠ [] := by decide

theorem stubMarker_oneLine : '\n' ∉ stubMarker.toList := by decide

theorem markers_append (rest : String) : markers (stubMarker ++ rest) = markers rest + 1 := by
  rw [markers, String.toList_append]
  exact Text.occurrences_marker_append unbordered_stubMarker stubMarker_ne_nil rest.toList

/-- The comment of a stub begins with the marker. -/
theorem exists_stubComment (owner : ClassName) (m : Method) (error : EmitError) :
    ∃ said, stubComment owner m error = stubMarker ++ said := by
  have hmarker : ∀ rest, "// Errored method: " ++ rest = stubMarker ++ (" " ++ rest) := by
    intro rest
    rw [← String.append_assoc]
    exact congrArg (· ++ rest) (by decide)
  unfold stubComment
  simp only [String.append_assoc]
  exact ⟨_, hmarker _⟩

/-- It may go on in further lines. -/
theorem exists_lines_stubComment (owner : ClassName) (m : Method) (error : EmitError) :
    ∃ rest more, Text.lines (stubComment owner m error).toList =
      (stubMarker ++ rest).toList :: more := by
  obtain ⟨said, hsaid⟩ := exists_stubComment owner m error
  obtain ⟨piece, more, hlines⟩ := Text.lines_prepend stubMarker_oneLine said.toList
  refine ⟨String.ofList piece, more, ?_⟩
  rw [hsaid, String.toList_append, hlines, String.toList_append, String.toList_ofList]

/-- Indentation has no markers. -/
theorem occurrences_shownLine (line : Nat × String) :
    Text.occurrences stubMarker.toList (shownLine line) = markers line.2 := by
  rw [shownLine]
  split
  · next hempty => rw [String.isEmpty_iff.1 hempty]; rfl
  · exact Text.occurrences_replicate_append unbordered_stubMarker stubMarker_ne_nil (by decide) _ _

/-- A marker in a line is one in the text. -/
theorem markers_text_ne_zero {d : Doc} {line : Nat × String} (h : line ∈ d.linesAt 0)
    (hmarker : markers line.2 ≠ 0) : markers d.text ≠ 0 := by
  rw [markers, Text.occurrences_eq_sum unbordered_stubMarker stubMarker_ne_nil stubMarker_oneLine,
    Doc.lines_text, Ne, List.sum_eq_zero_iff_forall_eq_nat]
  intro hnone
  have hshown : shownLine line ∈ (d.linesAt 0).map shownLine ++ [[]] :=
    List.mem_append_left _ (List.mem_map_of_mem h)
  rw [← occurrences_shownLine] at hmarker
  exact hmarker (hnone _ (List.mem_map_of_mem hshown))

/-- A line of the output: the one with which the comment of a stub begins, with what
stands behind the marker, or any other one. -/
inductive Row where
  | comment (stub : Outcome) (level : Nat) (rest : String)
  | other (level : Nat) (line : String)

namespace Row

def line : Row → Nat × String
  | .comment _ level rest => (level, stubMarker ++ rest)
  | .other level line => (level, line)

/-- The line without the marker of its comment. -/
def beside : Row → String
  | .comment _ _ rest => rest
  | .other _ line => line

def stub? : Row → Option Outcome
  | .comment stub _ _ => some stub
  | .other _ _ => none

/-- A comment tells of the method and the error that it stands for. -/
def Faithful : Row → Prop
  | .comment stub _ rest => ∃ error more, stub.error? = some error ∧
      Text.lines (stubComment stub.owner stub.method error).toList =
        (stubMarker ++ rest).toList :: more
  | .other _ _ => True

/-- Lines that are no comments. -/
def others (lines : List (Nat × String)) : List Row :=
  lines.map fun line => .other line.1 line.2

theorem line_others (lines : List (Nat × String)) : (others lines).map line = lines := by
  rw [others, List.map_map]
  exact List.map_id lines

theorem stub?_others (lines : List (Nat × String)) : (others lines).filterMap stub? = [] := by
  simp [others, stub?]

theorem faithful_others (lines : List (Nat × String)) : ∀ row ∈ others lines, row.Faithful := by
  intro row hrow
  obtain ⟨line, -, rfl⟩ := List.mem_map.1 hrow
  trivial

/-- Each comment has one marker, and the others stand beside these. -/
theorem sum_markers (rows : List Row) : (rows.map fun row => markers row.line.2).sum =
    (rows.filterMap stub?).length + (rows.map fun row => markers row.beside).sum := by
  induction rows with
  | nil => rfl
  | cons row rest ih =>
      rw [List.map_cons, List.sum_cons, ih, List.map_cons, List.sum_cons]
      cases row with
      | comment stub level text =>
          have hmarker : markers (Row.comment stub level text).line.2 = markers text + 1 :=
            markers_append text
          simp only [hmarker, List.filterMap_cons, stub?, List.length_cons, beside]
          omega
      | other level text =>
          simp only [Row.line, List.filterMap_cons, stub?, beside]
          omega

end Row

/-- The lines that the emission of these methods has written, told apart by the comments
among them: each method is bound or has a stub, the stubs are those that have been noted
between the two states, and the comments are theirs. -/
structure Tally (s t : State) (methods : List (ClassName × Method)) (lines : List (Nat × String))
    (outcomes : List Outcome) (rows : List Row) : Prop where
  methods : outcomes.map (fun o => (o.owner, o.method)) = methods
  stubs : t.stubs = s.stubs ++ outcomes.filterMap Outcome.stub?
  comments : rows.filterMap Row.stub? = outcomes.filter (·.error?.isSome)
  faithful : ∀ row ∈ rows, row.Faithful
  lines : rows.map Row.line = lines

namespace Tally

variable {s t u : State} {methods methods' : List (ClassName × Method)} {lines lines' : List (Nat × String)}
  {outcomes outcomes' : List Outcome} {rows rows' : List Row}

theorem append (h : Tally s t methods lines outcomes rows)
    (h' : Tally t u methods' lines' outcomes' rows') :
    Tally s u (methods ++ methods') (lines ++ lines') (outcomes ++ outcomes') (rows ++ rows') where
  methods := by rw [List.map_append, h.methods, h'.methods]
  stubs := by rw [h'.stubs, h.stubs, List.filterMap_append, List.append_assoc]
  comments := by rw [List.filterMap_append, List.filter_append, h.comments, h'.comments]
  faithful := List.forall_mem_append.2 ⟨h.faithful, h'.faithful⟩
  lines := by rw [List.map_append, h.lines, h'.lines]

/-- Text that no stub is part of. -/
theorem plain (lines : List (Nat × String)) (hmethods : outcomes.map (fun o => (o.owner, o.method)) = methods)
    (hnone : ∀ o ∈ outcomes, o.error? = none) (hstubs : t.stubs = s.stubs) :
    Tally s t methods lines outcomes (Row.others lines) where
  methods := hmethods
  stubs := by
    have hsilent : outcomes.filterMap Outcome.stub? = [] := by
      simpa [Outcome.stub?] using hnone
    rw [hstubs, hsilent, List.append_nil]
  comments := by
    rw [Row.stub?_others, eq_comm]
    simpa using hnone
  faithful := Row.faithful_others _
  lines := Row.line_others _

/-- A comment stands in front of the stub that it tells of. -/
theorem stubbed {owner : ClassName} {m : Method} {error : EmitError}
    (hstubs : t.stubs = s.stubs ++ [stubEvent owner m error]) :
    ∃ rows, Tally s t [(owner, m)] ((stubDoc owner m error).linesAt 0) [⟨owner, m, some error⟩] rows := by
  obtain ⟨rest, more, hlines⟩ := exists_lines_stubComment owner m error
  have hlast : (stubComment owner m error).toList.getLast? ≠ some '\n' := by
    have hend : (stubComment owner m error).toList.getLast? = some ';' :=
      Doc.getLast?_append _ (show ";".toList.getLast? = some ';' by decide)
    rw [hend]
    decide
  have htext : (Doc.line (stubComment owner m error)).linesAt 0 =
      (0, stubMarker ++ rest) :: more.map fun p => (0, String.ofList p) := by
    rw [Doc.linesAt_eq, Doc.entriesAt, textEntries, Text.dropFinalNewline, if_neg hlast, hlines,
      List.filterMap_map]
    simp [Entry.line?, Function.comp_def]
  refine ⟨.comment ⟨owner, m, some error⟩ 0 rest ::
    Row.others ((more.map fun p => (0, String.ofList p)) ++ (bindStub (methodSlot owner m)).linesAt 0),
    rfl, hstubs, ?_, ?_, ?_⟩
  · simp only [List.filterMap_cons, Row.stub?, Row.stub?_others]
    rfl
  · exact List.forall_mem_cons.2 ⟨⟨error, more, rfl, hlines⟩, Row.faithful_others _⟩
  · have hdoc : stubDoc owner m error = .line (stubComment owner m error) ++ bindStub (methodSlot owner m) :=
      rfl
    rw [hdoc, Doc.linesAt_append, htext, List.map_cons, Row.line_others]
    rfl

/-- Every method is either bound or has a stub with its comment. -/
theorem addsUp (job : Job) : AddsUp job fun s t methods d =>
    ∃ outcomes rows, Tally s t methods (d.linesAt 0) outcomes rows where
  append h h' := by
    obtain ⟨outcomes, rows, hfirst⟩ := h
    obtain ⟨outcomes', rows', hsecond⟩ := h'
    rw [Doc.linesAt_append]
    exact ⟨_, _, hfirst.append hsecond⟩
  splice h := by
    rw [Doc.linesAt_eq, Doc.entriesAt, ← Doc.linesAt_eq]
    exact h
  plain := by
    intro s t d _ hstubs
    exact ⟨[], _, .plain _ rfl (by simp) hstubs⟩
  method := by
    intro s t owner m d h
    rcases lowerMethod_run h with ⟨-, hstubs⟩ | ⟨error, rfl, hstubs⟩
    · exact ⟨[⟨owner, m, none⟩], _, .plain _ rfl (by simp) hstubs⟩
    · exact ⟨_, stubbed hstubs⟩

/-- The markers in a source of these lines are those of the stubs and those beside them. -/
theorem markers_eq (h : Tally s t methods lines outcomes rows) {source : String}
    (hsource : Text.lines source.toList = lines.map shownLine ++ [[]]) : markers source =
      (outcomes.filterMap Outcome.stub?).length + (rows.map fun row => markers row.beside).sum := by
  have hstubs : (outcomes.filterMap Outcome.stub?).length = (rows.filterMap Row.stub?).length := by
    rw [h.comments, List.length_filterMap_eq_countP, ← List.countP_eq_length_filter]
    simp [Outcome.stub?]
  rw [hstubs, ← Row.sum_markers, markers, Text.occurrences_eq_sum unbordered_stubMarker
    stubMarker_ne_nil stubMarker_oneLine, hsource, ← h.lines, List.map_append, List.map_map,
    List.map_map, List.sum_append_nat]
  simp only [Function.comp_def, occurrences_shownLine]
  rfl

end Tally

end Emission

namespace CommandLine

open Emission Output

/-- A check reports the stubs of its emission, each of which has a line of the source that
begins with the marker, and besides every other place in which the marker stands, in the
other lines or in what these say behind it. So it reports the number of the stubs exactly
if there are no such places, and otherwise more. -/
theorem runCheck_counts {σ : Type} {access : FileAccess (StateM σ)} {files : σ}
    (haccess : access.ReadsOnly) {check : CheckParams} {text : String}
    (h : resultOn files (runCheck access check) = .ok text) :
    ∃ (program : Program) (result : Result) (t : State) (lines : List (Nat × String))
      (outcomes : List Emission.Outcome) (rows : List Row),
      let job := checkJob program check.target (!check.noSwitch)
      let elsewhere := (rows.map fun row => markers row.beside).sum
      resultOn files (loadProgram access check.programPath) = .ok program ∧
      (emitProgram job).runFrom .initial = (.ok result, t) ∧
      Text.lines result.source.toList = lines.map shownLine ++ [[]] ∧
      Tally .initial t job.emittedMethods lines outcomes rows ∧
      text = report program.classes.length result.source.utf8ByteSize (t.stubs.length + elsewhere) ∧
      (elsewhere = 0 ↔ ∀ row ∈ rows, ¬ stubMarker.toList <:+: row.beside.toList) := by
  obtain ⟨loaded, hload⟩ : ∃ loaded, Settles files (loadProgram access check.programPath) loaded :=
    Settles.loadProgram haccess _
  rw [(runCheck_settles hload).resultOn_eq] at h
  rw [hload.resultOn_eq]
  cases loaded with
  | error e => cases h
  | ok program =>
      rw [bind_ok] at h
      cases hemit : (emitProgram (checkJob program check.target (!check.noSwitch))).runFrom .initial with
      | mk emitted t =>
          rw [hemit] at h
          cases emitted with
          | error e => cases h
          | ok result =>
              obtain ⟨d, u, hlower, rfl, hu⟩ := exists_of_emitProgram_ok hemit
              obtain ⟨outcomes, rows, htally⟩ := (Tally.addsUp _).ofProgram hlower
              have hstubs : t.stubs = outcomes.filterMap Outcome.stub? :=
                hu.stubs.symm.trans htally.stubs
              refine ⟨program, resultOf _ d, t, _, outcomes, rows, rfl, hemit, d.lines_text,
                { htally with stubs := hstubs }, ?_, ?_⟩
              · rw [hstubs, ← htally.markers_eq d.lines_text]
                exact (Except.ok.inj h).symm
              · rw [List.sum_eq_zero_iff_forall_eq_nat, List.forall_mem_map]
                exact forall₂_congr fun row _ =>
                  Text.occurrences_eq_zero_iff unbordered_stubMarker stubMarker_ne_nil

section Examples

/-- A check of the program in the file. -/
def checking : CheckParams := ⟨"main.json", "js", false, 0⟩

theorem runCheck_bannered {program : Program} (h : program.Writable) {result : Result} {t : State}
    (hemit : (emitProgram (checkJob program "js" true)).runFrom .initial = (.ok result, t)) :
    resultOn () (runCheck (bannered program) checking) =
      .ok (report program.classes.length result.source.utf8ByteSize (markers result.source)) := by
  have hsettles : Settles () (runCheck (bannered program) checking) _ :=
    runCheck_settles (loadProgram_bannered h)
  have hjob : checkJob program checking.target (!checking.noSwitch) = checkJob program "js" true := rfl
  rw [hsettles.resultOn_eq, bind_ok, hjob, hemit]
  rfl

/-- One of two methods cannot be lowered, and that is reported. -/
theorem runCheck_counts_stubbed :
    ∃ text result t elsewhere,
      resultOn () (runCheck (bannered (solo [faulty, traced])) checking) = .ok text ∧
      (emitProgram (checkJob (solo [faulty, traced]) "js" true)).runFrom .initial = (.ok result, t) ∧
      t.stubs = [stubEvent ⟨"Main"⟩ faulty (.malformedBody (.unary .not .int))] ∧
      text = report 1 result.source.utf8ByteSize (1 + elsewhere) := by
  have hwritable : (solo [faulty, traced]).Writable :=
    ⟨by decide +kernel, by decide +kernel⟩
  obtain ⟨d, u, hlower, hstubs⟩ : ∃ d t,
      (lowerProgram (checkJob (solo [faulty, traced]) "js" true)).run .initial = (.ok d, t) ∧
        t.stubs = [stubEvent ⟨"Main"⟩ faulty (.malformedBody (.unary .not .int))] := by
    refine exists_lowerProgram_solo rfl rfl rfl (fun s => ?_) .initial
    exact ⟨_, _, rfl, List.filter_append _ _⟩
  obtain ⟨t, hemit, ht⟩ := emitProgram_run hlower
  have hcheck := runCheck_bannered hwritable hemit
  obtain ⟨program, result, v, _, _, rows, hprogram, hresult, -, -, htext, -⟩ :=
    runCheck_counts (fun _ _ => rfl) hcheck
  obtain rfl : solo [faulty, traced] = program :=
    Except.ok.inj ((loadProgram_bannered hwritable).resultOn_eq.symm.trans hprogram)
  obtain ⟨hresult, rfl⟩ := Prod.mk.inj (hresult.symm.trans hemit)
  rw [← ht.stubs, hstubs] at htext
  exact ⟨_, result, _, _, hcheck, by rw [Except.ok.inj hresult]; exact hemit, ht.stubs.symm.trans hstubs, htext⟩

/-- A method that mentions the marker. -/
def quoting : Method := .mentioning "Main" stubMarker .nop

/-- Nothing is stubbed, and the string is in the pool. -/
theorem lowerProgram_quoting : ∃ classes t,
    (lowerProgram (checkJob (solo [quoting]) "js" true)).run .initial =
        (.ok (programDoc (checkJob (solo [quoting]) "js" true) ⟨[stubMarker]⟩ [] classes "Main.run();"), t) ∧
      t.stubs = [] := by
  have hmethods : ∀ s, ∃ docs u, (([quoting].filter (!·.isInit)).mapM
      (lowerMethod (checkJob (solo [quoting]) "js" true) ⟨"Main"⟩)).run s = (.ok docs, u) ∧
        u.stubs = s.stubs ∧ u.pool = (s.pool.alloc stubMarker).2 := fun s => ⟨_, _, rfl, rfl, rfl⟩
  obtain ⟨u, hu, hprogram⟩ :=
    lowerProgram_solo [quoting] (checkJob (solo [quoting]) "js" true).config rfl rfl rfl .initial
  obtain ⟨docs, v, hdocs, hstubs, hpool⟩ := hmethods u
  have hquoted : v.pool = ⟨[stubMarker]⟩ := by
    rw [hpool, hu.pool]
    decide
  obtain ⟨t, hrun, ht⟩ := hprogram hdocs
  rw [hquoted] at hrun
  exact ⟨_, t, hrun, by rw [ht, hstubs, hu.stubs]; rfl⟩

/-- So the marker is counted although no method has been stubbed. -/
theorem runCheck_counts_quoted :
    ∃ result t reported,
      (emitProgram (checkJob (solo [quoting]) "js" true)).runFrom .initial = (.ok result, t) ∧
      resultOn () (runCheck (bannered (solo [quoting])) checking) =
        .ok (report 1 result.source.utf8ByteSize reported) ∧
      reported ≠ t.stubs.length := by
  have hwritable : (solo [quoting]).Writable := ⟨by decide +kernel, by decide +kernel⟩
  obtain ⟨classes, u, hlower, hstubs⟩ := lowerProgram_quoting
  obtain ⟨t, hemit, ht⟩ := emitProgram_run hlower
  refine ⟨_, t, _, hemit, runCheck_bannered hwritable hemit, ?_⟩
  rw [← ht.stubs, hstubs]
  have hslot : (0, "SS[0] = \"// Errored method:\";") ∈ (StringPool.mk [stubMarker]).doc.linesAt 0 := by
    decide +kernel
  have hline : (0, "SS[0] = \"// Errored method:\";") ∈ (programDoc
      (checkJob (solo [quoting]) "js" true) ⟨[stubMarker]⟩ [] classes "Main.run();").linesAt 0 := by
    simp only [programDoc, Doc.linesAt_append, List.mem_append]
    exact .inl (.inl (.inl (.inr hslot)))
  exact markers_text_ne_zero hline (by decide +kernel)

end Examples

end CommandLine

end ClassScript
