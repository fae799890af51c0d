import ClassScript.Proofs.SourceLayout
import ClassScript.Proofs.StatementEntries

/-!
The line map of a program, read back. Whatever stands in front of a function and
however deep it is, the map leads from lines of it to the positions in its body,
and from no other line to anywhere. A position before a statement is led to from
the first line of that statement.
-/

namespace ClassScript.Emission

open Output

/-- The mapped lines of stretches of which the first begins at a line. A
function's lines count from behind its opening ones. -/
def placesFrom (line : Nat) : List Stretch → List (Nat × Mark)
  | [] => []
  | stretch :: rest =>
      firstLines none (line + lineCount stretch.opening) stretch.inside ++
        placesFrom (line + lineCount stretch.entries) rest

namespace Stretch

theorem marks_opening (stretch : Stretch) : stretch.opening.filterMap Entry.mark? = [] := by
  cases stretch with
  | plain lines => rfl
  | function owner m body level doc => exact marks_textEntries _ _

/-- The marks inside a function are those of its body's document. -/
theorem marks_inside (owner : ClassName) (m : Method) (body : Body) (level : Nat) (doc : Doc) :
    (Stretch.function owner m body level doc).inside.filterMap Entry.mark? = doc.marks := by
  rw [inside, List.filterMap_append, Doc.mark_entriesAt, Doc.marks_append, Doc.marks_lineIf,
    List.append_nil]
  exact List.append_nil _

theorem marks_plain (lines : List (Nat × String)) :
    (Stretch.plain lines).inside.filterMap Entry.mark? = [] := by
  rw [inside, List.filterMap_map, List.filterMap_eq_nil_iff]
  exact fun _ _ => rfl

/-- No mark is left over: a function ends with a line. -/
theorem leftover_inside (stretch : Stretch) : leftover none stretch.inside = none := by
  cases stretch with
  | plain lines => exact (firstLines_of_no_marks (marks_plain lines) 0).2
  | function owner m body level doc =>
      rw [inside, leftover_append]
      rfl

end Stretch

/-- Marks come to lie in their own stretch. -/
theorem firstLines_stretches (line : Nat) (stretches : List Stretch) :
    firstLines none line (stretches.flatMap Stretch.entries) = placesFrom line stretches ∧
      leftover none (stretches.flatMap Stretch.entries) = none := by
  induction stretches generalizing line with
  | nil => exact ⟨rfl, rfl⟩
  | cons stretch rest ih =>
      obtain ⟨hopening, hnone⟩ := firstLines_of_no_marks stretch.marks_opening line
      have hleftover : leftover none stretch.entries = none := by
        rw [Stretch.entries, leftover_append, hnone, stretch.leftover_inside]
      have hfirst : firstLines none line stretch.entries =
          firstLines none (line + lineCount stretch.opening) stretch.inside := by
        rw [Stretch.entries, firstLines_append, hopening, hnone, List.nil_append]
      obtain ⟨hplaces, hrest⟩ := ih (line + lineCount stretch.entries)
      rw [List.flatMap_cons, firstLines_append, leftover_append, hleftover, hfirst, hplaces]
      exact ⟨rfl, hrest⟩

/-- A mapped line belongs to a function, behind its opening lines and not behind
its closing one. -/
theorem mem_placesFrom {line : Nat} {stretches : List Stretch} {place : Nat × Mark}
    (h : place ∈ placesFrom line stretches) :
    ∃ before owner m body level doc after,
      stretches = before ++ .function owner m body level doc :: after ∧
        line + lineCount (before.flatMap Stretch.entries) +
            lineCount (Stretch.function owner m body level doc).opening ≤ place.1 ∧
          place.1 < line + lineCount (before.flatMap Stretch.entries) +
            lineCount (Stretch.function owner m body level doc).entries := by
  induction stretches generalizing line with
  | nil => cases h
  | cons stretch rest ih =>
      rcases List.mem_append.1 h with hhere | hlater
      · cases stretch with
        | plain lines =>
            rw [(firstLines_of_no_marks (Stretch.marks_plain lines) _).1] at hhere
            cases hhere
        | function owner m body level doc =>
            obtain ⟨hfrom, hto⟩ := lt_of_mem_firstLines hhere
            refine ⟨[], owner, m, body, level, doc, rest, rfl, hfrom, ?_⟩
            rw [Stretch.entries, lineCount_append, ← Nat.add_assoc]
            exact hto
      · obtain ⟨before, owner, m, body, level, doc, after, rfl, hfrom, hto⟩ := ih hlater
        refine ⟨stretch :: before, owner, m, body, level, doc, after, rfl, ?_, ?_⟩
        · rw [List.flatMap_cons, lineCount_append, ← Nat.add_assoc]
          exact hfrom
        · rw [List.flatMap_cons, lineCount_append, ← Nat.add_assoc]
          exact hto

/-- A mark among the entries, with other entries right behind it of which the first is a
line: the mark is found at that line, and the lines stand there. -/
theorem placed_of_infix {mark : Mark} {level : Nat} {text : String} {rest all : List Entry}
    (h : (.mark mark :: .text level text :: rest) <:+: all) :
    ∃ n, (n, mark) ∈ firstLines none 0 all ∧
      (Entry.text level text :: rest).filterMap Entry.line? <+: (all.filterMap Entry.line?).drop n := by
  obtain ⟨front, back, rfl⟩ := h
  refine ⟨lineCount front, mem_firstLines.2 ⟨front, level, text, rest ++ back, ?_, ?_⟩, ?_⟩
  · rw [List.append_assoc]
    rfl
  · exact (Nat.zero_add _).symm
  · rw [List.append_assoc, List.filterMap_append, lineCount, List.drop_left]
    exact ⟨back.filterMap Entry.line?, (List.filterMap_append (l := Entry.text level text :: rest)).symm⟩

/-- The entries of the statement behind a position, in a row of stretches: the mark of the
position stands right before them. -/
theorem Stretch.Lowered.behind_position {job : Job} (hdebug : job.config.debug = true)
    {stretches : List Stretch} {owner : ClassName} {m : Method} {body : Body} {level : Nat} {doc : Doc}
    (hmem : .function owner m body level doc ∈ stretches)
    (h : (Stretch.function owner m body level doc).Lowered job)
    {front rest : List Stmt} {file : String} {line : UInt32} {next : Stmt}
    (hblock : .block (front ++ .position file line :: next :: rest) ∈
      body.stmt.lowered job.config.nativeSwitch) :
    ∃ chain p text q deeper,
      LowersStmt job ⟨⟨owner, m.name, m.type⟩, m.returnsThis⟩ chain next p text q ∧
        (.mark ⟨file, line⟩ :: text.entriesAt deeper) <:+: stretches.flatMap Stretch.entries := by
  obtain ⟨s, t, whole, n, -, hstmt, hentries, -⟩ := h
  obtain ⟨chain, p, text, q, hnext, hinfix⟩ := hstmt.behind_position hdebug hblock
  obtain ⟨deeper, hbehind⟩ := hinfix (level + 1)
  refine ⟨chain, p, text, q, deeper, hnext, hbehind.trans ?_⟩
  have hdoc : whole.entriesAt (level + 1) <:+: doc.entriesAt (level + 1) := by
    rw [hentries]
    exact (List.suffix_append _ _).isInfix
  have hfunction : doc.entriesAt (level + 1) <:+:
      (Stretch.function owner m body level doc).entries := by
    rw [Stretch.entries, Stretch.inside, Doc.entriesAt_append, List.append_assoc]
    exact List.infix_append' _ _ _
  obtain ⟨before, after, rfl⟩ := List.append_of_mem hmem
  rw [List.flatMap_append, List.flatMap_cons, ← List.append_assoc]
  exact (hdoc.trans hfunction).trans (List.infix_append _ _ _)

/-- What a result's line map says, read by the rules of its format, about a
source whose lines are laid out in stretches. -/
structure Mapped (job : Job) (result : Result) (stretches : List Stretch) (map : LineMap)
    (segments : List Segment) : Prop where
  lines : Text.lines result.source.toList =
    ((stretches.flatMap Stretch.entries).filterMap Entry.line?).map shownLine ++ [[]]
  sourceMap : result.sourceMap = some (map.toJson job.config.outputName).text
  decoded : decodeMappings map.mappings = some segments
  places : List.Forall₂ (Segment.PointsTo map.sources) segments (placesFrom 0 stretches)
  inFunctions : ∀ place ∈ placesFrom 0 stretches, ∃ before owner m body level doc after,
    stretches = before ++ .function owner m body level doc :: after ∧
      lineCount (before.flatMap Stretch.entries) +
          lineCount (Stretch.function owner m body level doc).opening ≤ place.1 ∧
        place.1 < lineCount (before.flatMap Stretch.entries) +
          lineCount (Stretch.function owner m body level doc).entries
  positions : ∀ owner m body level doc, .function owner m body level doc ∈ stretches →
    (Stretch.function owner m body level doc).inside.filterMap Entry.mark? =
      (body.stmt.lowered job.config.nativeSwitch).filterMap Stmt.position?
  behind : ∀ owner m body level doc, .function owner m body level doc ∈ stretches →
    ∀ front file line next rest, .block (front ++ .position file line :: next :: rest) ∈
      body.stmt.lowered job.config.nativeSwitch →
    ∃ chain p text q deeper,
      LowersStmt job ⟨⟨owner, m.name, m.type⟩, m.returnsThis⟩ chain next p text q ∧
      ∀ indent first rows, text.entriesAt deeper = .text indent first :: rows →
        ∃ n, (n, ⟨file, line⟩) ∈ placesFrom 0 stretches ∧
          (text.linesAt deeper).map shownLine <+: (Text.lines result.source.toList).drop n

/-- In debug mode, the source of a program is laid out in stretches, with a
function for just those methods whose generated body has been lowered, and its
line map leads from lines inside these functions to the positions that are
lowered in their bodies: from the first line written after each, of which the
last stays where no line comes between. Where a position stands before a statement
that begins with a line, this is the first line of the statement. -/
theorem emitProgram_mapped (job : Job) (hdebug : job.config.debug = true) {s t : State}
    {result : Result} (hrun : (emitProgram job).runFrom s = (.ok result, t)) :
    ∃ d u outcomes stretches map segments, (lowerProgram job).run s = (.ok d, u) ∧
      Layout job s t job.emittedMethods (d.entriesAt 0) outcomes stretches ∧
      Mapped job result stretches map segments := by
  obtain ⟨d, u, hlower, rfl, hu⟩ := exists_of_emitProgram_ok hrun
  obtain ⟨outcomes, stretches, hlayout⟩ := laidOut_program hlower
  obtain ⟨hplaces, hnone⟩ := firstLines_stretches 0 stretches
  have hmarks : (d.write .empty).marks = marksFrom 0 (stretches.flatMap Stretch.entries) := by
    rw [Doc.write_eq, Writer.marks, ← hlayout.entries]
    rfl
  have hlines : Text.lines (resultOf job d).source.toList =
      ((stretches.flatMap Stretch.entries).filterMap Entry.line?).map shownLine ++ [[]] := by
    rw [← hlayout.entries, ← Doc.linesAt_eq]
    exact d.lines_text
  obtain ⟨segments, hdecoded, hsegments⟩ := decodeMappings_ofMarks hnone
  rw [hplaces] at hsegments
  refine ⟨d, u, outcomes, stretches, LineMap.ofMarks (d.write .empty).marks, segments, hlower,
    { hlayout with stubs := hu.stubs ▸ hlayout.stubs }, ?_⟩
  refine ⟨hlines, sourceMap_resultOf hdebug d, ?_, ?_, fun place hplace => ?_,
    fun owner m body level doc hmem => ?_, fun owner m body level doc hmem => ?_⟩
  · rw [hmarks, hdecoded]
  · rw [hmarks]
    exact hsegments
  · have hfunction := mem_placesFrom hplace
    simpa only [Nat.zero_add] using hfunction
  · obtain ⟨_, _, _, _, -, -, -, hbody⟩ := hlayout.lowered _ hmem
    rw [Stretch.marks_inside, hbody, Job.marksIn, if_pos hdebug]
  · intro front file line next rest hblock
    obtain ⟨chain, p, text, q, deeper, hnext, hinfix⟩ :=
      (hlayout.lowered _ hmem).behind_position hdebug hmem hblock
    refine ⟨chain, p, text, q, deeper, hnext, fun indent first rows hrows => ?_⟩
    rw [hrows] at hinfix
    obtain ⟨n, hplace, hprefix⟩ := placed_of_infix hinfix
    rw [hplaces] at hplace
    rw [← hrows, ← Doc.linesAt_eq] at hprefix
    obtain ⟨more, hmore⟩ := hprefix
    refine ⟨n, hplace, ?_⟩
    rw [hlines, List.drop_append, ← List.map_drop, ← hmore, List.map_append, List.append_assoc]
    exact List.prefix_append _ _

/-- A method with a position inside a statement, and with two positions at its end. -/
def stepped : Method where
  name := "step"
  owner := ⟨"Main"⟩
  type := ⟨[], .void⟩
  isStatic := true
  role := .ordinary
  nativeName := none
  body := some ⟨[], .block
    [.position "Main.java" 3, .when (.literal (.bool true))
      (.block [.position "Main.java" 4, .ret none]),
      .position "Main.java" 7, .position "Main.java" 8]⟩
  bodyRef := none
  natives := []
  fluent := false

/-- A method that cannot be lowered. -/
def malformed : Method :=
  { stepped with name := "fail", body := some ⟨[], .block
    [.position "Main.java" 12, .eval (.unary .not .int .this)]⟩ }

def tracing : Job := ⟨solo [stepped, malformed], { debug := true }, plainTemplater⟩

/-- The output of that program, line after line, with its marks. -/
def tracingEntries : List Entry :=
  [.text 0 "//# sourceMappingURL=program.js.map", .text 0 "SS = new Array(0);",
    .text 0 "function Main() \x7b", .text 0 "\x7d",
    .text 0 "Main.prototype = Object.create(java_lang_Object_base.prototype);",
    .text 0 "Main.prototype.constructor = Main;", .text 0 "Main.prototype.$$CLASS_ID = 0;",
    .text 0 "Main.prototype.$$CLASS_IDS = [0];", .text 0 "Main.SI = N.EMPTY_FUNCTION;",
    .text 0 "Main[\"step()V\"] = function() \x7b", .mark ⟨"Main.java", 3⟩, .text 1 "if (true) \x7b",
    .mark ⟨"Main.java", 4⟩, .text 2 "return;", .text 1 "\x7d", .mark ⟨"Main.java", 7⟩,
    .mark ⟨"Main.java", 8⟩, .text 0 "\x7d;",
    .text 0 "// Errored method: Main.fail :: ()V :: unary Not is not defined for Int;",
    .text 0 "Main[\"fail()V\"] = function() \x7b N.methodWithoutBody('Main[\"fail()V\"]') \x7d;",
    .text 0 "__createJavaArrays();", .text 0 "__buildStrings();", .text 0 "N.linit();",
    .text 0 "Main.SI();", .text 0 "Main.run();"]

/-- The lines that are mapped: the first behind each position, but for the one that
another position comes right behind. -/
def tracingPlaces : List (Nat × Mark) :=
  [(10, ⟨"Main.java", 3⟩), (11, ⟨"Main.java", 4⟩), (13, ⟨"Main.java", 8⟩)]

/-- One body is lowered, the other leaves a stub. -/
theorem lowerProgram_tracing : ∃ d t, (lowerProgram tracing).run .initial = (.ok d, t) ∧
    t.stubs = [stubEvent ⟨"Main"⟩ malformed (.malformedBody (.unary .not .int))] ∧
    d.entriesAt 0 = tracingEntries := by
  obtain ⟨u, hu, hprogram⟩ :=
    lowerProgram_solo [stepped, malformed] { debug := true } rfl rfl rfl .initial
  obtain ⟨v, hdocs, hpool, hstubs⟩ : ∃ v, (([stepped, malformed].filter (!·.isInit)).mapM
      (lowerMethod tracing ⟨"Main"⟩)).run u = (.ok [_, _], v) ∧ v.pool = u.pool ∧
        v.stubs = u.stubs ++ [stubEvent ⟨"Main"⟩ malformed (.malformedBody (.unary .not .int))] :=
    ⟨_, rfl, rfl, List.filter_append _ _⟩
  obtain ⟨t, hrun, ht⟩ := hprogram hdocs
  have hempty : v.pool = .empty := hpool.trans hu.pool
  rw [hempty] at hrun
  refine ⟨_, t, hrun, ?_, by decide +kernel⟩
  rw [ht, hstubs, hu.stubs]
  rfl

/-- One method becomes a function, the lines of which are mapped, and the other a stub. The
map is the text of the one segment for each place, and reads as these. -/
theorem emitProgram_mapped_tracing :
    ∃ result t d u outcomes stretches map segments,
      (emitProgram tracing).runFrom .initial = (.ok result, t) ∧ t.stubs.length = 1 ∧
      (lowerProgram tracing).run .initial = (.ok d, u) ∧
      Text.lines result.source.toList =
        (tracingEntries.filterMap Entry.line?).map shownLine ++ [[]] ∧
      result.sourceMap = some ("\x7b\"version\":3,\"file\":\"program.js\",\"sources\":[\"Main.java\"]," ++
        "\"names\":[],\"mappings\":\";;;;;;;;;;AAEA;AACA;;AAIA\"\x7d") ∧
      decodeMappings ";;;;;;;;;;AAEA;AACA;;AAIA" =
        some [⟨10, 0, 0, 2, 0⟩, ⟨11, 0, 0, 3, 0⟩, ⟨13, 0, 0, 7, 0⟩] ∧
      placesFrom 0 stretches = tracingPlaces ∧
      segments.map (fun segment => (segment.line, segment.sourceLine)) = [(10, 2), (11, 3), (13, 7)] ∧
      Layout tracing .initial t tracing.emittedMethods (d.entriesAt 0) outcomes stretches ∧
      Mapped tracing result stretches map segments := by
  obtain ⟨d, u, hlower, hstubs, hentries⟩ := lowerProgram_tracing
  obtain ⟨t, hrun, ht⟩ := emitProgram_run hlower
  obtain ⟨e, v, outcomes, stretches, map, segments, hlower', hlayout, hmapped⟩ :=
    emitProgram_mapped tracing rfl hrun
  obtain ⟨hsame, rfl⟩ := Prod.mk.inj (hlower.symm.trans hlower')
  obtain rfl := Except.ok.inj hsame
  have hplaces : placesFrom 0 stretches = tracingPlaces := by
    rw [← (firstLines_stretches 0 stretches).1, ← hlayout.entries, hentries]
    decide
  have hmap : LineMap.ofMarks (d.write .empty).marks =
      ⟨["Main.java"], [(10, ⟨0, 3⟩), (11, ⟨0, 4⟩), (13, ⟨0, 8⟩)]⟩ := by
    rw [Doc.write_eq, Writer.marks]
    change LineMap.ofMarks (marksFrom 0 (d.entriesAt 0)) = _
    rw [hentries]
    decide
  refine ⟨_, t, d, _, outcomes, stretches, map, segments, hrun, ?_, hlower, ?_, ?_, by decide +kernel, hplaces,
    ?_, hlayout, hmapped⟩
  · rw [← ht.stubs, hstubs]
    rfl
  · rw [hmapped.lines, ← hlayout.entries, hentries]
  · rw [sourceMap_resultOf rfl, hmap]
    decide +kernel
  · have hsegments := hmapped.places
    rw [hplaces] at hsegments
    have hfields : segments.map (fun segment => (segment.line, segment.sourceLine)) =
        tracingPlaces.map fun place => (place.1, ((max place.2.line.toNat 1 - 1 : Nat) : Int)) := by
      rw [← List.forall₂_eq_eq_eq, List.forall₂_map_left_iff, List.forall₂_map_right_iff]
      exact hsegments.imp fun _ _ h => Prod.ext h.line h.sourceLine
    exact hfields.trans (by decide)

end ClassScript.Emission
