import ClassScript.Proofs.DocLines
import ClassScript.Proofs.LineMapReading
import Mathlib.Data.List.Forall2

/-!
Where marks come to lie. A mark belongs to the first line written after it, and
of several marks before one line only the last stays. This is what a line map
records of the marks of a document, and what its mappings say when they are read.
-/

namespace ClassScript.Output

/-- How many lines there are among the entries. -/
def lineCount (entries : List Entry) : Nat :=
  (entries.filterMap Entry.line?).length

theorem lineCount_append (entries others : List Entry) :
    lineCount (entries ++ others) = lineCount entries + lineCount others := by
  rw [lineCount, List.filterMap_append, List.length_append]
  rfl

/-- The lines from a number on that have a mark before them, each with the last
such mark; `pending` is the one before the first entry. -/
def firstLines (pending : Option Mark) (line : Nat) : List Entry → List (Nat × Mark)
  | [] => []
  | .mark m :: rest => firstLines (some m) line rest
  | .text _ _ :: rest => (pending.map (line, ·)).toList ++ firstLines none (line + 1) rest

/-- The mark with no line after it. -/
def leftover (pending : Option Mark) : List Entry → Option Mark
  | [] => pending
  | .mark m :: rest => leftover (some m) rest
  | .text _ _ :: rest => leftover none rest

theorem lineCount_text (indent : Nat) (text : String) (rest : List Entry) :
    lineCount (.text indent text :: rest) = lineCount rest + 1 := rfl

theorem lineCount_mark (m : Mark) (rest : List Entry) : lineCount (.mark m :: rest) = lineCount rest := rfl

theorem firstLines_append (pending : Option Mark) (line : Nat) (entries others : List Entry) :
    firstLines pending line (entries ++ others) =
      firstLines pending line entries ++
        firstLines (leftover pending entries) (line + lineCount entries) others := by
  induction entries generalizing pending line with
  | nil => rfl
  | cons entry rest ih =>
      cases entry with
      | text indent text =>
          rw [List.cons_append, firstLines, ih, firstLines, List.append_assoc, leftover,
            lineCount_text, Nat.add_assoc, Nat.add_comm 1]
      | mark m =>
          rw [List.cons_append, firstLines, ih, lineCount_mark]
          rfl

theorem leftover_append (pending : Option Mark) (entries others : List Entry) :
    leftover pending (entries ++ others) = leftover (leftover pending entries) others := by
  induction entries generalizing pending with
  | nil => rfl
  | cons entry rest ih =>
      cases entry with
      | text indent text => exact ih none
      | mark m => exact ih (some m)

/-- Lines without marks have none before them but the pending one, and that is
taken by the first of them. -/
theorem firstLines_of_no_marks {entries : List Entry} (h : entries.filterMap Entry.mark? = [])
    (line : Nat) : firstLines none line entries = [] ∧ leftover none entries = none := by
  induction entries generalizing line with
  | nil => exact ⟨rfl, rfl⟩
  | cons entry rest ih =>
      cases entry with
      | text indent text => exact ih h (line + 1)
      | mark m => cases h

/-- A mark of these entries, with the number of the line that stands right
behind it. -/
def MarksLine (line : Nat) (entries : List Entry) (place : Nat × Mark) : Prop :=
  ∃ front indent text rest, entries = front ++ .mark place.2 :: .text indent text :: rest ∧
    place.1 = line + lineCount front

theorem marksLine_cons {line : Nat} {entry : Entry} {rest : List Entry} {place : Nat × Mark} :
    MarksLine line (entry :: rest) place ↔
      (entry = .mark place.2 ∧ (∃ indent text behind, rest = .text indent text :: behind) ∧
        place.1 = line) ∨ MarksLine (line + lineCount [entry]) rest place := by
  constructor
  · rintro ⟨front, indent, text, behind, hentries, hline⟩
    cases front with
    | nil =>
        obtain ⟨rfl, rfl⟩ := List.cons.inj hentries
        exact .inl ⟨rfl, ⟨indent, text, behind, rfl⟩, hline⟩
    | cons first front =>
        obtain ⟨rfl, rfl⟩ := List.cons.inj hentries
        refine .inr ⟨front, indent, text, behind, rfl, ?_⟩
        rw [hline, Nat.add_assoc, ← lineCount_append, List.singleton_append]
  · rintro (⟨rfl, ⟨indent, text, behind, rfl⟩, rfl⟩ | ⟨front, indent, text, behind, rfl, hline⟩)
    · exact ⟨[], indent, text, behind, rfl, rfl⟩
    · refine ⟨entry :: front, indent, text, behind, rfl, ?_⟩
      rw [hline, Nat.add_assoc, ← lineCount_append, List.singleton_append]

/-- A line is among these just if a mark stands right before it. -/
theorem mem_firstLines {place : Nat × Mark} : ∀ {line : Nat} {entries : List Entry},
    place ∈ firstLines none line entries ↔ MarksLine line entries place
  | line, [] => by simp [firstLines, MarksLine]
  | line, .text indent text :: rest => by
      have hrest : place ∈ firstLines none (line + 1) rest ↔ MarksLine (line + 1) rest place :=
        mem_firstLines
      rw [marksLine_cons]
      exact hrest.trans ⟨.inr, fun h => h.resolve_left fun hmark => nomatch hmark.1⟩
  | line, [.mark m] => by
      rw [marksLine_cons]
      simp [firstLines, MarksLine]
  | line, .mark m :: .text indent text :: rest => by
      have hrest : place ∈ firstLines none (line + 1) rest ↔ MarksLine (line + 1) rest place :=
        mem_firstLines
      change place ∈ (line, m) :: firstLines none (line + 1) rest ↔ _
      rw [List.mem_cons, marksLine_cons, marksLine_cons, hrest]
      constructor
      · rintro (rfl | hlater)
        · exact .inl ⟨rfl, ⟨_, _, _, rfl⟩, rfl⟩
        · exact .inr (.inr hlater)
      · rintro (⟨hmark, _, hline⟩ | ⟨hmark, _⟩ | hlater)
        · obtain rfl := Entry.mark.inj hmark
          exact .inl (Prod.ext hline rfl)
        · cases hmark
        · exact .inr hlater
  | line, .mark m :: .mark n :: rest => by
      have hrest : place ∈ firstLines none line (.mark n :: rest) ↔
          MarksLine line (.mark n :: rest) place := mem_firstLines
      rw [marksLine_cons]
      refine hrest.trans ⟨.inr, fun h => h.resolve_left ?_⟩
      rintro ⟨_, ⟨_, _, _, hline⟩, _⟩
      cases hline

/-- The lines of these places lie between the first line and the last. -/
theorem lt_of_mem_firstLines {line : Nat} {entries : List Entry} {place : Nat × Mark}
    (h : place ∈ firstLines none line entries) :
    line ≤ place.1 ∧ place.1 < line + lineCount entries := by
  obtain ⟨front, indent, text, rest, rfl, hline⟩ := mem_firstLines.1 h
  rw [lineCount_append, lineCount_mark, lineCount_text, hline]
  omega

/-- Entries for places in a table of files. -/
def Shows (sources : List String) (entry : Nat × Origin) (place : Nat × Mark) : Prop :=
  entry.1 = place.1 ∧ sources[entry.2.source]? = some place.2.file ∧ entry.2.line = place.2.line

theorem Shows.mono {sources : List String} {entry : Nat × Origin} {place : Nat × Mark}
    (h : Shows sources entry place) (more : List String) : Shows (sources ++ more) entry place := by
  obtain ⟨hlt, _⟩ := List.getElem?_eq_some_iff.1 h.2.1
  exact ⟨h.1, (List.getElem?_append_left hlt).trans h.2.1, h.2.2⟩

namespace LineMap

/-- The entries of the map stand for these places. -/
def Records (m : LineMap) (places : List (Nat × Mark)) : Prop :=
  List.Forall₂ (Shows m.sources) m.entries places

/-- An entry for the last line comes to the end, instead of one that is there
for this line. -/
theorem forall₂_insertEntry {sources : List String} {entries : List (Nat × Origin)}
    {front : List (Nat × Mark)} {pending : Option Mark} {line : Nat} {origin : Origin} {mark : Mark}
    (h : List.Forall₂ (Shows sources) entries (front ++ (pending.map (line, ·)).toList))
    (hfront : ∀ place ∈ front, place.1 < line) (hnew : Shows sources (line, origin) (line, mark)) :
    List.Forall₂ (Shows sources) (insertEntry line origin entries) (front ++ [(line, mark)]) := by
  induction front generalizing entries with
  | nil =>
      cases pending with
      | none =>
          cases h
          exact .cons hnew .nil
      | some old =>
          obtain ⟨⟨other, known⟩, rest, ⟨rfl, _⟩, hrest, rfl⟩ := List.forall₂_cons_right_iff.1 h
          rw [insertEntry, if_neg (Nat.lt_irrefl _), if_pos rfl]
          exact .cons hnew hrest
  | cons place front ih =>
      obtain ⟨⟨other, known⟩, rest, hplace, hrest, rfl⟩ := List.forall₂_cons_right_iff.1 h
      have hsame : other = place.1 := hplace.1
      have hbefore : place.1 < line := hfront place List.mem_cons_self
      rw [insertEntry, if_neg (by omega), if_neg (by omega)]
      exact .cons hplace (ih hrest fun later hlater => hfront later (List.mem_cons_of_mem _ hlater))

theorem records_record {m : LineMap} {front : List (Nat × Mark)} {pending : Option Mark} {line : Nat}
    (h : m.Records (front ++ (pending.map (line, ·)).toList)) (hfront : ∀ place ∈ front, place.1 < line)
    (mark : Mark) : (m.record line mark).Records (front ++ [(line, mark)]) := by
  unfold record
  split
  · next source hsource =>
      obtain ⟨hlt, hfile, _⟩ := List.idxOf?_eq_some_iff.1 hsource
      exact forall₂_insertEntry h hfront ⟨rfl, by rw [List.getElem?_eq_getElem hlt, hfile], rfl⟩
  · refine forall₂_insertEntry (h.imp fun _ _ hshows => hshows.mono _) hfront ⟨rfl, ?_, rfl⟩
    exact List.getElem?_concat_length

/-- What is recorded mark after mark. -/
theorem records_marksFrom (entries : List Entry) {m : LineMap} {front : List (Nat × Mark)}
    {pending : Option Mark} {line : Nat} (h : m.Records (front ++ (pending.map (line, ·)).toList))
    (hfront : ∀ place ∈ front, place.1 < line) :
    ((marksFrom line entries).foldl (fun m (line, position) => m.record line position) m).Records
      (front ++ firstLines pending line entries ++
        ((leftover pending entries).map (line + lineCount entries, ·)).toList) := by
  induction entries generalizing m front pending line with
  | nil =>
      rw [firstLines, List.append_nil]
      exact h
  | cons entry rest ih =>
      cases entry with
      | text indent text =>
          have hfront' : ∀ place ∈ front ++ (pending.map (line, ·)).toList, place.1 < line + 1 := by
            intro place hplace
            rcases List.mem_append.1 hplace with hbefore | hpending
            · exact Nat.lt_succ_of_lt (hfront place hbefore)
            · obtain ⟨m, rfl, rfl⟩ := by simpa using hpending
              exact Nat.lt_succ_self _
          have hnext : m.Records (front ++ (pending.map (line, ·)).toList ++
              ((none : Option Mark).map (line + 1, ·)).toList) := by
            rw [Option.map_none, Option.toList_none, List.append_nil]
            exact h
          have hrest := ih hnext hfront'
          rw [List.append_assoc front, Nat.add_assoc, Nat.add_comm 1] at hrest
          exact hrest
      | mark mark => exact ih (records_record h hfront mark) hfront

/-- Lines are recorded in ascending order. -/
theorem firstLines_ascending (pending : Option Mark) (line : Nat) (entries : List Entry) :
    (firstLines pending line entries).Pairwise (fun place later => place.1 < later.1) ∧
      ∀ place ∈ firstLines pending line entries, line ≤ place.1 := by
  induction entries generalizing pending line with
  | nil => exact ⟨.nil, by simp [firstLines]⟩
  | cons entry rest ih =>
      cases entry with
      | text indent text =>
          obtain ⟨hrest, hlater⟩ := ih none (line + 1)
          cases pending with
          | none => exact ⟨hrest, fun place h => Nat.le_of_succ_le (hlater place h)⟩
          | some m =>
              refine ⟨List.pairwise_cons.2 ⟨hlater, hrest⟩, List.forall_mem_cons.2 ⟨Nat.le_refl _, ?_⟩⟩
              exact fun place h => Nat.le_of_succ_le (hlater place h)
      | mark m => exact ih (some m) line

/-- Entries that stand for places in ascending order are in ascending order. -/
theorem Records.ascending {m : LineMap} {places : List (Nat × Mark)} (h : m.Records places)
    (hplaces : places.Pairwise fun place later => place.1 < later.1) :
    m.entries.Pairwise fun entry later => entry.1 < later.1 := by
  have hlines : m.entries.map Prod.fst = places.map Prod.fst := by
    rw [← List.forall₂_eq_eq_eq, List.forall₂_map_left_iff, List.forall₂_map_right_iff]
    exact h.imp fun _ _ hshows => hshows.1
  rw [← List.pairwise_map (R := (· < ·)), hlines, List.pairwise_map]
  exact hplaces

end LineMap

/-- A segment at the start of a line for that place. -/
structure Segment.PointsTo (sources : List String) (segment : Segment) (place : Nat × Mark) : Prop where
  line : segment.line = place.1
  column : segment.column = 0
  source : ∃ index : Nat, segment.source = index ∧ sources[index]? = some place.2.file
  sourceLine : segment.sourceLine = ((max place.2.line.toNat 1 - 1 : Nat) : Int)
  sourceColumn : segment.sourceColumn = 0

theorem Shows.pointsTo {sources : List String} {entry : Nat × Origin} {place : Nat × Mark}
    (h : Shows sources entry place) : (LineMap.segmentOf entry).PointsTo sources place := by
  obtain ⟨hline, hsource, hmark⟩ := h
  refine ⟨hline, rfl, ⟨_, rfl, hsource⟩, ?_, rfl⟩
  rw [LineMap.segmentOf, LineMap.zeroBased, hmark]
  simp only [Int.ofNat_inj]
  omega

/-- The mappings for the marks of a document say the first lines after them, if
none is left over. -/
theorem decodeMappings_ofMarks {entries : List Entry} (h : leftover none entries = none) :
    ∃ segments, decodeMappings (LineMap.ofMarks (marksFrom 0 entries)).mappings = some segments ∧
      List.Forall₂ (Segment.PointsTo (LineMap.ofMarks (marksFrom 0 entries)).sources) segments
        (firstLines none 0 entries) := by
  have hempty : LineMap.empty.Records ([] ++ ((none : Option Mark).map (0, ·)).toList) := .nil
  have hrecords := LineMap.records_marksFrom entries hempty (by simp)
  rw [h, List.nil_append, Option.map_none, Option.toList_none, List.append_nil] at hrecords
  have hascending := hrecords.ascending (LineMap.firstLines_ascending none 0 entries).1
  refine ⟨_, decodeMappings_mappings hascending, ?_⟩
  rw [List.forall₂_map_left_iff]
  exact hrecords.imp fun _ _ hshows => hshows.pointsTo

end ClassScript.Output
