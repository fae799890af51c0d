import ClassScript.Proofs.LineMapReading
import ClassScript.Proofs.Lists

/-!
Records in any order. A line map keeps for each line what was recorded for it
last, and its table names each file once, in the order of first use. Its
mappings read as just that: one segment for each line with a record.
-/

namespace ClassScript.Output

/-- The files of records in the order of first use. -/
def filesOf (records : List (Nat × Mark)) : List String :=
  (records.map (·.2.file)).eraseDups

/-- The position that was recorded last for a line. -/
def lastRecorded? (records : List (Nat × Mark)) (line : Nat) : Option Mark :=
  records.reverse.lookup line

/-- The segment for a line with a record. -/
def segmentFor? (records : List (Nat × Mark)) (line : Nat) : Option Segment :=
  (lastRecorded? records line).map fun position =>
    { line
      column := 0
      source := (filesOf records).idxOf position.file
      sourceLine := ((max position.line.toNat 1 - 1 : Nat) : Int)
      sourceColumn := 0 }

section Entries

variable {line : Nat} {origin : Origin} {entries : List (Nat × Origin)}

theorem mem_insertEntry {entry : Nat × Origin} (h : entry ∈ insertEntry line origin entries) :
    entry = (line, origin) ∨ entry ∈ entries := by
  fun_induction insertEntry line origin entries with
  | case1 => exact .inl (List.mem_singleton.1 h)
  | case2 other known rest hlt => exact List.mem_cons.1 h
  | case3 known rest => exact (List.mem_cons.1 h).imp_right (List.mem_cons_of_mem _)
  | case4 other known rest hnlt hne ih =>
      rcases List.mem_cons.1 h with rfl | hrest
      · exact .inr List.mem_cons_self
      · exact (ih hrest).imp_right (List.mem_cons_of_mem _)

/-- Entries stay in ascending order. -/
theorem ascending_insertEntry (h : entries.Pairwise fun entry later => entry.1 < later.1) :
    (insertEntry line origin entries).Pairwise fun entry later => entry.1 < later.1 := by
  fun_induction insertEntry line origin entries with
  | case1 => exact List.pairwise_singleton _ _
  | case2 other known rest hlt =>
      obtain ⟨hfirst, _⟩ := List.pairwise_cons.1 h
      refine List.pairwise_cons.2 ⟨List.forall_mem_cons.2 ⟨hlt, fun later hlater => ?_⟩, h⟩
      exact Nat.lt_trans hlt (hfirst later hlater)
  | case3 known rest => exact List.pairwise_cons.2 (List.pairwise_cons.1 h)
  | case4 other known rest hnlt hne ih =>
      obtain ⟨hfirst, hrest⟩ := List.pairwise_cons.1 h
      refine List.pairwise_cons.2 ⟨fun later hlater => ?_, ih hrest⟩
      rcases mem_insertEntry hlater with rfl | hold
      · change other < line
        omega
      · exact hfirst later hold

/-- An entry is put in and all others are left as they are. -/
theorem lookup_insertEntry (other : Nat) :
    (insertEntry line origin entries).lookup other =
      if other = line then some origin else entries.lookup other := by
  fun_induction insertEntry line origin entries with
  | case1 => rw [lookup_cons_if]
  | case2 first known rest hlt => rw [lookup_cons_if]
  | case3 known rest =>
      rw [lookup_cons_if, lookup_cons_if]
      split <;> rfl
  | case4 first known rest hnlt hne ih =>
      rw [lookup_cons_if, lookup_cons_if, ih]
      by_cases h : other = first
      · rw [if_pos h, if_neg fun hline => hne (hline.symm.trans h), if_pos h]
      · rw [if_neg h, if_neg h]

/-- In ascending order, the entries for a line are the one that is found. -/
theorem filter_entries (h : entries.Pairwise fun entry later => entry.1 < later.1) (line : Nat) :
    entries.filter (·.1 = line) = ((entries.lookup line).map (line, ·)).toList := by
  induction entries with
  | nil => rfl
  | cons entry rest ih =>
      obtain ⟨first, origin⟩ := entry
      obtain ⟨hfirst, hrest⟩ := List.pairwise_cons.1 h
      rw [lookup_cons_if]
      by_cases hline : line = first
      · subst hline
        have hnone : rest.filter (·.1 = line) = [] := by
          refine List.filter_eq_nil_iff.2 fun later hlater => ?_
          simpa using Nat.ne_of_gt (hfirst later hlater)
        rw [List.filter_cons_of_pos (by simp), hnone, if_pos rfl]
        rfl
      · rw [List.filter_cons_of_neg (by simpa using fun hsame => hline hsame.symm), if_neg hline, ih hrest]

end Entries

namespace LineMap

/-- What a line map holds after these records. -/
structure Holds (m : LineMap) (records : List (Nat × Mark)) : Prop where
  sources : m.sources = filesOf records
  ascending : m.entries.Pairwise fun entry later => entry.1 < later.1
  entry : ∀ line, m.entries.lookup line = (lastRecorded? records line).map fun position =>
    ⟨m.sources.idxOf position.file, position.line⟩

/-- Recording puts the file into the table, if it is new, and refers to it. -/
theorem record_eq (m : LineMap) (line : Nat) (position : Mark) :
    ∃ sources, sources = (if position.file ∈ m.sources then m.sources else m.sources ++ [position.file]) ∧
      m.record line position =
        ⟨sources, insertEntry line ⟨sources.idxOf position.file, position.line⟩ m.entries⟩ := by
  refine ⟨_, rfl, ?_⟩
  unfold record
  split
  · next source hsource =>
      have hmem : position.file ∈ m.sources := List.isSome_idxOf?.1 (by rw [hsource]; rfl)
      have hindex : m.sources.idxOf position.file = source := by
        rw [List.idxOf_eq_getD_idxOf?, hsource, Option.getD_some]
      rw [if_pos hmem, hindex]
  · next hnone =>
      have hnew : position.file ∉ m.sources := List.idxOf?_eq_none_iff.1 hnone
      have hindex : (m.sources ++ [position.file]).idxOf position.file = m.sources.length := by
        rw [List.idxOf_append, if_neg hnew, List.idxOf_cons_self, Nat.zero_add]
      rw [if_neg hnew, hindex]

theorem filesOf_concat (records : List (Nat × Mark)) (line : Nat) (position : Mark) :
    filesOf (records ++ [(line, position)]) =
      if position.file ∈ filesOf records then filesOf records
      else filesOf records ++ [position.file] := by
  have hmem : position.file ∈ filesOf records ↔ position.file ∈ records.map (·.2.file) :=
    List.mem_eraseDups
  rw [filesOf, List.map_append, List.eraseDups_append, List.map_singleton]
  by_cases h : position.file ∈ filesOf records
  · rw [if_pos h]
    have hnone : [position.file].removeAll (records.map (·.2.file)) = [] := by
      simpa [List.removeAll] using hmem.1 h
    rw [hnone]
    exact List.append_nil _
  · rw [if_neg h]
    have hone : [position.file].removeAll (records.map (·.2.file)) = [position.file] := by
      simpa [List.removeAll] using fun hold => h (hmem.2 hold)
    rw [hone]
    rfl

theorem lastRecorded?_concat (records : List (Nat × Mark)) (line : Nat) (position : Mark) (other : Nat) :
    lastRecorded? (records ++ [(line, position)]) other =
      if other = line then some position else lastRecorded? records other := by
  rw [lastRecorded?, List.reverse_append, List.reverse_singleton, List.singleton_append, lookup_cons_if]
  rfl

/-- The file of what was recorded is in the table. -/
theorem file_mem_filesOf {records : List (Nat × Mark)} {line : Nat} {position : Mark}
    (h : lastRecorded? records line = some position) : position.file ∈ filesOf records := by
  obtain ⟨front, back, hrecords, _⟩ := List.lookup_eq_some_iff.1 h
  have hmem : (line, position) ∈ records := by
    rw [← List.mem_reverse, hrecords]
    simp
  exact List.mem_eraseDups.2 (List.mem_map_of_mem (f := fun r : Nat × Mark => r.2.file) hmem)

/-- One record more. -/
theorem Holds.record {m : LineMap} {records : List (Nat × Mark)} (h : m.Holds records) (line : Nat)
    (position : Mark) : (m.record line position).Holds (records ++ [(line, position)]) := by
  obtain ⟨sources, hsources, hrecord⟩ := m.record_eq line position
  have hfiles : sources = filesOf (records ++ [(line, position)]) := by
    rw [hsources, h.sources, filesOf_concat]
  rw [hrecord]
  refine ⟨hfiles, ascending_insertEntry h.ascending, fun other => ?_⟩
  rw [lookup_insertEntry, lastRecorded?_concat]
  by_cases hline : other = line
  · rw [if_pos hline, if_pos hline]
    rfl
  · rw [if_neg hline, if_neg hline, h.entry]
    cases hlast : lastRecorded? records other with
    | none => rfl
    | some known =>
        -- An index stays right, since a new file comes to the end of the table.
        have hmem : known.file ∈ m.sources := h.sources ▸ file_mem_filesOf hlast
        have hindex : sources.idxOf known.file = m.sources.idxOf known.file := by
          rw [hsources]
          split
          · rfl
          · exact List.idxOf_append_of_mem hmem
        rw [Option.map_some, Option.map_some, hindex]

theorem holds_ofMarks (records : List (Nat × Mark)) : (ofMarks records).Holds records := by
  suffices h : ∀ (front : List (Nat × Mark)) (m : LineMap), m.Holds front →
      (records.foldl (fun m record => m.record record.1 record.2) m).Holds (front ++ records) from
    h [] empty ⟨rfl, .nil, fun _ => rfl⟩
  induction records with
  | nil =>
      intro front m hm
      rwa [List.append_nil]
  | cons record rest ih =>
      intro front m hm
      rw [← List.singleton_append, ← List.append_assoc]
      exact ih _ _ (hm.record record.1 record.2)

end LineMap

/-- Whatever was recorded, in any order: the table of files names each once in
the order of first use, and the mappings read as segments in ascending order of
lines, one for each line with a record, at its start and for what was recorded
for it last, and none for any other line. -/
theorem decodeMappings_records (records : List (Nat × Mark)) :
    (LineMap.ofMarks records).sources = filesOf records ∧
    ∃ segments, decodeMappings (LineMap.ofMarks records).mappings = some segments ∧
      segments.Pairwise (fun segment later => segment.line < later.line) ∧
      ∀ line, segments.filter (·.line = line) = (segmentFor? records line).toList := by
  have hholds := LineMap.holds_ofMarks records
  refine ⟨hholds.sources, _, decodeMappings_mappings hholds.ascending, ?_, fun line => ?_⟩
  · exact List.pairwise_map.2 hholds.ascending
  · have hline : (fun entry : Nat × Origin => decide ((LineMap.segmentOf entry).line = line)) =
        fun entry => decide (entry.1 = line) := rfl
    rw [List.filter_map, Function.comp_def, hline, filter_entries hholds.ascending, hholds.entry,
      segmentFor?, ← hholds.sources]
    cases lastRecorded? records line with
    | none => rfl
    | some position =>
        have hzero : position.line.toNat - 1 = max position.line.toNat 1 - 1 := by omega
        simp [LineMap.segmentOf, LineMap.zeroBased, hzero]

/-- Two lines of one file, recorded in the other order and one of them twice. -/
def repeatedRecords : List (Nat × Mark) :=
  [(3, ⟨"A.java", 7⟩), (1, ⟨"A.java", 10⟩), (3, ⟨"A.java", 12⟩)]

/-- The file table of these records, the text of their mappings, and what it
reads as. -/
theorem decodeMappings_repeated :
    (LineMap.ofMarks repeatedRecords).sources = ["A.java"] ∧
    (LineMap.ofMarks repeatedRecords).mappings = ";AASA;;AAEA" ∧
    decodeMappings ";AASA;;AAEA" = some [⟨1, 0, 0, 9, 0⟩, ⟨3, 0, 0, 11, 0⟩] ∧
    ∃ segments, decodeMappings (LineMap.ofMarks repeatedRecords).mappings = some segments ∧
      segments.filter (·.line = 1) = [⟨1, 0, 0, 9, 0⟩] ∧
      segments.filter (·.line = 2) = [] ∧
      segments.filter (·.line = 3) = [⟨3, 0, 0, 11, 0⟩] := by
  obtain ⟨hsources, segments, hread, _, hlines⟩ := decodeMappings_records repeatedRecords
  refine ⟨hsources.trans (by decide), by decide +kernel, by decide +kernel, segments, hread, ?_, ?_, ?_⟩
  · exact (hlines 1).trans (by decide)
  · exact (hlines 2).trans (by decide)
  · exact (hlines 3).trans (by decide)

/-- Two files, and a line zero. -/
example : (LineMap.ofMarks [(4, ⟨"B.java", 40⟩), (1, ⟨"A.java", 0⟩)]).mappings = ";ACAA;;;ADuCA" ∧
    decodeMappings ";ACAA;;;ADuCA" = some [⟨1, 0, 1, 0, 0⟩, ⟨4, 0, 0, 39, 0⟩] := by
  decide +kernel

end ClassScript.Output
