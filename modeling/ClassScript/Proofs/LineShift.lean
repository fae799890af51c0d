import ClassScript.Proofs.DocText
import ClassScript.Proofs.LineMapRecords
import ClassScript.Proofs.MarkPlacement
import Mathlib.Order.Monotone.Basic

/-!
Line maps of output whose lines have moved but not changed places. Marks on moved
lines give the entries of the line map on these lines, and it decodes to the same
segments there.
-/

namespace ClassScript

/-- There is one piece more than there are newlines. -/
theorem Text.length_lines (text : List Char) : (lines text).length = text.count '\n' + 1 := by
  induction text with
  | nil => rfl
  | cons c rest ih =>
      rw [lines]
      split
      · next h => rw [List.length_cons, ih, h, List.count_cons_self]
      · next h =>
          rw [List.count_cons_of_ne h, ← ih]
          cases hrest : lines rest with
          | nil => exact absurd hrest (lines_ne_nil rest)
          | cons line others => rfl

namespace Output

/-- Entries have as many lines as there are newlines in what is rendered of them. -/
theorem lineCount_eq_count {entries : List Entry}
    (h : ∀ line ∈ entries.filterMap Entry.line?, '\n' ∉ line.2.toList) :
    lineCount entries = (String.join (entries.map Entry.render)).toList.count '\n' := by
  have hlines := Text.length_lines (String.join (entries.map Entry.render)).toList
  rw [Doc.lines_render h, List.length_append, List.length_map] at hlines
  exact Nat.succ.inj hlines

/-- A document has as many lines as its text has newlines. -/
theorem lineCount_entriesAt (d : Doc) : lineCount (d.entriesAt 0) = d.text.toList.count '\n' := by
  rw [Doc.text_eq]
  exact lineCount_eq_count fun _ hline => Doc.oneLine_of_mem_linesAt (Doc.linesAt_eq 0 d ▸ hline)

/-- What belongs to a line, with the line moved. -/
def moved {α : Type} (f : Nat → Nat) (placed : Nat × α) : Nat × α :=
  (f placed.1, placed.2)

def Segment.moved (f : Nat → Nat) (segment : Segment) : Segment :=
  { segment with line := f segment.line }

def LineMap.moved (f : Nat → Nat) (m : LineMap) : LineMap :=
  { m with entries := m.entries.map (Output.moved f) }

theorem LineMap.sources_moved (f : Nat → Nat) (m : LineMap) : (m.moved f).sources = m.sources := rfl

/-- What belongs to a line, so many lines further down. -/
def below {α : Type} (lines : Nat) (placed : Nat × α) : Nat × α :=
  (placed.1 + lines, placed.2)

def Segment.below (lines : Nat) (segment : Segment) : Segment :=
  { segment with line := segment.line + lines }

section Marks

variable {entries : List Entry}

theorem marksFrom_append (line : Nat) (entries others : List Entry) :
    marksFrom line (entries ++ others) =
      marksFrom line entries ++ marksFrom (line + lineCount entries) others := by
  induction entries generalizing line with
  | nil => rfl
  | cons entry rest ih =>
      cases entry with
      | text indent text =>
          rw [List.cons_append, marksFrom, ih, marksFrom, lineCount_text, Nat.add_assoc, Nat.add_comm 1]
      | mark m => rw [List.cons_append, marksFrom, ih, marksFrom, lineCount_mark, List.cons_append]

theorem marksFrom_of_no_marks (h : entries.filterMap Entry.mark? = []) (line : Nat) :
    marksFrom line entries = [] := by
  rw [← marksFrom_eq line] at h
  exact List.map_eq_nil_iff.1 h

theorem marksFrom_add (line lines : Nat) (entries : List Entry) :
    marksFrom (line + lines) entries = (marksFrom line entries).map (below lines) := by
  induction entries generalizing line with
  | nil => rfl
  | cons entry rest ih =>
      cases entry with
      | text indent text => rw [marksFrom, marksFrom, Nat.add_right_comm, ih]
      | mark m =>
          rw [marksFrom, marksFrom, List.map_cons, ih]
          rfl

end Marks

section Moves

variable {f : Nat → Nat} (hf : StrictMono f)

include hf

/-- Lines that keep their order keep the places of their entries. -/
theorem insertEntry_moved (line : Nat) (origin : Origin) (entries : List (Nat × Origin)) :
    insertEntry (f line) origin (entries.map (moved f)) =
      (insertEntry line origin entries).map (moved f) := by
  induction entries with
  | nil => rfl
  | cons entry rest ih =>
      obtain ⟨other, known⟩ := entry
      rw [List.map_cons, moved, insertEntry, insertEntry, ih]
      simp only [hf.lt_iff_lt, hf.injective.eq_iff]
      split
      · rfl
      · split
        · rfl
        · rfl

theorem record_moved (m : LineMap) (line : Nat) (position : Mark) :
    (m.moved f).record (f line) position = (m.record line position).moved f := by
  unfold LineMap.record LineMap.moved
  cases m.sources.idxOf? position.file with
  | some source => exact congrArg (LineMap.mk _) (insertEntry_moved hf line _ m.entries)
  | none => exact congrArg (LineMap.mk _) (insertEntry_moved hf line _ m.entries)

/-- The map of marks on moved lines. -/
theorem ofMarks_moved (marks : List (Nat × Mark)) :
    LineMap.ofMarks (marks.map (moved f)) = (LineMap.ofMarks marks).moved f := by
  suffices h : ∀ m : LineMap,
      (marks.map (moved f)).foldl (fun m mark => m.record mark.1 mark.2) (m.moved f) =
        (marks.foldl (fun m mark => m.record mark.1 mark.2) m).moved f from
    h .empty
  induction marks with
  | nil => exact fun _ => rfl
  | cons record rest ih =>
      intro m
      change (rest.map (moved f)).foldl _ ((m.moved f).record (f record.1) record.2) = _
      rw [record_moved hf]
      exact ih _

/-- Moved, a map decodes to the same segments on the moved lines. -/
theorem decodeMappings_moved (marks : List (Nat × Mark)) :
    ∃ segments, decodeMappings (LineMap.ofMarks marks).mappings = some segments ∧
      decodeMappings ((LineMap.ofMarks marks).moved f).mappings =
        some (segments.map (Segment.moved f)) := by
  have hascending := (LineMap.holds_ofMarks marks).ascending
  have hmoved : ((LineMap.ofMarks marks).moved f).entries.Pairwise
      fun entry later => entry.1 < later.1 :=
    List.pairwise_map.2 (hascending.imp fun hlt => hf hlt)
  refine ⟨_, decodeMappings_mappings hascending, ?_⟩
  rw [decodeMappings_mappings hmoved, LineMap.moved, List.map_map, List.map_map]
  rfl

end Moves

theorem strictMono_below (lines : Nat) : StrictMono (· + lines) :=
  fun _ _ hlt => Nat.add_lt_add_right hlt lines

end Output

end ClassScript
