import ClassScript.Proofs.LineShift

/-!
Documents that differ by one line. A line that is put in where no mark waits for
one leaves all before it as it is and moves all behind it one line further down,
and the line map says of the moved lines what it said of them before.
-/

namespace ClassScript.Output

/-- No mark of the document waits for a line. -/
def Doc.Ended (d : Doc) : Prop :=
  leftover none (d.entriesAt 0) = none

theorem Doc.ended_of_no_marks {d : Doc} (h : d.marks = []) : d.Ended :=
  (firstLines_of_no_marks ((d.mark_entriesAt 0).trans h) 0).2

theorem Doc.Ended.append {d e : Doc} (hd : d.Ended) (he : e.Ended) : (d ++ e).Ended := by
  rw [Ended, entriesAt_append, leftover_append, hd]
  exact he

/-- The line, or the one after it if it is not before the first of these. -/
def pushed (first line : Nat) : Nat :=
  if line < first then line else line + 1

theorem strictMono_pushed (first : Nat) : StrictMono (pushed first) := by
  intro line later hlt
  unfold pushed
  split <;> split <;> omega

section Marks

theorem lineCount_pos_of_leftover {m : Mark} {entries : List Entry}
    (h : leftover (some m) entries = none) : 0 < lineCount entries := by
  induction entries generalizing m with
  | nil => cases h
  | cons entry rest ih =>
      cases entry with
      | text indent text => exact Nat.succ_pos _
      | mark m' =>
          have hrest : leftover (some m') rest = none := h
          exact ih hrest

/-- Marks that wait for no line lie before the last line. -/
theorem lt_of_mem_marksFrom {pending : Option Mark} {line : Nat} {entries : List Entry}
    (h : leftover pending entries = none) {place : Nat × Mark}
    (hplace : place ∈ marksFrom line entries) : place.1 < line + lineCount entries := by
  induction entries generalizing pending line with
  | nil => cases hplace
  | cons entry rest ih =>
      cases entry with
      | text indent text =>
          have hrest : leftover none rest = none := h
          have hlater := ih hrest hplace
          rw [lineCount_text]
          omega
      | mark m =>
          have hrest : leftover (some m) rest = none := h
          rcases List.mem_cons.1 hplace with rfl | hlater
          · have hline : 0 < lineCount rest := lineCount_pos_of_leftover hrest
            exact Nat.lt_add_of_pos_right hline
          · exact ih hrest hlater

theorem le_of_mem_marksFrom {line : Nat} {entries : List Entry} {place : Nat × Mark}
    (h : place ∈ marksFrom line entries) : line ≤ place.1 := by
  induction entries generalizing line with
  | nil => cases h
  | cons entry rest ih =>
      cases entry with
      | text indent text => exact Nat.le_of_succ_le (ih h)
      | mark m =>
          rcases List.mem_cons.1 h with rfl | hlater
          · exact Nat.le_refl _
          · exact ih hlater

/-- Of the marks around a line, those behind it are pushed down by it. -/
theorem marksFrom_inserted {front : List Entry} (h : leftover none front = none) (indent : Nat)
    (text : String) (back : List Entry) :
    marksFrom 0 (front ++ .text indent text :: back) =
      (marksFrom 0 (front ++ back)).map (moved (pushed (lineCount front))) := by
  have hfront : (marksFrom 0 front).map (moved (pushed (lineCount front))) = marksFrom 0 front := by
    refine (List.map_congr_left fun place hplace => ?_).trans (List.map_id _)
    have hlt : place.1 < lineCount front := by simpa using lt_of_mem_marksFrom h hplace
    rw [moved, pushed, if_pos hlt]
    rfl
  have hback : (marksFrom (lineCount front) back).map (moved (pushed (lineCount front))) =
      marksFrom (lineCount front + 1) back := by
    rw [marksFrom_add]
    apply List.map_congr_left
    intro place hplace
    rw [moved, pushed, if_neg (Nat.not_lt.2 (le_of_mem_marksFrom hplace))]
    rfl
  rw [marksFrom_append, marksFrom_append, List.map_append, hfront, Nat.zero_add, hback]
  rfl

end Marks

/-- The first document has one line more than the second, right before a part that
both have. -/
def Inserted (line : String) (part d e : Doc) : Prop :=
  ∃ front back : Doc, front.Ended ∧
    d.entriesAt 0 = (front ++ (.line line ++ part) ++ back).entriesAt 0 ∧
    e.entriesAt 0 = (front ++ part ++ back).entriesAt 0

namespace Inserted

variable {line : String} {part d e : Doc}

theorem here (line : String) (part : Doc) : Inserted line part (.line line ++ part) part :=
  ⟨.empty, .empty, rfl, (List.append_nil _).symm, (List.append_nil _).symm⟩

theorem after {first : Doc} (hfirst : first.Ended) (h : Inserted line part d e) :
    Inserted line part (first ++ d) (first ++ e) := by
  obtain ⟨front, back, hfront, hd, he⟩ := h
  refine ⟨first ++ front, back, hfirst.append hfront, ?_, ?_⟩
  · simp only [Doc.entriesAt_append, hd, List.append_assoc]
  · simp only [Doc.entriesAt_append, he, List.append_assoc]

theorem before (h : Inserted line part d e) (last : Doc) :
    Inserted line part (d ++ last) (e ++ last) := by
  obtain ⟨front, back, hfront, hd, he⟩ := h
  refine ⟨front, back ++ last, hfront, ?_, ?_⟩
  · simp only [Doc.entriesAt_append, hd, List.append_assoc]
  · simp only [Doc.entriesAt_append, he, List.append_assoc]

theorem splice (h : Inserted line part d e) : Inserted line part (.splice d) (.splice e) := h

/-- The texts are the same around the line, which starts behind a newline, and the
marks behind it are pushed down by it. -/
theorem exists_text (h : Inserted line part d e) (hline : '\n' ∉ line.toList) :
    ∃ front back, (Text.lines front.toList).getLast? = some [] ∧
      d.text = front ++ (line ++ "\n") ++ part.text ++ back ∧
      e.text = front ++ part.text ++ back ∧
      (d.write .empty).marks =
        (e.write .empty).marks.map (moved (pushed (front.toList.count '\n'))) := by
  obtain ⟨front, back, hfront, hd, he⟩ := h
  have hlast : line.toList.getLast? ≠ some '\n' := fun hlast => hline (List.mem_of_getLast? hlast)
  have hentries : (Doc.line line).entriesAt 0 = [.text 0 line] := by
    rw [Doc.entriesAt, textEntries, Text.dropFinalNewline, if_neg hlast, Text.lines_single hline]
    simp
  refine ⟨front.text, back.text, ?_, ?_, ?_, ?_⟩
  · rw [Doc.lines_text, List.getLast?_concat]
  · rw [Doc.text_eq d, hd, ← Doc.text_eq, Doc.text_append, Doc.text_append, Doc.text_append,
      Doc.text_line hlast]
    simp only [String.append_assoc]
  · rw [Doc.text_eq e, he, ← Doc.text_eq, Doc.text_append, Doc.text_append]
  · rw [Doc.write_eq, Doc.write_eq, Writer.marks, Writer.marks, ← lineCount_entriesAt]
    change marksFrom 0 (d.entriesAt 0) = (marksFrom 0 (e.entriesAt 0)).map _
    rw [hd, he]
    simp only [Doc.entriesAt_append, hentries, List.append_assoc, List.singleton_append]
    exact marksFrom_inserted hfront 0 line _

end Inserted

end ClassScript.Output
