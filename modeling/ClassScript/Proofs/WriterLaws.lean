import ClassScript.Proofs.LineShift

/-!
What writing comes to, whatever writer it starts with. A document adds the same lines
and marks wherever it is written, so that it may as well be written apart and added
then. What has been written stays; a mark gets the number of newlines before it, which
is the number of the next line.
-/

namespace ClassScript.Output

namespace Writer

/-- The writers that steps come to. The body of a block gets one that is a level deeper,
and behind the block the level is left. -/
inductive Reached : Writer → Prop where
  | empty : Reached .empty
  | write {w : Writer} (h : Reached w) (d : Doc) : Reached (d.write w)
  | enter {level : Nat} {entries : List Entry} (h : Reached ⟨level, entries⟩) :
      Reached ⟨level + 1, entries⟩
  | leave {level : Nat} {entries : List Entry} (h : Reached ⟨level + 1, entries⟩) :
      Reached ⟨level, entries⟩

section Reaching

variable {entries : List Entry} {level : Nat}

/-- Every entry of these writers is one line or a mark. -/
theorem Reached.oneLine {w : Writer} (h : w.Reached) :
    ∀ line ∈ w.entries.filterMap Entry.line?, '\n' ∉ line.2.toList := by
  induction h with
  | empty => simp [Writer.empty]
  | write _ d ih =>
      rw [d.write_eq, List.filterMap_append, ← Doc.linesAt_eq]
      exact List.forall_mem_append.2 ⟨ih, fun _ hline => Doc.oneLine_of_mem_linesAt hline⟩
  | enter _ ih => exact ih
  | leave _ ih => exact ih

theorem Reached.at_level (h : Reached ⟨level, entries⟩) (other : Nat) :
    Reached ⟨other, entries⟩ := by
  have hbottom : Reached ⟨0, entries⟩ := by
    induction level with
    | zero => exact h
    | succ level ih => exact ih h.leave
  induction other with
  | zero => exact hbottom
  | succ other ih => exact ih.enter

/-- And all such writers can be come to. -/
theorem reached_of_oneLine (h : ∀ line ∈ entries.filterMap Entry.line?, '\n' ∉ line.2.toList)
    (level : Nat) : Reached ⟨level, entries⟩ := by
  induction entries using List.reverseRecOn with
  | nil => exact Reached.empty.at_level level
  | append_singleton front entry ih =>
      rw [List.filterMap_append, List.forall_mem_append] at h
      cases entry with
      | text indent line =>
          have hwritten := ((ih h.1).at_level indent).write (.line line)
          have hopen : '\n' ∉ line.toList := h.2 (indent, line) (by simp [Entry.line?])
          rw [Doc.write_eq, Doc.entriesAt, textEntries_single indent hopen] at hwritten
          exact hwritten.at_level level
      | mark m => exact (ih h.1).write (.mark m)

end Reaching

/-- Where a mark stands in what a writer has: between these entries, with the number of
newlines before it, which is the number of the next line. -/
structure Places (w : Writer) (front : List Entry) (m : Mark) (back : List Entry) : Prop where
  number : ∃ earlier later,
    w.marks = earlier ++ ((Writer.mk 0 front).text.toList.count '\n', m) :: later ∧
      earlier.map Prod.snd = front.filterMap Entry.mark? ∧
      later.map Prod.snd = back.filterMap Entry.mark?
  next : ∀ line ∈ (back.filterMap Entry.line?).head?,
    (Text.lines w.text.toList)[(Writer.mk 0 front).text.toList.count '\n']? = some (shownLine line)

section Marks

variable {w : Writer} {front back : List Entry} {m : Mark}

theorem places_of_split (h : w.Reached) (hsplit : w.entries = front ++ .mark m :: back) :
    w.Places front m back := by
  have honeLine := h.oneLine
  rw [hsplit, List.filterMap_append, List.forall_mem_append] at honeLine
  have hcount : (Writer.mk 0 front).text.toList.count '\n' = lineCount front :=
    (lineCount_eq_count honeLine.1).symm
  refine ⟨⟨marksFrom 0 front, marksFrom (lineCount front) back, ?_, marksFrom_eq _ _,
    marksFrom_eq _ _⟩, fun line hline => ?_⟩
  · rw [Writer.marks, hsplit, marksFrom_append, Nat.zero_add, hcount]
    rfl
  · obtain ⟨rest, hrest⟩ := List.head?_eq_some_iff.1 hline
    have hlines : w.entries.filterMap Entry.line? =
        front.filterMap Entry.line? ++ line :: rest := by
      rw [hsplit, List.filterMap_append, ← hrest]
      rfl
    rw [Writer.text, Doc.lines_render h.oneLine, hlines, hcount, lineCount, List.map_append,
      List.append_assoc, List.getElem?_append_right (by simp)]
    simp

end Marks

end Writer

/-- Marks are numbered upwards. -/
theorem marksFrom_ascending (line : Nat) (entries : List Entry) :
    (marksFrom line entries).Pairwise (fun place later => place.1 ≤ later.1) ∧
      ∀ place ∈ marksFrom line entries, line ≤ place.1 := by
  induction entries generalizing line with
  | nil => exact ⟨.nil, by simp [marksFrom]⟩
  | cons entry rest ih =>
      cases entry with
      | text indent text =>
          obtain ⟨hrest, hlater⟩ := ih (line + 1)
          exact ⟨hrest, fun place h => Nat.le_of_succ_le (hlater place h)⟩
      | mark m =>
          obtain ⟨hrest, hlater⟩ := ih line
          exact ⟨List.pairwise_cons.2 ⟨hlater, hrest⟩,
            List.forall_mem_cons.2 ⟨Nat.le_refl _, hlater⟩⟩

namespace Doc

section Writing

variable {w : Writer} (d : Doc)

/-- A document that is written apart and then added is written in place. -/
theorem append_write (w : Writer) : w.append (d.write .empty) = d.write w := by
  change (Doc.splice d).write w = d.write w
  rw [write_eq, write_eq, entriesAt]

/-- Its text comes behind that of the writer. -/
theorem text_write (w : Writer) : (d.write w).text = w.text ++ (d.write ⟨w.indent, []⟩).text := by
  rw [write_eq, write_eq, List.nil_append]
  simp only [Writer.text, List.map_append, String.join_append]

/-- And so do its marks, as many lines further down as there are newlines before. -/
theorem marks_write_reached (h : w.Reached) :
    (d.write w).marks = w.marks ++
      (d.write ⟨w.indent, []⟩).marks.map (below (w.text.toList.count '\n')) := by
  rw [write_eq, write_eq, List.nil_append, Writer.marks, marksFrom_append, Nat.zero_add,
    lineCount_eq_count h.oneLine, ← Nat.zero_add (List.count _ _), marksFrom_add]
  rfl

end Writing

end Doc

/-- Over all documents and all writers: writing a document apart and adding it is
writing it in place, and its text and marks come behind those that are there. For
writers that steps come to, each mark has the number of newlines before it and means
the next line, so that marks are in ascending order. At the outermost level a text is
written as it is, but for a newline where it has none at its end. -/
theorem write_homomorphic (d : Doc) (w : Writer) :
    w.append (d.write .empty) = d.write w ∧
    (d.write w).text = w.text ++ (d.write ⟨w.indent, []⟩).text ∧
    (w.Reached →
      (d.write w).marks = w.marks ++
        (d.write ⟨w.indent, []⟩).marks.map (below (w.text.toList.count '\n')) ∧
      (∀ front m back, (d.write w).entries = front ++ .mark m :: back →
        (d.write w).Places front m back) ∧
      (d.write w).marks.Pairwise fun place later => place.1 ≤ later.1) ∧
    (w.indent = 0 → ∀ text, (w.line text).text =
      w.text ++ if text.toList.getLast? = some '\n' then text else text ++ "\n") := by
  refine ⟨d.append_write w, d.text_write w, fun hw => ⟨d.marks_write_reached hw, ?_, ?_⟩,
    fun hlevel text => ?_⟩
  · exact fun front m back hsplit => Writer.places_of_split (hw.write d) hsplit
  · exact (marksFrom_ascending 0 _).1
  · have hline : (w.line text).text = w.text ++ (Doc.line text).text := by
      have happend := (Doc.line text).text_write w
      rwa [hlevel] at happend
    rw [hline]
    split
    · next hended => rw [Doc.text_line_of_newline hended]
    · next hopen => rw [Doc.text_line hopen]

/-- A mark inside a block that is written apart. -/
theorem write_homomorphic_nested :
    let m : Mark := ⟨"A.java", 3⟩
    let d : Doc := .block "\x7b" (.splice (.line "a();" ++ .mark m ++ .line "b();")) ""
    let w : Writer := ⟨0, [.text 0 "head();"]⟩
    w.Reached ∧ w.indent = 0 ∧ (d.write w).marks = [(3, m)] ∧
      (Text.lines (d.write w).text.toList)[3]? = some "\tb();".toList ∧
      (w.line "\n").text = "head();\n\n" := by
  intro m d w
  have hw : w.Reached := Writer.reached_of_oneLine (by simp [Entry.line?]) 0
  obtain ⟨-, -, hmarks, hline⟩ := write_homomorphic d w
  obtain ⟨hafter, hplaces, -⟩ := hmarks hw
  have hplace := hplaces [.text 0 "head();", .text 0 "\x7b \x7b", .text 1 "a();"] m
    [.text 1 "b();", .text 0 "\x7d"] (by decide)
  exact ⟨hw, rfl, hafter.trans (by decide), hplace.next (1, "b();") rfl, hline rfl "\n"⟩

end ClassScript.Output
