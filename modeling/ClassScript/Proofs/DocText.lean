import ClassScript.Proofs.DocLines

/-!
The text of a document. It comes from the lines alone, so marks leave no trace
in it, and cut at newlines it gives these lines back. At the outermost level
texts simply follow one another.
-/

namespace ClassScript.Output

/-- Ending every piece of a text with a newline ends the text with one. -/
theorem flatMap_lines (text : List Char) :
    (Text.lines text).flatMap (· ++ ['\n']) = text ++ ['\n'] := by
  induction text with
  | nil => rfl
  | cons c rest ih =>
      rw [Text.lines]
      split
      · next hnewline => rw [List.flatMap_cons, ih, hnewline]; rfl
      · -- The first piece of the rest gets the character in front.
        cases hrest : Text.lines rest with
        | nil => exact absurd hrest (Text.lines_ne_nil rest)
        | cons line others =>
            rw [hrest, List.flatMap_cons] at ih
            rw [List.flatMap_cons, List.cons_append, List.cons_append, ih, List.cons_append]

theorem Entry.render_outermost (line : String) : (Entry.text 0 line).render = line ++ "\n" := by
  rw [Entry.render]
  split
  · next hempty =>
      rw [String.isEmpty_iff.1 hempty]
      rfl
  · rw [List.replicate_zero, String.ofList_nil, String.empty_append]

/-- What is seen of a line at its level. Empty lines are not indented. -/
def shownLine (line : Nat × String) : List Char :=
  if line.2.isEmpty then [] else List.replicate line.1 '\t' ++ line.2.toList

theorem shownLine_outermost (line : String) : shownLine (0, line) = line.toList := by
  rw [shownLine]
  split
  · next hempty =>
      obtain rfl : line = "" := String.isEmpty_iff.1 hempty
      rfl
  · rfl

theorem toList_render (line : Nat × String) :
    (Entry.text line.1 line.2).render.toList = shownLine line ++ ['\n'] := by
  rw [Entry.render, shownLine]
  split
  · rfl
  · rw [String.toList_append, String.toList_append, String.toList_ofList]
    rfl

theorem newline_not_mem_shownLine {line : Nat × String} (h : '\n' ∉ line.2.toList) :
    '\n' ∉ shownLine line := by
  rw [shownLine]
  split
  · exact List.not_mem_nil
  · intro hmem
    rcases List.mem_append.1 hmem with hindent | hline
    · cases (List.mem_replicate.1 hindent).2
    · exact h hline

namespace Doc

theorem text_eq (d : Doc) : d.text = String.join ((d.entriesAt 0).map Entry.render) := by
  rw [text, write_eq, Writer.text]
  rfl

/-- Marks have no text. -/
theorem render_lines (entries : List Entry) :
    String.join (entries.map Entry.render) =
      String.join ((entries.filterMap Entry.line?).map fun line => (Entry.text line.1 line.2).render) := by
  induction entries with
  | nil => rfl
  | cons entry rest ih =>
      cases entry with
      | text indent line =>
          rw [List.map_cons, String.join_cons, ih, List.filterMap_cons]
          exact String.join_cons.symm
      | mark m =>
          rw [List.map_cons, String.join_cons, Entry.render, String.empty_append, ih]
          rfl

theorem text_eq_of_lines {d e : Doc} (h : d.linesAt 0 = e.linesAt 0) : d.text = e.text := by
  rw [text_eq, text_eq, render_lines, render_lines, ← linesAt_eq, ← linesAt_eq, h]

/-- Cut at newlines, what is rendered gives its lines, and nothing stands behind the
last of them. -/
theorem lines_render {entries : List Entry}
    (h : ∀ line ∈ entries.filterMap Entry.line?, '\n' ∉ line.2.toList) :
    Text.lines (String.join (entries.map Entry.render)).toList =
      (entries.filterMap Entry.line?).map shownLine ++ [[]] := by
  rw [render_lines]
  generalize entries.filterMap Entry.line? = lines at h
  induction lines with
  | nil => rfl
  | cons line rest ih =>
      obtain ⟨hline, hrest⟩ := List.forall_mem_cons.1 h
      rw [List.map_cons, String.join_cons, String.toList_append, toList_render, List.append_assoc,
        List.singleton_append, Text.lines_append (newline_not_mem_shownLine hline), ih hrest]
      rfl

/-- So does the text of a document. -/
theorem lines_text (d : Doc) : Text.lines d.text.toList = (d.linesAt 0).map shownLine ++ [[]] := by
  rw [text_eq, linesAt_eq]
  exact lines_render fun _ hline => oneLine_of_mem_linesAt (linesAt_eq 0 d ▸ hline)

@[simp]
theorem text_append (d e : Doc) : (d ++ e).text = d.text ++ e.text := by
  simp only [text_eq, entriesAt_append, List.map_append, String.join_append]

@[simp]
theorem text_empty : Doc.empty.text = "" := rfl

/-- A text ends as what stands at its end. -/
theorem getLast?_append {suffix : String} {c : Char} (text : String)
    (h : suffix.toList.getLast? = some c) : (text ++ suffix).toList.getLast? = some c := by
  rw [String.toList_append, List.getLast?_append, h]
  rfl

/-- The pieces of a text are all ended by newlines, the last one once. -/
theorem toList_text_line (text : String) :
    (Doc.line text).text.toList = Text.dropFinalNewline text.toList ++ ['\n'] := by
  rw [text_eq, entriesAt, textEntries, List.map_map]
  simp only [Function.comp_def, Entry.render_outermost]
  rw [String.toList_join, List.flatMap_map]
  simp only [String.toList_append, String.toList_ofList]
  exact flatMap_lines _

/-- Text that does not end with a newline gets one. -/
theorem text_line {text : String} (h : text.toList.getLast? ≠ some '\n') :
    (Doc.line text).text = text ++ "\n" := by
  apply String.toList_injective
  rw [toList_text_line, Text.dropFinalNewline, if_neg h, String.toList_append]
  rfl

/-- Text that ends with a newline stays as it is. -/
theorem text_line_of_newline {text : String} (h : text.toList.getLast? = some '\n') :
    (Doc.line text).text = text := by
  apply String.toList_injective
  rw [toList_text_line, Text.dropFinalNewline, if_pos h]
  exact List.dropLast_append_getLast? _ h

/-- The same for a text by what stands at its end. -/
theorem text_line_append {suffix : String} {c : Char} (text : String)
    (h : suffix.toList.getLast? = some c) (hc : c ≠ '\n') :
    (Doc.line (text ++ suffix)).text = text ++ (suffix ++ "\n") := by
  rw [text_line, String.append_assoc]
  rw [getLast?_append text h]
  simpa using hc

theorem text_concat (docs : List Doc) : (Doc.concat docs).text = String.join (docs.map Doc.text) := by
  induction docs with
  | nil => rfl
  | cons d rest ih => rw [concat, text_append, ih, List.map_cons, String.join_cons]

end Doc

end ClassScript.Output
