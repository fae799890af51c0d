import ClassScript.Output.Doc
import Mathlib.Data.List.Basic

/-!
What writing a document adds: its entries at a level of indentation, no matter
what has been written before. From the entries come the lines, which a part
keeps deeper than the line around it, and the marks in the order of the
document. A document that stands in another one has its lines there.
-/

namespace ClassScript.Text

/-- No piece has a newline in it. -/
theorem newline_not_mem_of_mem_lines {text piece : List Char} (h : piece ∈ lines text) :
    '\n' ∉ piece := by
  induction text generalizing piece with
  | nil =>
      rw [List.mem_singleton.1 h]
      exact List.not_mem_nil
  | cons c rest ih =>
      rw [lines] at h
      split at h
      · rcases List.mem_cons.1 h with rfl | hrest
        · exact List.not_mem_nil
        · exact ih hrest
      · next hc =>
          cases hlines : lines rest with
          | nil => exact absurd hlines (lines_ne_nil rest)
          | cons line others =>
              rw [hlines] at h ih
              rcases List.mem_cons.1 h with rfl | hothers
              · exact List.not_mem_cons_of_ne_of_not_mem (Ne.symm hc) (ih List.mem_cons_self)
              · exact ih (List.mem_cons_of_mem _ hothers)

/-- A piece that ends with a newline comes first. -/
theorem lines_append {piece : List Char} (h : '\n' ∉ piece) (rest : List Char) :
    lines (piece ++ '\n' :: rest) = piece :: lines rest := by
  induction piece with
  | nil => rfl
  | cons c piece ih =>
      have hc : c ≠ '\n' := (List.ne_of_not_mem_cons h).symm
      rw [List.cons_append, lines, if_neg hc, ih (List.not_mem_of_not_mem_cons h)]

theorem lines_single {text : List Char} (h : '\n' ∉ text) : lines text = [text] := by
  induction text with
  | nil => rfl
  | cons c rest ih =>
      have hc : c ≠ '\n' := (List.ne_of_not_mem_cons h).symm
      rw [lines, if_neg hc, ih (List.not_mem_of_not_mem_cons h)]

end ClassScript.Text

namespace ClassScript.Output

/-- The lines of a text at one level. -/
def textEntries (level : Nat) (text : String) : List Entry :=
  (Text.lines (Text.dropFinalNewline text.toList)).map fun p => .text level (String.ofList p)

theorem Writer.line_eq (w : Writer) (text : String) :
    w.line text = ⟨w.indent, w.entries ++ textEntries w.indent text⟩ := rfl

namespace Entry

/-- The entry as many levels deeper. -/
def deeper (levels : Nat) : Entry → Entry
  | .text indent line => .text (indent + levels) line
  | .mark m => .mark m

def mark? : Entry → Option Mark
  | .text _ _ => none
  | .mark m => some m

/-- The line with its level. -/
def line? : Entry → Option (Nat × String)
  | .text indent line => some (indent, line)
  | .mark _ => none

end Entry

/-- A text without newlines is one line. -/
theorem textEntries_single (level : Nat) {text : String} (h : '\n' ∉ text.toList) :
    textEntries level text = [.text level text] := by
  have hlast : text.toList.getLast? ≠ some '\n' := fun hlast => h (List.mem_of_getLast? hlast)
  rw [textEntries, Text.dropFinalNewline, if_neg hlast, Text.lines_single h]
  simp

theorem textEntries_deeper (levels level : Nat) (text : String) :
    (textEntries level text).map (Entry.deeper levels) = textEntries (level + levels) text := by
  simp [textEntries, Entry.deeper]

theorem marks_textEntries (level : Nat) (text : String) :
    (textEntries level text).filterMap Entry.mark? = [] := by
  simp [textEntries, Entry.mark?, List.filterMap_eq_nil_iff]

namespace Doc

/-- The entries of the document at a level. -/
def entriesAt (level : Nat) : Doc → List Entry
  | .empty => []
  | .line text => textEntries level text
  | .mark m => [.mark m]
  | .seq first second => first.entriesAt level ++ second.entriesAt level
  | .block head body after =>
      textEntries level (head ++ " \x7b") ++ body.entriesAt (level + 1) ++
        textEntries level ("\x7d" ++ after)
  | .indented body => body.entriesAt (level + 1)
  | .splice body => body.entriesAt level

/-- The marks of the document in order. -/
def marks : Doc → List Mark
  | .empty | .line _ => []
  | .mark m => [m]
  | .seq first second => first.marks ++ second.marks
  | .block _ body _ | .indented body | .splice body => body.marks

theorem entriesAt_append (level : Nat) (d e : Doc) :
    (d ++ e).entriesAt level = d.entriesAt level ++ e.entriesAt level := rfl

@[simp]
theorem marks_append (d e : Doc) : (d ++ e).marks = d.marks ++ e.marks := rfl

@[simp]
theorem marks_empty : Doc.empty.marks = [] := rfl

@[simp]
theorem marks_line (text : String) : (Doc.line text).marks = [] := rfl

/-- A line that may be left out. -/
@[simp]
theorem marks_lineIf (c : Prop) [Decidable c] (text : String) :
    (if c then Doc.line text else .empty).marks = [] := by
  split
  · rfl
  · rfl

@[simp]
theorem marks_block (head : String) (body : Doc) (after : String) :
    (Doc.block head body after).marks = body.marks := rfl

@[simp]
theorem marks_indented (body : Doc) : (Doc.indented body).marks = body.marks := rfl

@[simp]
theorem marks_lines (texts : List String) : (Doc.lines texts).marks = [] := by
  induction texts with
  | nil => rfl
  | cons text rest ih => exact ih

/-- The entries of texts, one after the other. -/
theorem entriesAt_lines (level : Nat) (texts : List String) :
    (Doc.lines texts).entriesAt level = texts.flatMap (textEntries level) := by
  induction texts with
  | nil => rfl
  | cons text rest ih => exact congrArg (textEntries level text ++ ·) ih

/-- A document is indented as a whole. -/
theorem entriesAt_deeper (levels level : Nat) (d : Doc) :
    (d.entriesAt level).map (Entry.deeper levels) = d.entriesAt (level + levels) := by
  induction d generalizing level with
  | empty => rfl
  | line text => exact textEntries_deeper levels level text
  | mark m => rfl
  | seq first second ihfirst ihsecond =>
      rw [entriesAt, List.map_append, ihfirst, ihsecond]
      rfl
  | block head body after ih =>
      rw [entriesAt, List.map_append, List.map_append, textEntries_deeper, textEntries_deeper, ih,
        Nat.add_right_comm]
      rfl
  | indented body ih =>
      rw [entriesAt, ih, Nat.add_right_comm]
      rfl
  | splice body ih => exact ih level

/-- Writing adds the entries at the current level and stays there. -/
theorem write_eq (d : Doc) (w : Writer) :
    d.write w = ⟨w.indent, w.entries ++ d.entriesAt w.indent⟩ := by
  induction d generalizing w with
  | empty =>
      rw [entriesAt, List.append_nil]
      rfl
  | line text => exact w.line_eq text
  | mark m => rfl
  | seq first second ihfirst ihsecond =>
      rw [write, ihfirst, ihsecond, entriesAt, List.append_assoc]
  | block head body after ih =>
      rw [write, Writer.block, Writer.line_eq, Writer.deeper, ih, Writer.line_eq, entriesAt]
      simp only [List.append_assoc]
  | indented body ih =>
      rw [write, Writer.deeper, ih]
      rfl
  | splice body ih =>
      have hmoved := entriesAt_deeper w.indent 0 body
      rw [Nat.zero_add] at hmoved
      rw [write, ih, Writer.append, entriesAt, ← hmoved]
      simp only [Writer.empty, List.nil_append]
      rfl

theorem mark_entriesAt (level : Nat) (d : Doc) :
    (d.entriesAt level).filterMap Entry.mark? = d.marks := by
  induction d generalizing level with
  | empty => rfl
  | line text => exact marks_textEntries level text
  | mark m => rfl
  | seq first second ihfirst ihsecond =>
      rw [entriesAt, List.filterMap_append, ihfirst, ihsecond, marks]
  | block head body after ih =>
      rw [entriesAt, List.filterMap_append, List.filterMap_append, marks_textEntries,
        marks_textEntries, ih, List.nil_append, List.append_nil, marks]
  | indented body ih => exact ih (level + 1)
  | splice body ih => exact ih level

end Doc

theorem marksFrom_eq (line : Nat) (entries : List Entry) :
    (marksFrom line entries).map Prod.snd = entries.filterMap Entry.mark? := by
  induction entries generalizing line with
  | nil => rfl
  | cons entry rest ih =>
      cases entry with
      | text indent text => exact ih (line + 1)
      | mark m => exact congrArg (m :: ·) (ih line)

namespace Doc

/-- The marks that a writer collects are those of the document. -/
theorem marks_write (d : Doc) : (d.write .empty).marks.map Prod.snd = d.marks := by
  rw [write_eq, Writer.marks, marksFrom_eq, ← d.mark_entriesAt 0]
  rfl

/-- The document stands in the other one. -/
inductive Within (d : Doc) : Doc → Prop where
  | refl : Within d d
  | first {e f : Doc} (h : Within d e) : Within d (.seq e f)
  | second {e f : Doc} (h : Within d f) : Within d (.seq e f)
  | block {head after : String} {e : Doc} (h : Within d e) : Within d (.block head e after)
  | indented {e : Doc} (h : Within d e) : Within d (.indented e)

theorem Within.trans {d e f : Doc} (h : d.Within e) (h' : e.Within f) : d.Within f := by
  induction h' with
  | refl => exact h
  | first _ ih => exact .first ih
  | second _ ih => exact .second ih
  | block _ ih => exact .block ih
  | indented _ ih => exact .indented ih

/-- The lines that the document adds at a level, each with its own. -/
def linesAt (level : Nat) (d : Doc) : List (Nat × String) :=
  (d.write ⟨level, []⟩).entries.filterMap Entry.line?

/-- The lines of a text at one level. -/
def textLines (level : Nat) (text : String) : List (Nat × String) :=
  (Doc.line text).linesAt level

theorem linesAt_eq (level : Nat) (d : Doc) :
    d.linesAt level = (d.entriesAt level).filterMap Entry.line? := by
  rw [linesAt, write_eq, List.nil_append]

theorem linesAt_append (level : Nat) (d e : Doc) :
    (d ++ e).linesAt level = d.linesAt level ++ e.linesAt level := by
  simp only [linesAt_eq, entriesAt_append, List.filterMap_append]

theorem linesAt_block (level : Nat) (head : String) (body : Doc) (after : String) :
    (Doc.block head body after).linesAt level =
      textLines level (head ++ " \x7b") ++ body.linesAt (level + 1) ++
        textLines level ("\x7d" ++ after) := by
  simp only [textLines, linesAt_eq, entriesAt, List.filterMap_append]

theorem linesAt_indented (level : Nat) (body : Doc) :
    (Doc.indented body).linesAt level = body.linesAt (level + 1) := by
  simp only [linesAt_eq, entriesAt]

/-- Its lines stand together among those of the other one. -/
theorem Within.exists_lines {d e : Doc} (h : d.Within e) (level : Nat) :
    ∃ deeper, d.linesAt deeper <:+: e.linesAt level := by
  induction h generalizing level with
  | refl => exact ⟨level, List.infix_rfl⟩
  | @first e f _ ih =>
      obtain ⟨deeper, hinfix⟩ := ih level
      exact ⟨deeper, linesAt_append level e f ▸ hinfix.trans (List.prefix_append _ _).isInfix⟩
  | @second e f _ ih =>
      obtain ⟨deeper, hinfix⟩ := ih level
      exact ⟨deeper, linesAt_append level e f ▸ hinfix.trans (List.suffix_append _ _).isInfix⟩
  | block _ ih =>
      obtain ⟨deeper, hinfix⟩ := ih (level + 1)
      exact ⟨deeper, linesAt_block level _ _ _ ▸ hinfix.trans (List.infix_append _ _ _)⟩
  | indented _ ih =>
      obtain ⟨deeper, hinfix⟩ := ih (level + 1)
      exact ⟨deeper, linesAt_indented level _ ▸ hinfix⟩

/-- Every text has a line. -/
theorem textLines_ne_nil (level : Nat) (text : String) : textLines level text ≠ [] := by
  rw [textLines, linesAt_eq, entriesAt, textEntries, List.filterMap_map]
  cases hlines : Text.lines (Text.dropFinalNewline text.toList) with
  | nil => exact absurd hlines (Text.lines_ne_nil _)
  | cons line others => simp [Entry.line?]

theorem mem_textLines {level : Nat} {text : String} {line : Nat × String}
    (h : line ∈ textLines level text) : line.1 = level ∧ '\n' ∉ line.2.toList := by
  rw [textLines, linesAt_eq, entriesAt, textEntries, List.filterMap_map] at h
  obtain ⟨piece, hpiece, hline⟩ := List.mem_filterMap.1 h
  obtain rfl : (level, String.ofList piece) = line := by simpa [Entry.line?] using hline
  refine ⟨rfl, ?_⟩
  rw [String.toList_ofList]
  exact Text.newline_not_mem_of_mem_lines hpiece

/-- Every line of a document comes from some text in it, at no other level than
the document's or a deeper one. -/
theorem exists_of_mem_linesAt {level : Nat} {d : Doc} {line : Nat × String}
    (h : line ∈ d.linesAt level) : ∃ deeper text, level ≤ deeper ∧ line ∈ textLines deeper text := by
  induction d generalizing level with
  | empty => simp [linesAt_eq, entriesAt] at h
  | line text => exact ⟨level, text, Nat.le_refl _, h⟩
  | mark m => simp [linesAt_eq, entriesAt, Entry.line?] at h
  | seq first second ihfirst ihsecond =>
      change line ∈ (first ++ second).linesAt level at h
      rw [linesAt_append] at h
      rcases List.mem_append.1 h with hfirst | hsecond
      · exact ihfirst hfirst
      · exact ihsecond hsecond
  | block head body after ih =>
      rw [linesAt_block] at h
      rcases List.mem_append.1 h with hfront | hlast
      · rcases List.mem_append.1 hfront with hhead | hbody
        · exact ⟨level, _, Nat.le_refl _, hhead⟩
        · obtain ⟨deeper, text, hle, hmem⟩ := ih hbody
          exact ⟨deeper, text, Nat.le_of_succ_le hle, hmem⟩
      · exact ⟨level, _, Nat.le_refl _, hlast⟩
  | indented body ih =>
      rw [linesAt_indented] at h
      obtain ⟨deeper, text, hle, hmem⟩ := ih h
      exact ⟨deeper, text, Nat.le_of_succ_le hle, hmem⟩
  | splice body ih =>
      rw [linesAt_eq, entriesAt, ← linesAt_eq] at h
      exact ih h

/-- No line of a document stands outside its level. -/
theorem le_of_mem_linesAt {level : Nat} {d : Doc} {line : Nat × String}
    (h : line ∈ d.linesAt level) : level ≤ line.1 := by
  obtain ⟨deeper, text, hle, hmem⟩ := exists_of_mem_linesAt h
  rw [(mem_textLines hmem).1]
  exact hle

theorem oneLine_of_mem_linesAt {level : Nat} {d : Doc} {line : Nat × String}
    (h : line ∈ d.linesAt level) : '\n' ∉ line.2.toList := by
  obtain ⟨_, _, _, hmem⟩ := exists_of_mem_linesAt h
  exact (mem_textLines hmem).2

/-- A text without newlines is one line. -/
theorem textLines_single (level : Nat) {text : String} (h : '\n' ∉ text.toList) :
    textLines level text = [(level, text)] := by
  rw [textLines, linesAt_eq, entriesAt, textEntries_single level h]
  rfl

theorem linesAt_lines (level : Nat) {texts : List String} (h : ∀ text ∈ texts, '\n' ∉ text.toList) :
    (Doc.lines texts).linesAt level = texts.map fun text => (level, text) := by
  induction texts with
  | nil => rfl
  | cons text rest ih =>
      obtain ⟨htext, hrest⟩ := List.forall_mem_cons.1 h
      rw [lines, List.map_cons, concat, linesAt_append, ← lines, ih hrest]
      exact congrArg (· ++ _) (textLines_single level htext)

end Doc

end ClassScript.Output
