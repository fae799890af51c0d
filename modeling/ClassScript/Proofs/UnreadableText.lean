import ClassScript.Proofs.LeafText
import ClassScript.Proofs.OperatorShapes

/-!
Text that cannot be read at all. A variable is written with whatever counts as a letter
or a digit in some script, and only the identifiers of the language have tokens. Text
around such a variable does not make it readable: what stands before it in an operator
or a conversion ends in a bracket or a blank, and both end the token before them.
-/

namespace ClassScript.Reading

open Script

/-- Reading the text comes to a character that neither goes on with a token nor begins
one. -/
def Unreadable (text : String) : Prop :=
  scan .blank text.toList = none

theorem Unreadable.not_reads {text : String} (h : Unreadable text) (t : Tree) : ¬ Reads text t := by
  rintro ⟨ts, hts, -⟩
  have hscan : scan .blank text.toList = none := h
  simp [tokens?, hscan] at hts

section Openings

/-- Whether a text ends in an opening bracket or a blank. -/
def endsOpen (text : String) : Bool :=
  text.toList.getLast?.any (· ∈ ['(', ' '])

theorem endsOpen_append (front : String) {text : String} (h : endsOpen text = true) :
    endsOpen (front ++ text) = true := by
  cases hlast : text.toList.getLast? with
  | none => simp [endsOpen, hlast] at h
  | some c =>
      rw [endsOpen, hlast] at h
      rw [endsOpen, String.toList_append, List.getLast?_append, hlast]
      exact h

variable {c : Char}

/-- Both make a token that nothing is added to. -/
theorem add?_opened (hc : c ∈ ['(', ' ']) {p next : Pending}
    (h : p.add? c = some next ∨ Pending.start? c = some next) (d : Char) : next.add? d = none := by
  have hall : ∀ sign ∈ signs, (['(', ' '].all fun b => decide (b ∉ sign.toList.dropLast)) = true := by
    decide
  have hinner : ∀ sign ∈ signs, ∀ b ∈ ['(', ' '], b ∉ sign.toList.dropLast := fun sign hsign =>
    forall_mem_of_all (hall sign hsign)
  have hsign : ∀ chars, isSign (chars ++ [c, d]) = false := by
    intro chars
    rw [isSign, List.any_eq_false]
    intro sign hmem heq
    rw [decide_eq_true_eq] at heq
    exact hinner sign hmem c hc (by simp [heq])
  have hpart : isIdentifierPart c = false := by
    have hboth : ∀ b ∈ ['(', ' '], isIdentifierPart b = false := forall_mem_of_all (by decide)
    exact hboth c hc
  rcases h with hadd | hstart
  · cases p with
    | blank => cases hadd
    | word chars => simp [Pending.add?, hpart] at hadd
    | sign chars =>
        obtain ⟨-, heq⟩ := Option.ite_none_right_eq_some.1 hadd
        cases heq
        exact if_neg (by simpa using hsign chars)
  · have hboth : ∀ b ∈ ['(', ' '], Pending.start? b ∈ [some .blank, some (.sign [b])] :=
      forall_mem_of_all (by decide)
    have hmem := hboth c hc
    rw [hstart, List.mem_pair, Option.some.injEq, Option.some.injEq] at hmem
    rcases hmem with rfl | rfl
    · rfl
    · exact if_neg (by simpa using hsign [])

theorem scan_eq_none_of_stopped {p : Pending} (hstop : ∀ d, p.add? d = none) {rest : List Char}
    (h : scan .blank rest = none) : scan p rest = none := by
  cases rest with
  | nil => simp [scan] at h
  | cons d rest => simp [scan_stopped (hstop d), h]

theorem scan_opened (hc : c ∈ ['(', ' ']) (p : Pending) {rest : List Char}
    (h : scan .blank rest = none) : scan p (c :: rest) = none := by
  cases hadd : p.add? c with
  | some next =>
      rw [scan, hadd]
      exact scan_eq_none_of_stopped (add?_opened hc (.inl hadd)) h
  | none =>
      rw [scan, hadd]
      cases p.tokens? with
      | none => rfl
      | some done =>
          cases hstart : Pending.start? c with
          | none => rfl
          | some next =>
              have hnone := scan_eq_none_of_stopped (add?_opened (p := p) hc (.inr hstart)) h
              simp [hnone]

end Openings

namespace Unreadable

variable {text : String}

theorem before (h : Unreadable text) (rest : String) : Unreadable (text ++ rest) := by
  have hscan : scan .blank text.toList = none := h
  simp [Unreadable, scan_append, hscan]

theorem behind (h : Unreadable text) {front : String} (hfront : endsOpen front = true) :
    Unreadable (front ++ text) := by
  obtain ⟨c, hlast, hc⟩ := (Option.any_eq_true _ _).1 hfront
  obtain ⟨chars, hchars⟩ := List.getLast?_eq_some_iff.1 hlast
  have hopened : ∀ p, scan p (c :: text.toList) = none := fun p =>
    scan_opened (by simpa using hc) p h
  rw [Unreadable, String.toList_append, hchars, List.append_assoc, List.singleton_append,
    scan_append]
  simp [hopened]

theorem within (h : Unreadable text) {front : String} (hfront : endsOpen front = true)
    (back : String) : Unreadable (front ++ text ++ back) :=
  (h.behind hfront).before back

end Unreadable

section Operators

variable {l r text : String}

/-- Two operands in a frame, of which one cannot be read. -/
theorem unreadable_framed {front between : String} (hfront : endsOpen front = true)
    (hbetween : endsOpen between = true) (back : String) (h : Unreadable l ∨ Unreadable r) :
    Unreadable (front ++ (l ++ between ++ r) ++ back) := by
  refine Unreadable.within ?_ hfront back
  rcases h with hl | hr
  · exact (hl.before between).before r
  · exact hr.behind (endsOpen_append l hbetween)

theorem unreadable_binary {op : BinaryOp} {kind : OperandKind}
    (hout : binary? op kind l r = some text) (h : Unreadable l ∨ Unreadable r) :
    Unreadable text := by
  have hsign : ∀ {front : String}, endsOpen front = true → ∀ sign,
      Unreadable (front ++ (l ++ (" " ++ sign ++ " ") ++ r) ++ ")") := fun hfront sign =>
    unreadable_framed hfront (endsOpen_append (" " ++ sign) (by decide)) ")" h
  have hgrouped : ∀ sign, Unreadable (Operator.grouped sign l r) := fun sign => by
    simpa [Operator.grouped, String.append_assoc] using
      hsign (show endsOpen "(" = true by decide) sign
  cases shape_of_binary hout with
  | @grouped sign => exact hgrouped sign
  | @low sign => exact (hgrouped sign).within (by decide) "|0)"
  | @truth sign =>
      have hsame : "!!" ++ Operator.grouped sign l r =
          "!!(" ++ (l ++ (" " ++ sign ++ " ") ++ r) ++ ")" := by
        simp [Operator.grouped, ← String.toList_inj]
      exact hsame ▸ hsign (by decide) sign
  | @rounded sign =>
      simpa [Convert.float, String.append_assoc] using
        hsign (show endsOpen "Math.fround(" = true by decide) sign
  | @helper name =>
      have hcall := unreadable_framed (endsOpen_append ("N." ++ name) (show endsOpen "(" = true by
        decide)) (show endsOpen ", " = true by decide) ")" h
      simpa [Operator.helper, String.append_assoc] using hcall
  | product =>
      have hcall := unreadable_framed (show endsOpen "Math.imul(" = true by decide)
        (show endsOpen ", " = true by decide) ")" h
      simpa [Operator.intMul, String.append_assoc] using hcall

theorem unreadable_convert {source target : Ty} (hout : convert? source target l = some text)
    (h : Unreadable l) : Unreadable text := by
  have hopen : ∀ frame ∈ conversionFrames, endsOpen frame.1 = true := by decide
  cases shape_of_convert hout with
  | unchanged => exact h
  | framed hframe => exact h.within (hopen _ hframe) _
  | twice hframe hframe' => exact (h.within (hopen _ hframe) _).within (hopen _ hframe') _

end Operators

section Variables

variable {c : Char}

/-- None of the signs has a character that a variable can have. -/
theorem start?_eq_none (hvariable : isVariableChar c = true) (hstart : isIdentifierStart c = false)
    (hdigit : c.isDigit = false) : Pending.start? c = none := by
  have hall : ∀ sign ∈ signs, (sign.toList.all fun d => decide (isVariableChar d = false)) = true := by
    decide
  have hsigns : ∀ sign ∈ signs, ∀ d ∈ sign.toList, isVariableChar d = false := fun sign hsign =>
    forall_mem_of_all (hall sign hsign)
  have hsign : isSign [c] = false := by
    rw [isSign, List.any_eq_false]
    intro sign hmem heq
    rw [decide_eq_true_eq] at heq
    simp [hsigns sign hmem c (by simp [heq])] at hvariable
  simp [Pending.start?, not_isWhitespace_of_isVariableChar hvariable, hstart, hdigit, hsign]

/-- A word ends at the first character that cannot stand in it, and nothing begins there. -/
theorem scan_word_eq_none (chars : List Char) {more : List Char}
    (hvariable : ∀ d ∈ more, isVariableChar d = true)
    (hother : ∃ d ∈ more, isIdentifierPart d = false) : scan (.word chars) more = none := by
  induction more generalizing chars with
  | nil =>
      obtain ⟨d, hmem, -⟩ := hother
      cases hmem
  | cons d rest ih =>
      obtain ⟨hd, hrest⟩ := List.forall_mem_cons.1 hvariable
      cases hpart : isIdentifierPart d with
      | true =>
          have hlonger : (Pending.word chars).add? d = some (.word (chars ++ [d])) := if_pos hpart
          rw [scan, hlonger]
          refine ih (chars ++ [d]) hrest ?_
          simpa [hpart] using hother
      | false =>
          have hstop : (Pending.word chars).add? d = none := if_neg (by simp [hpart])
          have hstart : isIdentifierStart d = false := by
            rw [Bool.eq_false_iff]
            exact fun h => by simp [isIdentifierPart_of_start h] at hpart
          have hdigit : d.isDigit = false := by
            rw [Bool.eq_false_iff]
            exact fun h => by simp [isIdentifierPart_of_isDigit h] at hpart
          simp [scan, hstop, start?_eq_none hd hstart hdigit]

/-- A variable whose name is no identifier cannot be read. -/
theorem unreadable_variable {name : String} (h : ¬ IsIdentifier (variableName name)) :
    Unreadable (variableName name) := by
  obtain ⟨hchars, first, hhead, hdigit⟩ := variableName_word name
  rw [isIdentifier_variableName] at h
  obtain ⟨rest, hcons⟩ : ∃ rest, (variableName name).toList = first :: rest :=
    ⟨_, List.eq_cons_of_mem_head? hhead⟩
  rw [hcons] at hchars h
  obtain ⟨hfirst, hrest⟩ := List.forall_mem_cons.1 hchars
  have hstop : Pending.blank.add? first = none := rfl
  rw [Unreadable, hcons]
  cases hstart : isIdentifierStart first with
  | true =>
      have hother : ∃ d ∈ rest, isIdentifierPart d = false := by
        simpa [isWord, hstart] using h
      have hrest := scan_word_eq_none [first] hrest hother
      simp [scan, hstop, start?_word (.inl hstart), hrest]
  | false => simp [scan, hstop, start?_eq_none hfirst hstart hdigit]

/-- So a variable is read, and as one, exactly if its name is an identifier. -/
theorem reads_variableName_iff {name : String} :
    Reads (variableName name) (.reference (variableName name)) ↔ IsIdentifier (variableName name) := by
  constructor
  · intro hreads
    by_contra hother
    exact (unreadable_variable hother).not_reads _ hreads
  · exact fun h => (operand_reference h).reads

end Variables

end ClassScript.Reading
