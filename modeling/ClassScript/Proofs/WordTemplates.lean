import ClassScript.Proofs.OperandLowering
import ClassScript.Proofs.References

/-!
The texts that expressions are put together from, with the names in them: words, members
and literals, numbers, arguments, and what operators and conversions make of operands.
-/

namespace ClassScript.Words

open Script

theorem newline_not_mem {chars : List Char} (h : ∀ c ∈ chars, isVariableChar c = true ∨ c = '.') :
    '\n' ∉ chars := by
  intro hmem
  have hnone : ¬ (isVariableChar '\n' = true ∨ '\n' = '.') := by decide
  exact hnone (h _ hmem)

section Leaves

variable {text : String} {chars : List Char}

theorem Cursor.read_word (h : ∀ c ∈ chars, isVariableChar c = true) (front : List Char) :
    (Cursor.word front).read chars = ([], .word (front ++ chars)) := by
  induction chars generalizing front with
  | nil => rw [Cursor.read, List.append_nil]
  | cons c rest ih =>
      obtain ⟨hc, hrest⟩ := List.forall_mem_cons.1 h
      simp [Cursor.read, Cursor.finished, Cursor.next, hc, ih hrest]

/-- A word is a name, or it has none. -/
theorem mentions_word (h : ∀ c ∈ text.toList, isVariableChar c = true) :
    Mentions ([text].filter isName) text := by
  have hread : Cursor.code.read text.toList =
      ([], if text.toList = [] then .code else .word text.toList) := by
    cases htext : text.toList with
    | nil => rfl
    | cons first rest =>
        rw [htext, List.forall_mem_cons] at h
        simp [Cursor.read, Cursor.finished, Cursor.next, h.1, Cursor.read_word h.2]
  refine ⟨newline_not_mem fun c hc => .inl (h c hc), ?_⟩
  rw [namesIn, hread]
  split
  · next hnil =>
      obtain rfl : text = "" := String.toList_inj.1 hnil
      exact ⟨rfl, rfl⟩
  · refine ⟨rfl, ?_⟩
    rw [named, Cursor.pending, List.nil_append, List.map_singleton, String.ofList_toList]

theorem isName_variableName (name : String) : isName (variableName name) = true := by
  obtain ⟨-, first, hfirst, hdigit⟩ := variableName_word name
  have hkeyword := variableName_notMem_keywords name
  simp [isName, hfirst, hdigit, hkeyword]

theorem mentions_variableName (name : String) :
    Mentions [variableName name] (variableName name) := by
  have hword := mentions_word (variableName_word name).1
  rwa [List.filter_cons_of_pos (isName_variableName name)] at hword

/-- Nothing in a literal is a word. -/
theorem Cursor.read_escape (c : Char) :
    (Cursor.literal '"').read (escape c) = ([], .literal '"') := by
  have hplain : ∀ text : List Char, (∀ d ∈ text, d ≠ '"' ∧ d ≠ '\\') →
      (Cursor.literal '"').read text = ([], .literal '"') := by
    intro text h
    induction text with
    | nil => rfl
    | cons d rest ih =>
        obtain ⟨⟨hquote, hbackslash⟩, hrest⟩ := List.forall_mem_cons.1 h
        simp [read, next, finished, pending, hquote, hbackslash, ih hrest]
  unfold escape
  split
  · rfl
  split
  · rfl
  split
  · rfl
  split
  · rfl
  split
  · rfl
  split
  · have hdigits := hplain (Text.hexDigits 4 c.toNat) fun d hd =>
      let h := plain_of_mem_hexDigits hd
      ⟨h.1, h.2.1⟩
    simp [read, next, finished, pending, hdigits]
  · next hquote hbackslash _ _ _ _ =>
      exact hplain [c] fun d hd => List.mem_singleton.1 hd ▸ ⟨hquote, hbackslash⟩

theorem opening_quote (s : String) : Opening [] (quote s) := by
  have hread : Cursor.code.read (literal s.toList) = ([], .code) := by
    have hbody : (Cursor.literal '"').read (s.toList.flatMap escape ++ ['"']) = ([], .code) := by
      induction s.toList with
      | nil => rfl
      | cons c rest ih =>
          rw [List.flatMap_cons, List.append_assoc, Cursor.read_append, Cursor.read_escape, ih]
          rfl
    rw [literal, Cursor.read]
    change ([] ++ ((Cursor.literal '"').read _).1, ((Cursor.literal '"').read _).2) = _
    rw [hbody]
    rfl
  refine ⟨newline_not_mem_quote s, ?_⟩
  rw [namesIn, toList_quote, hread]
  exact ⟨rfl, rfl⟩

/-- In a number, or behind a point. -/
def Cursor.isNumeric : Cursor → Bool
  | .word chars => chars.head?.any (·.isDigit)
  | .point | .member => true
  | _ => false

theorem Cursor.settled_of_isNumeric {k : Cursor} (hk : k.isNumeric = true) :
    k.settled = true ∧ named k.pending = [] := by
  cases k with
  | word chars =>
      cases chars with
      | nil => cases hk
      | cons first rest =>
          have hfirst : first.isDigit = true := hk
          exact ⟨rfl, by simp [named, pending, isName, hfirst]⟩
  | point | member => exact ⟨rfl, rfl⟩
  | code | literal _ | escaped _ => cases hk

theorem Cursor.isNumeric_next {k : Cursor} (hk : k.isNumeric = true) {c : Char}
    (hc : isVariableChar c = true ∨ c = '.') :
    named (k.finished c) = [] ∧ (k.next c).isNumeric = true := by
  rcases hc with hc | rfl
  · refine ⟨by simp [finished, hc, named], ?_⟩
    cases k with
    | word chars =>
        cases chars with
        | nil => cases hk
        | cons first rest => simpa [next, hc, isNumeric] using hk
    | point | member => simp [next, hc, isNumeric]
    | _ => cases hk
  · have hpoint : isVariableChar '.' = false := by decide
    refine ⟨by simpa [finished, hpoint] using (settled_of_isNumeric hk).2, ?_⟩
    cases k with
    | word _ | point | member => simp [next, hpoint, aside, isNumeric]
    | _ => cases hk

theorem Cursor.isNumeric_read {k : Cursor} (hk : k.isNumeric = true)
    (h : ∀ c ∈ chars, isVariableChar c = true ∨ c = '.') :
    named (k.read chars).1 = [] ∧ (k.read chars).2.isNumeric = true := by
  induction chars generalizing k with
  | nil => exact ⟨rfl, hk⟩
  | cons c rest ih =>
      obtain ⟨hc, hrest⟩ := List.forall_mem_cons.1 h
      obtain ⟨hfinished, hnext⟩ := Cursor.isNumeric_next hk hc
      obtain ⟨hwords, hlast⟩ := ih hnext hrest
      rw [Cursor.read, named_append, hfinished, hwords]
      exact ⟨rfl, hlast⟩

/-- What begins with a digit is no name, as far as points and characters of variables go. -/
theorem mentions_digits (hhead : chars.head?.any (·.isDigit) = true)
    (h : ∀ c ∈ chars, isVariableChar c = true ∨ c = '.') : Mentions [] (String.ofList chars) := by
  have hread : named (Cursor.code.read chars).1 = [] ∧
      (Cursor.code.read chars).2.isNumeric = true := by
    cases chars with
    | nil => cases hhead
    | cons first rest =>
        have hfirst : isVariableChar first = true := isVariableChar_of_isDigit hhead
        have hnext : Cursor.code.next first = .word [first] := if_pos hfirst
        have hnumeric : (Cursor.word [first]).isNumeric = true := hhead
        have hrest := Cursor.isNumeric_read hnumeric fun c hc => h c (List.mem_cons_of_mem _ hc)
        simpa [Cursor.read, Cursor.finished, hfirst, hnext] using hrest
  obtain ⟨hsettled, hpending⟩ := Cursor.settled_of_isNumeric hread.2
  rw [Mentions, String.toList_ofList, namesIn, named_append, hread.1, hpending]
  exact ⟨newline_not_mem h, hsettled, rfl⟩

theorem mentions_natural (n : Nat) : Mentions [] (Text.natural n) :=
  mentions_digits (Text.head?_toDigits_isDigit n) fun _ hc =>
    .inl (isVariableChar_of_isDigit (Text.isDigit_of_mem_toDigits hc))

theorem mentions_integer (v : Int) : Mentions [] (Text.integer v) := by
  have hminus : Opening [] "-" := by decide
  unfold Text.integer
  split
  · exact hminus.append (mentions_natural _)
  · exact mentions_natural _

open Brackets in
/-- The letter of an exponent belongs to the number, what is behind its sign is another. -/
theorem mentions_numeral (h : IsNumeral chars) : Mentions [] (String.ofList chars) := by
  cases h with
  | positional hhead hchars =>
      exact mentions_digits hhead fun c hc => (hchars c hc).imp_left isVariableChar_of_isDigit
  | @scientific mantissa sign exponent hhead hchars hsign hexponent =>
      have hdigits : ∀ c ∈ exponent, isVariableChar c = true ∨ c = '.' :=
        fun c hc => .inl (isVariableChar_of_isDigit (hexponent c hc))
      have hfront : ∀ c ∈ mantissa ++ ['e'], isVariableChar c = true ∨ c = '.' := by
        refine List.forall_mem_append.2 ⟨fun c hc =>
          (hchars c hc).imp_left isVariableChar_of_isDigit, fun c hc => .inl ?_⟩
        rw [List.mem_singleton.1 hc]
        decide
      have hfronthead : (mantissa ++ ['e']).head?.any (·.isDigit) = true := by
        rw [List.head?_append]
        cases hfirst : mantissa.head? with
        | none =>
            rw [hfirst] at hhead
            cases hhead
        | some first => rwa [hfirst] at hhead
      have htail : Mentions [] (String.ofList exponent) := by
        cases exponent with
        | nil => decide
        | cons first rest => exact mentions_digits (hexponent first List.mem_cons_self) hdigits
      have hsigned : ∀ {mark : String}, Opening [] mark → breaks mark = true → mark.toList ≠ [] →
          Mentions [] (String.ofList (mantissa ++ ['e']) ++ mark ++ String.ofList exponent) := by
        intro mark hmark hbreaks hne
        exact ((mentions_digits hfronthead hfront).opening hmark hbreaks hne).append htail
      have hsplit : String.ofList (mantissa ++ 'e' :: (sign ++ exponent)) =
          String.ofList (mantissa ++ ['e']) ++ String.ofList sign ++ String.ofList exponent := by
        apply String.toList_injective
        simp
      rcases hsign with rfl | rfl | rfl
      · rw [List.nil_append, List.append_cons]
        refine mentions_digits ?_ (List.forall_mem_append.2 ⟨hfront, hdigits⟩)
        rwa [List.head?_append_of_ne_nil _ (by simp)]
      · exact hsplit ▸ hsigned (by decide) (by decide) (by decide)
      · exact hsplit ▸ hsigned (by decide) (by decide) (by decide)

theorem mentions_wrapNegative {names : List String} (h : Mentions names text) :
    Mentions names (wrapNegative text) := by
  have hopen : Opening [] "(" := by decide
  have hclose : Mentions [] ")" := by decide
  unfold wrapNegative
  split
  · exact (hopen.append h).append_plain hclose (by decide)
  · exact h

theorem breaks_member (name : String) : breaks (member name) = true := by
  unfold member
  split
  · exact breaks_append (by decide) (by decide) _
  · rw [String.append_assoc]
    exact breaks_append (by decide) (by decide) _

/-- Behind a point and in a literal there are no names. -/
theorem mentions_member (name : String) : Mentions [] (member name) := by
  have hbracket : Opening [] "[" := by decide
  have hclose : Mentions [] "]" := by decide
  unfold member
  split
  · next hplain =>
      have hchars : ∀ c ∈ name.toList, isVariableChar c = true ∨ c = '.' :=
        fun c hc => .inl (isVariableChar_of_isPlain hplain hc)
      obtain ⟨hwords, hlast⟩ := Cursor.isNumeric_read (k := .point) rfl hchars
      obtain ⟨hsettled, hpending⟩ := Cursor.settled_of_isNumeric hlast
      have hread : Cursor.code.read ("." ++ name).toList = Cursor.point.read name.toList := by
        rw [String.toList_append]
        rfl
      rw [Mentions, namesIn, hread, named_append, hwords, hpending]
      refine ⟨Text.oneLine_append (by decide) (newline_not_mem hchars), hsettled, rfl⟩
  · exact (hbracket.append (opening_quote name).mentions).append_plain hclose (by decide)

end Leaves

/-- A text of one line that has the references for names. -/
def Refers (refs : List Reference) (text : String) : Prop := Mentions (spelled refs) text

instance (refs : List Reference) (text : String) : Decidable (Refers refs text) :=
  inferInstanceAs (Decidable (Mentions _ _))

/-- Signs that stand between operands. -/
def Separates (text : String) : Prop :=
  Opening [] text ∧ text.toList.head?.any (!isVariableChar ·) = true

instance (text : String) : Decidable (Separates text) := inferInstanceAs (Decidable (_ ∧ _))

section Templates

variable {refs others : List Reference} {text more l r : String}

theorem Refers.append (h : Refers refs text) (hmore : Refers others more)
    (hbreaks : breaks more = true) : Refers (refs ++ others) (text ++ more) := by
  rw [Refers, spelled_append]
  exact Mentions.append h hmore hbreaks

theorem Refers.plain (h : Refers refs text) (hmore : Mentions [] more)
    (hbreaks : breaks more = true) : Refers refs (text ++ more) :=
  h.append_plain hmore hbreaks

theorem Refers.behind (h : Refers refs text) {front : String} (own : List Reference)
    (hfront : Opening (spelled own) front) : Refers (own ++ refs) (front ++ text) := by
  rw [Refers, spelled_append]
  exact hfront.append h

/-- A text between signs; what refers to something may stand in front. -/
theorem Refers.within (h : Refers refs text) {front back : String} (own : List Reference)
    (hfront : Opening (spelled own) front) (hback : Mentions [] back)
    (hbreaks : breaks back = true) : Refers (own ++ refs) (front ++ text ++ back) :=
  (h.behind own hfront).plain hback hbreaks

theorem Refers.separated (hl : Refers refs l) {middle : String} (hmiddle : Separates middle)
    (hr : Refers others r) : Refers (refs ++ others) (l ++ middle ++ r) := by
  obtain ⟨hopening, hhead⟩ := hmiddle
  have hbreaks : breaks middle = true ∧ middle.toList ≠ [] := by
    rw [breaks]
    cases hchars : middle.toList with
    | nil =>
        rw [hchars] at hhead
        cases hhead
    | cons first rest =>
        rw [hchars] at hhead
        exact ⟨hhead, List.cons_ne_nil _ _⟩
  have hfront : Opening (spelled refs ++ []) (l ++ middle) :=
    Mentions.opening hl hopening hbreaks.1 hbreaks.2
  rw [Refers, spelled_append, ← List.append_nil (spelled refs)]
  exact hfront.append hr

end Templates

section Leaves

theorem refers_nil {text : String} (h : Mentions [] text) : Refers [] text := h

theorem refers_variable (name : String) : Refers [.variable name] (variableName name) := by
  rw [Refers, spelled, List.map_singleton, Reference.spelling,
    List.filter_cons_of_pos (isName_variableName name)]
  exact mentions_variableName name

theorem refers_label (name : String) : Refers [.label name] (variableName name) :=
  refers_variable name

theorem refers_class {n : ClassName} (h : n.IsWord) : Refers [.ofClass n] n.identifier :=
  mentions_word h.identifier

end Leaves

section Operators

variable {refs others : List Reference} {v l r text : String}

/-- A call with two arguments. -/
theorem refers_call₂ (hl : Refers refs l) (hr : Refers others r) {front : String}
    (own : List Reference) (hfront : Opening (spelled own) front) :
    Refers (own ++ (refs ++ others)) (front ++ l ++ ", " ++ r ++ ")") := by
  have hargs := hl.separated (show Separates ", " by decide) hr
  have hcall := hargs.within own hfront (show Mentions [] ")" by decide) (by decide)
  simpa only [String.append_assoc] using hcall

theorem refers_apart (hl : Refers refs l) {op : String} (hop : Separates (" " ++ op ++ " "))
    (hr : Refers others r) : Refers (refs ++ others) (l ++ " " ++ op ++ " " ++ r) := by
  have happart := hl.separated hop hr
  simpa only [String.append_assoc] using happart

theorem refers_grouped (hl : Refers refs l) (hr : Refers others r) {op : String}
    (hop : Separates (" " ++ op ++ " ")) : Refers (refs ++ others) (Operator.grouped op l r) := by
  have hgroup := (refers_apart hl hop hr).within [] (show Opening [] "(" by decide)
    (show Mentions [] ")" by decide) (by decide)
  simpa only [Operator.grouped, String.append_assoc, List.nil_append] using hgroup

theorem refers_helper (hl : Refers refs l) (hr : Refers others r) {name : String}
    (hname : Opening ["N"] ("N." ++ name ++ "(")) :
    Refers ([.global .runtime] ++ (refs ++ others)) (Operator.helper name l r) :=
  refers_call₂ hl hr [.global .runtime] hname

theorem refers_unary {op : UnaryOp} {kind : OperandKind} (hv : Refers refs v)
    (h : unary? op kind v = some text) : Refers (unaryReferences kind ++ refs) text := by
  unfold unary? at h
  split at h
  all_goals cases h
  all_goals exact hv.within _ (by decide) (by decide) (by decide)

theorem refers_relation {op : BinaryOp} (hl : Refers refs l) (hr : Refers others r)
    (h : (Operator.relation? op).map (Operator.grouped · l r) = some text) :
    Refers (refs ++ others) text := by
  have hsigns : ∀ {sign : String}, Operator.relation? op = some sign →
      Separates (" " ++ sign ++ " ") := by
    intro sign h
    cases op <;> cases h <;> decide
  obtain ⟨sign, hsign, rfl⟩ := Option.map_eq_some_iff.1 h
  exact refers_grouped hl hr (hsigns hsign)

/-- Relations refer to nothing but their operands, unless these are of type `long`. -/
theorem binaryReferences_relation {op : BinaryOp} {sign : String}
    (h : Operator.relation? op = some sign) {kind : OperandKind} (hkind : kind ≠ .long) :
    binaryReferences kind op = [] := by
  cases kind with
  | long => exact absurd rfl hkind
  | _ => cases op <;> cases h <;> rfl

theorem refers_intBinary {op : BinaryOp} (hl : Refers refs l) (hr : Refers others r)
    (h : Operator.intBinary? op l r = some text) :
    Refers (binaryReferences .int op ++ (refs ++ others)) text := by
  have hlow : ∀ {sign : String}, Separates (" " ++ sign ++ " ") →
      Refers (refs ++ others) ("(" ++ Operator.grouped sign l r ++ "|0)") := fun hsign =>
    (refers_grouped hl hr hsign).within [] (by decide) (by decide) (by decide)
  unfold Operator.intBinary? at h
  split at h
  · cases h; exact hlow (by decide)
  · cases h; exact hlow (by decide)
  · cases h; exact refers_call₂ hl hr [.global .math] (by decide)
  · cases h; exact refers_helper hl hr (by decide)
  · cases h; exact refers_helper hl hr (by decide)
  · cases h; exact refers_grouped hl hr (by decide)
  · cases h; exact refers_grouped hl hr (by decide)
  · cases h; exact refers_grouped hl hr (by decide)
  · cases h; exact refers_grouped hl hr (by decide)
  · cases h; exact refers_grouped hl hr (by decide)
  · cases h; exact hlow (by decide)
  · obtain ⟨sign, hsign, -⟩ := Option.map_eq_some_iff.1 h
    rw [binaryReferences_relation hsign (by decide), List.nil_append]
    exact refers_relation hl hr h

theorem refers_longHelper {op : BinaryOp} (hl : Refers refs l) (hr : Refers others r)
    (h : (Operator.longHelper? op).map (Operator.helper · l r) = some text) :
    Refers (binaryReferences .long op ++ (refs ++ others)) text := by
  have hname : ∀ {name : String}, Operator.longHelper? op = some name →
      Opening ["N"] ("N." ++ name ++ "(") := by
    intro name h
    cases op <;> cases h <;> decide
  obtain ⟨name, hhelper, rfl⟩ := Option.map_eq_some_iff.1 h
  exact refers_helper hl hr (hname hhelper)

/-- Arithmetic is rounded if the result is a `float`. -/
theorem refers_realBinary {isSingle : Bool} {op : BinaryOp} (hl : Refers refs l)
    (hr : Refers others r) (h : Operator.realBinary? isSingle op l r = some text) :
    Refers (binaryReferences (if isSingle then .float else .double) op ++ (refs ++ others))
      text := by
  have harithmetic : ∀ {sign : String}, Operator.arithmetic? op = some sign →
      Separates (" " ++ sign ++ " ") ∧ binaryReferences .float op = [.global .math] ∧
        binaryReferences .double op = [] := by
    intro sign h
    cases op <;> cases h <;> decide
  unfold Operator.realBinary? at h
  split at h
  · next sign hsign =>
      obtain ⟨hseparates, hsingle, hdouble⟩ := harithmetic hsign
      cases h
      cases isSingle with
      | true =>
          rw [if_pos rfl, hsingle]
          exact (refers_apart hl hseparates hr).within _ (by decide) (by decide) (by decide)
      | false =>
          rw [if_neg Bool.false_ne_true, hdouble]
          exact refers_grouped hl hr hseparates
  · cases h
    cases isSingle <;> exact refers_helper hl hr (by decide)
  · cases h
    cases isSingle <;> exact refers_helper hl hr (by decide)
  · obtain ⟨sign, hsign, -⟩ := Option.map_eq_some_iff.1 h
    rw [binaryReferences_relation hsign (by cases isSingle <;> decide), List.nil_append]
    exact refers_relation hl hr h

theorem refers_boolBinary {op : BinaryOp} (hl : Refers refs l) (hr : Refers others r)
    (h : Operator.boolBinary? op l r = some text) : Refers (refs ++ others) text := by
  have htruth : ∀ {sign : String}, Separates (" " ++ sign ++ " ") →
      Refers (refs ++ others) ("!!" ++ Operator.grouped sign l r) := fun hsign =>
    (refers_grouped hl hr hsign).behind [] (by decide)
  unfold Operator.boolBinary? at h
  split at h
  · cases h; exact htruth (by decide)
  · cases h; exact htruth (by decide)
  · cases h; exact htruth (by decide)
  · cases h; exact refers_grouped hl hr (by decide)
  · cases h; exact refers_grouped hl hr (by decide)
  · cases h; exact refers_grouped hl hr (by decide)
  · cases h; exact refers_grouped hl hr (by decide)
  · cases h

theorem refers_refBinary {op : BinaryOp} (hl : Refers refs l) (hr : Refers others r)
    (h : Operator.refBinary? op l r = some text) : Refers (refs ++ others) text := by
  unfold Operator.refBinary? at h
  split at h
  · cases h; exact refers_grouped hl hr (by decide)
  · cases h; exact refers_grouped hl hr (by decide)
  · cases h

theorem refers_binary {op : BinaryOp} {kind : OperandKind} (hl : Refers refs l)
    (hr : Refers others r) (h : binary? op kind l r = some text) :
    Refers (binaryReferences kind op ++ (refs ++ others)) text := by
  cases kind with
  | int => exact refers_intBinary hl hr h
  | long => exact refers_longHelper hl hr h
  | float | double =>
      have hreal := refers_realBinary hl hr h
      exact hreal
  | bool =>
      have hbool := refers_boolBinary hl hr h
      cases op <;> exact hbool
  | ref =>
      have href := refers_refBinary hl hr h
      cases op <;> exact href

theorem refers_narrow (target : Ty) (hv : Refers refs v) :
    Refers refs (Convert.narrow target v) := by
  unfold Convert.narrow
  split
  · exact hv.within [] (by decide) (by decide) (by decide)
  · exact hv.within [] (by decide) (by decide) (by decide)
  · exact hv.within [] (by decide) (by decide) (by decide)
  · exact hv

/-- A conversion refers to what it converts, and to what it converts with. -/
theorem refers_convert {source target : Ty} (hv : Refers refs v)
    (h : convert? source target v = some text) :
    Refers (conversionReferences source target ++ refs) text := by
  have hdone : ∀ {own : List Reference} {front back : String},
      some (front ++ v ++ back) = some text → Opening (spelled own) front → Mentions [] back →
        breaks back = true → Refers (own ++ refs) text := fun hsame hfront hback hbreaks =>
    Option.some.inj hsame ▸ hv.within _ hfront hback hbreaks
  have hnarrow : ∀ {front : String}, some (Convert.narrow target (front ++ v ++ ")")) = some text →
      Opening ["N"] front → Refers ([.global .runtime] ++ refs) text := by
    intro front hsame hfront
    have hcall := hv.within [.global .runtime] hfront (show Mentions [] ")" by decide) (by decide)
    exact Option.some.inj hsame ▸ refers_narrow target hcall
  unfold convert? at h
  split at h
  · obtain ⟨hboth, hgroup⟩ := Option.ite_none_right_eq_some.1 h
    obtain ⟨hsource, -⟩ := Bool.and_eq_true_iff.1 hboth
    have hnone : conversionReferences source target = [] := by
      cases source <;> cases hsource <;> rfl
    rw [hnone]
    exact hdone hgroup (by decide) (by decide) (by decide)
  unfold conversionReferences
  cases hkind : source.kind with
  | bool =>
      rw [hkind] at h
      cases target with
      | bool => exact Option.some.inj h ▸ hv
      | byte | char | short | int => exact hdone h (by decide) (by decide) (by decide)
      | _ => cases h
  | int =>
      rw [hkind] at h
      cases target with
      | void | ref _ | array _ => cases h
      | _ => exact hdone h (by decide) (by decide) (by decide)
  | long =>
      rw [hkind] at h
      cases target with
      | long | float | double => exact hdone h (by decide) (by decide) (by decide)
      | byte | char | short | int => exact hnarrow h (by decide)
      | _ => cases h
  | float | double =>
      rw [hkind] at h
      cases target with
      | long | float | double => exact hdone h (by decide) (by decide) (by decide)
      | byte | char | short | int => exact hnarrow h (by decide)
      | _ => cases h
  | ref =>
      rw [hkind] at h
      cases target <;> cases h

end Operators

section Lists

/-- Texts with what they refer to, in turn. -/
inductive ReferInTurn : List Reference → List String → Prop where
  | nil : ReferInTurn [] []
  | cons {refs others : List Reference} {text : String} {texts : List String}
      (h : Refers refs text) (hrest : ReferInTurn others texts) :
      ReferInTurn (refs ++ others) (text :: texts)

variable {refs : List Reference} {texts : List String}

theorem ReferInTurn.intercalate (h : ReferInTurn refs texts) {separator : String}
    (hseparator : Separates separator) : Refers refs (separator.intercalate texts) := by
  induction h with
  | nil =>
      rw [String.intercalate_nil]
      exact refers_nil (by decide)
  | @cons refs others text texts htext hrest ih =>
      cases texts with
      | nil =>
          cases hrest
          simpa using htext
      | cons other texts =>
          rw [String.intercalate_cons_cons]
          exact htext.separated hseparator ih

theorem Refers.member {text : String} (h : Refers refs text) (name : String) :
    Refers refs (text ++ Script.member name) :=
  h.plain (mentions_member name) (breaks_member name)

theorem Refers.arguments {text : String} {others : List Reference} (h : Refers others text)
    (hargs : ReferInTurn refs texts) :
    Refers (others ++ refs) (text ++ Emission.arguments texts) := by
  have hlist : Refers refs (", ".intercalate texts) := hargs.intercalate (by decide)
  refine h.append (hlist.within [] (by decide) (by decide) (by decide)) ?_
  rw [Emission.arguments, String.append_assoc]
  exact breaks_append (by decide) (by decide) _

end Lists

section Constants

open Number

theorem refers_real (bits : Nat) : Refers (realReferences bits) (real bits) := by
  have hminus : Opening [] "-" := by decide
  have hinfinity : Mentions ["Infinity"] scripted.infinity := by decide
  unfold real Style.text realReferences
  cases double.decode bits with
  | nan => exact mentions_wrapNegative (show Mentions ["NaN"] scripted.nan by decide)
  | infinite negative =>
      cases negative with
      | true => exact mentions_wrapNegative (hminus.append hinfinity)
      | false => exact mentions_wrapNegative hinfinity
  | finite negative significand exponent =>
      have hmagnitude := mentions_numeral
        (Brackets.isNumeral_magnitude scripted double significand exponent)
      cases negative with
      | true => exact mentions_wrapNegative (hminus.append hmagnitude)
      | false => exact mentions_wrapNegative hmagnitude

theorem refers_constant {v : Literal} (h : ∀ text, v ≠ .string text) :
    Refers v.references (constant v) := by
  cases v with
  | null => exact refers_nil (by decide)
  | bool b => cases b <;> exact refers_nil (by decide)
  | int v => exact mentions_wrapNegative (mentions_integer v.toInt)
  | long v =>
      exact refers_call₂ (refers_nil (mentions_integer _)) (refers_nil (mentions_integer _))
        [.global .runtime] (by decide)
  | float bits => exact refers_real _
  | double bits => exact refers_real _
  | char unit => exact mentions_natural _
  | string text => exact absurd rfl (h text)

theorem zero_ne_string (type : Ty) (text : String) : type.zero ≠ .string text := by
  cases type <;> nofun

end Constants

end ClassScript.Words
