import ClassScript.Emission.Expression
import ClassScript.Proofs.BracketReading
import ClassScript.Proofs.OperatorShapes
import ClassScript.Proofs.ShortestDigits

/-!
The texts that expressions are put together from, as operands: names, numbers and
constants, accesses and arguments, and what operators and conversions make of operands.
-/

namespace ClassScript.Brackets

open Script Position

theorem isInert_of_isVariableChar {c : Char} (h : isVariableChar c = true) : isInert c = true := by
  have hall : ∀ d ∈ ['"', '(', ')', '[', ']'], isVariableChar d = false :=
    forall_mem_of_all (by decide)
  refine decide_eq_true fun hmem => ?_
  exact Part.ne_of_isVariableChar h (hall c hmem) rfl

section Leaves

variable {text : String}

theorem outlined_variableChars (h : ∀ c ∈ text.toList, isVariableChar c = true) :
    Outlined text.toList text :=
  outlined_inert fun c hc => isInert_of_isVariableChar (h c hc)

/-- A word goes on with an access, whatever it is. -/
theorem goesOn_word (h : ∀ c ∈ text.toList, isVariableChar c = true) : GoesOn text := by
  obtain ⟨part, hpart, hgoes, -⟩ := Part.exists_read?_front h
  exact ⟨_, part, outlined_variableChars h, hpart, hgoes⟩

theorem isOperand_word (h : ∀ c ∈ text.toList, isVariableChar c = true) (hne : text ≠ "")
    (hnew : text ≠ "new") : IsOperand text := by
  obtain ⟨part, hpart, -, hends⟩ := Part.exists_read?_front h
  refine ⟨_, part, outlined_variableChars h, hpart, hends ?_ ?_⟩
  · exact fun hnil => hne (String.toList_inj.1 hnil)
  · exact fun hchars => hnew (String.toList_inj.1 hchars)

theorem isOperand_variableName (name : String) : IsOperand (variableName name) := by
  obtain ⟨hchars, first, hfirst, -⟩ := variableName_word name
  refine isOperand_word hchars (fun hempty => ?_) fun hnew => ?_
  · rw [hempty] at hfirst
    cases hfirst
  · exact variableName_notMem_keywords name (hnew ▸ by decide)

/-- Digits and points are read as a number if a digit is the first of them. -/
theorem exists_read?_numeral {chars : List Char} (hhead : chars.head?.any (·.isDigit) = true)
    (h : ∀ c ∈ chars, c.isDigit = true ∨ c = '.') :
    ∃ last, Part.front.read? chars = some (.number last) := by
  cases chars with
  | nil => cases hhead
  | cons first rest =>
      have hrest : ∀ c ∈ rest, isVariableChar c = true ∨ c = '.' := fun c hc =>
        (h c (List.mem_cons_of_mem _ hc)).imp_left isVariableChar_of_isDigit
      obtain ⟨last, hread⟩ := Part.read?_number hrest first
      have hnext : Part.front.next? first = some (.number first) := by
        rw [Part.next?_variableChar (isVariableChar_of_isDigit hhead)]
        exact if_pos hhead
      exact ⟨last, by rw [Part.read?, List.foldlM_cons, hnext]; exact hread⟩

theorem isInert_numeral {c : Char} (h : c.isDigit = true ∨ c = '.') : isInert c = true := by
  rcases h with hdigit | rfl
  · exact isInert_of_isVariableChar (isVariableChar_of_isDigit hdigit)
  · decide

theorem isOperand_numeral {chars : List Char} (hhead : chars.head?.any (·.isDigit) = true)
    (h : ∀ c ∈ chars, c.isDigit = true ∨ c = '.') : IsOperand (String.ofList chars) := by
  obtain ⟨last, hread⟩ := exists_read?_numeral hhead h
  refine ⟨chars, .number last, ?_, hread, rfl⟩
  rw [Outlined, String.toList_ofList]
  exact read?_inert fun c hc => isInert_numeral (h c hc)

theorem isOperand_natural (n : Nat) : IsOperand (Text.natural n) :=
  isOperand_numeral (Text.head?_toDigits_isDigit n) fun _ hc =>
    .inl (Text.isDigit_of_mem_toDigits hc)

theorem isClosed_negative (h : IsClosed text) : IsClosed ("-" ++ text) :=
  (isClosed_inert (by decide)).append h

theorem isClosed_integer (v : Int) : IsClosed (Text.integer v) := by
  unfold Text.integer
  split
  · exact isClosed_negative (isOperand_natural _).isClosed
  · exact (isOperand_natural _).isClosed

/-- A number in brackets if it is negative is an operand if it is one otherwise. -/
theorem isOperand_wrapNegative (h : IsClosed text)
    (hpositive : text.toList.head? ≠ some '-' → IsOperand text) :
    IsOperand (wrapNegative text) := by
  unfold wrapNegative
  split
  · exact h.operand _ _ (by decide)
  · next hhead => exact hpositive hhead

theorem isOperand_integer (v : Int) : IsOperand (wrapNegative (Text.integer v)) := by
  refine isOperand_wrapNegative (isClosed_integer v) fun hhead => ?_
  unfold Text.integer at hhead ⊢
  split
  · next hnegative => simp [hnegative] at hhead
  · exact isOperand_natural _

end Leaves

section Reals

open Number

variable {d : Digits}

/-- Digits with points between them, and perhaps an exponent with its sign. -/
inductive IsNumeral : List Char → Prop where
  | positional {chars : List Char} (hhead : chars.head?.any (·.isDigit) = true)
      (hchars : ∀ c ∈ chars, c.isDigit = true ∨ c = '.') : IsNumeral chars
  | scientific {mantissa sign exponent : List Char} (hhead : mantissa.head?.any (·.isDigit) = true)
      (hchars : ∀ c ∈ mantissa, c.isDigit = true ∨ c = '.')
      (hsign : sign = [] ∨ sign = ['-'] ∨ sign = ['+'])
      (hexponent : ∀ c ∈ exponent, c.isDigit = true) :
      IsNumeral (mantissa ++ 'e' :: (sign ++ exponent))

theorem isNumeral_positional (hne : d.digits ≠ []) (h : ∀ c ∈ d.digits, c.isDigit = true) :
    IsNumeral d.positional := by
  have hzero : ∀ n, ∀ c ∈ List.replicate n '0', c.isDigit = true := by
    intro n c hc
    rw [(List.mem_replicate.1 hc).2]
    rfl
  have hhead : d.digits.head?.any (·.isDigit) = true := any_head?_of_forall hne h
  unfold Digits.positional
  split
  · refine .positional rfl fun c hc => ?_
    simp only [List.mem_cons, List.mem_append] at hc
    rcases hc with rfl | rfl | hc | hc
    · exact .inl rfl
    · exact .inr rfl
    · exact .inl (hzero _ c hc)
    · exact .inl (h c hc)
  · dsimp only
    split
    · refine .positional ?_ fun c hc => ?_
      · rwa [List.append_assoc, List.head?_append_of_ne_nil _ hne]
      · simp only [List.mem_append, List.mem_cons, List.not_mem_nil, or_false] at hc
        rcases hc with (hc | hc) | rfl | rfl
        · exact .inl (h c hc)
        · exact .inl (hzero _ c hc)
        · exact .inr rfl
        · exact .inl rfl
    · refine .positional ?_ fun c hc => ?_
      · cases hdigits : d.digits with
        | nil => exact absurd hdigits hne
        | cons first rest => exact h first (hdigits ▸ List.mem_cons_self)
      · simp only [List.mem_append, List.mem_cons] at hc
        rcases hc with hc | rfl | hc
        · exact .inl (h c (List.mem_of_mem_take hc))
        · exact .inr rfl
        · exact .inl (h c (List.mem_of_mem_drop hc))

theorem isNumeral_scientific (hne : d.digits ≠ []) (h : ∀ c ∈ d.digits, c.isDigit = true)
    (plus : Bool) : IsNumeral (d.scientific plus) := by
  obtain ⟨mantissa, hmantissa, hhead, hchars⟩ : ∃ mantissa,
      d.scientific plus = mantissa ++ 'e' ::
        ((if d.exponent < 0 then ['-'] else if plus then ['+'] else []) ++
          Nat.toDigits 10 d.exponent.natAbs) ∧
      mantissa.head?.any (·.isDigit) = true ∧ ∀ c ∈ mantissa, c.isDigit = true ∨ c = '.' := by
    refine ⟨_, rfl, ?_⟩
    split
    · next hnil => exact absurd hnil hne
    · next first hdigits =>
        have hfirst := h first (hdigits ▸ List.mem_cons_self)
        exact ⟨hfirst, fun c hc => .inl (List.mem_singleton.1 hc ▸ hfirst)⟩
    · next first rest _ hdigits =>
        rw [hdigits] at h
        obtain ⟨hfirst, hrest⟩ := List.forall_mem_cons.1 h
        exact ⟨hfirst, List.forall_mem_cons.2 ⟨.inl hfirst, List.forall_mem_cons.2
          ⟨.inr rfl, fun c hc => .inl (hrest c hc)⟩⟩⟩
  rw [hmantissa]
  refine .scientific hhead hchars ?_ fun c hc => Text.isDigit_of_mem_toDigits hc
  split
  · exact .inr (.inl rfl)
  · split
    · exact .inr (.inr rfl)
    · exact .inl rfl

theorem isNumeral_magnitude (style : Style) (f : Format) (significand : Nat) (exponent : Int) :
    IsNumeral (style.magnitude f significand exponent) := by
  unfold Style.magnitude
  split
  · exact .positional rfl (forall_mem_of_all (by decide))
  · next hne =>
      obtain ⟨hnonempty, hdigits⟩ := f.digits_shortest style.tie (Nat.pos_of_ne_zero hne) exponent
      dsimp only
      split
      · exact isNumeral_positional hnonempty hdigits
      · exact isNumeral_scientific hnonempty hdigits style.plus

/-- The sign of an exponent belongs to the number. -/
theorem IsNumeral.isOperand {chars : List Char} (h : IsNumeral chars) :
    IsOperand (String.ofList chars) := by
  cases h with
  | positional hhead hchars => exact isOperand_numeral hhead hchars
  | @scientific mantissa sign exponent hhead hchars hsign hexponent =>
      have hdigits : ∀ c ∈ exponent, isVariableChar c = true ∨ c = '.' :=
        fun c hc => .inl (isVariableChar_of_isDigit (hexponent c hc))
      obtain ⟨last, hread⟩ := exists_read?_numeral hhead hchars
      obtain ⟨other, htail⟩ : ∃ other, (Part.number last).read? ('e' :: (sign ++ exponent)) =
          some (.number other) := by
        have hmark : (Part.number last).next? 'e' = some (.number 'e') :=
          Part.next?_variableChar (by decide)
        rw [Part.read?, List.foldlM_cons, hmark]
        rcases hsign with rfl | rfl | rfl
        · exact Part.read?_number hdigits 'e'
        · exact Part.read?_number hdigits '-'
        · exact Part.read?_number hdigits '+'
      refine ⟨mantissa ++ 'e' :: (sign ++ exponent), .number other, ?_, ?_, rfl⟩
      · rw [Outlined, String.toList_ofList]
        refine read?_inert fun c hc => ?_
        simp only [List.mem_append, List.mem_cons] at hc
        rcases hc with hc | rfl | hc | hc
        · exact isInert_numeral (hchars c hc)
        · decide
        · rcases hsign with rfl | rfl | rfl
          · cases hc
          · exact List.mem_singleton.1 hc ▸ by decide
          · exact List.mem_singleton.1 hc ▸ by decide
        · exact isInert_numeral (.inl (hexponent c hc))
      · rw [Part.read?_append, hread]
        exact htail

theorem isOperand_real (bits : Nat) : IsOperand (real bits) := by
  have hinfinity : IsOperand scripted.infinity :=
    isOperand_word (forall_mem_of_all (by decide)) (by decide) (by decide)
  unfold real Style.text
  cases double.decode bits with
  | nan =>
      have hnan : IsOperand scripted.nan :=
        isOperand_word (forall_mem_of_all (by decide)) (by decide) (by decide)
      exact isOperand_wrapNegative hnan.isClosed fun _ => hnan
  | infinite negative =>
      cases negative with
      | true => exact isOperand_wrapNegative (isClosed_negative hinfinity.isClosed) (by simp)
      | false => exact isOperand_wrapNegative hinfinity.isClosed fun _ => hinfinity
  | finite negative significand exponent =>
      have hmagnitude := (isNumeral_magnitude scripted double significand exponent).isOperand
      cases negative with
      | true => exact isOperand_wrapNegative (isClosed_negative hmagnitude.isClosed) (by simp)
      | false => exact isOperand_wrapNegative hmagnitude.isClosed fun _ => hmagnitude

end Reals

section Accesses

variable {text inner : String}

/-- What goes on with a name behind a point is an operand. -/
theorem GoesOn.point (h : GoesOn text) {name : String}
    (hname : ∀ c ∈ name.toList, isVariableChar c = true) : IsOperand (text ++ ("." ++ name)) := by
  obtain ⟨outline, part, houtline, hpart, hgoes⟩ := h
  obtain ⟨next, hnext, hends⟩ := Part.exists_read?_point hgoes hname
  have hpoint : Outlined ('.' :: name.toList) ("." ++ name) := by
    have hfront : Outlined ['.'] "." := outlined_inert (forall_mem_of_all (by decide))
    exact hfront.append (outlined_variableChars hname)
  refine ⟨outline ++ '.' :: name.toList, next, houtline.append hpoint, ?_, hends⟩
  rw [Part.read?_append, hpart]
  exact hnext

/-- What goes on with brackets is an operand. -/
theorem GoesOn.bracket (h : GoesOn text) {opener : Char} (hopener : opener = '(' ∨ opener = '[')
    (hinner : Outlined [opener] inner) : IsOperand (text ++ inner) := by
  obtain ⟨outline, part, houtline, hpart, hgoes⟩ := h
  obtain ⟨next, hnext, hends⟩ := Part.exists_next? hgoes (.inr hopener)
  refine ⟨outline ++ [opener], next, houtline.append hinner, ?_, hends⟩
  rw [Part.read?_append, hpart, Option.bind_some, Part.read?, List.foldlM_cons, hnext]
  rfl

theorem GoesOn.member (h : GoesOn text) (name : String) :
    IsOperand (text ++ Script.member name) := by
  unfold Script.member
  split
  · next hplain => exact h.point fun _ hc => isVariableChar_of_isPlain hplain hc
  · exact h.bracket (.inr rfl) (isClosed_quote name).outlined_square

theorem isClosed_intercalate {texts : List String} (h : ∀ text ∈ texts, IsClosed text) :
    IsClosed (", ".intercalate texts) :=
  holds_intercalate (isClosed_inert (by decide))
    (fun htext hmore => (htext.append (isClosed_inert (by decide))).append hmore) h

theorem GoesOn.arguments (h : GoesOn text) {args : List String} (hargs : ∀ a ∈ args, IsClosed a) :
    IsOperand (text ++ Emission.arguments args) :=
  h.bracket (.inl rfl) (isClosed_intercalate hargs).outlined_round

end Accesses

section Operators

variable {v l r text : String}

/-- A call with two arguments. -/
theorem isOperand_call₂ (front : String) (hl : IsClosed l) (hr : IsClosed r)
    (h : enclose front ")" = true) : IsOperand (front ++ l ++ ", " ++ r ++ ")") := by
  have hseparator : IsClosed ", " := isClosed_inert (by decide)
  have hcall := ((hl.append hseparator).append hr).operand front ")" h
  simpa only [String.append_assoc] using hcall

/-- Two texts with a sign between them. -/
theorem IsClosed.apart (hl : IsClosed l) (op : String) (hop : op.toList.all isInert = true)
    (hr : IsClosed r) : IsClosed (l ++ " " ++ op ++ " " ++ r) := by
  have hblank : IsClosed " " := isClosed_inert (by decide)
  exact (((hl.append hblank).append (isClosed_inert hop)).append hblank).append hr

theorem isOperand_grouped {op : String} (hl : IsClosed l) (hr : IsClosed r)
    (hop : op.toList.all isInert = true) : IsOperand (Operator.grouped op l r) := by
  have hinner := (hl.apart op hop hr).operand "(" ")" (by decide)
  simpa only [Operator.grouped, String.append_assoc] using hinner

theorem isOperand_unary {op : UnaryOp} {kind : OperandKind} (hv : IsClosed v)
    (h : unary? op kind v = some text) : IsOperand text := by
  unfold unary? at h
  split at h
  all_goals cases h
  all_goals exact hv.operand _ _ (by decide)

theorem isOperand_binary {op : BinaryOp} {kind : OperandKind} (hl : IsClosed l) (hr : IsClosed r)
    (h : binary? op kind l r = some text) : IsOperand text := by
  have hsigns : ∀ sign ∈ signs, sign.toList.all isInert = true := forall_mem_of_all (by decide)
  have hhelpers : ∀ name ∈ helpers, enclose ("N." ++ name ++ "(") ")" = true :=
    forall_mem_of_all (by decide)
  cases shape_of_binary h with
  | grouped hsign => exact isOperand_grouped hl hr (hsigns _ hsign)
  | low hsign =>
      exact (isOperand_grouped hl hr (hsigns _ hsign)).isClosed.operand "(" "|0)" (by decide)
  | @truth sign hsign =>
      have hinner := (hl.apart sign (hsigns _ hsign) hr).operand "!!(" ")" (by decide)
      have hsame : "!!" ++ Operator.grouped sign l r =
          "!!(" ++ (l ++ " " ++ sign ++ " " ++ r) ++ ")" := by
        apply String.toList_injective
        simp [Operator.grouped]
      exact hsame ▸ hinner
  | rounded hsign =>
      exact (hl.apart _ (hsigns _ hsign) hr).operand "Math.fround(" ")" (by decide)
  | helper hname => exact isOperand_call₂ _ hl hr (hhelpers _ hname)
  | product => exact isOperand_call₂ _ hl hr (by decide)

/-- Conversions put what they convert into brackets, all but the one that does nothing. -/
theorem isOperand_convert {source target : Ty} (hv : IsOperand v)
    (h : convert? source target v = some text) : IsOperand text := by
  have hframes : ∀ frame ∈ conversionFrames, enclose frame.1 frame.2 = true :=
    forall_mem_of_all (by decide)
  cases shape_of_convert h with
  | unchanged => exact hv
  | framed hframe => exact hv.isClosed.operand _ _ (hframes _ hframe)
  | twice hframe hframe' =>
      have hinner := hv.isClosed.operand _ _ (hframes _ hframe)
      exact hinner.isClosed.operand _ _ (hframes _ hframe')

end Operators

end ClassScript.Brackets
