import ClassScript.Proofs.Grammar
import ClassScript.Script.Constant
import ClassScript.Script.Operator

/-!
The texts of operators, read back. Every operand is an expression that binds at
least as tightly as a unary operator, and each text built from operands is such
an expression again, with the tree that the operator has.
-/

namespace ClassScript.Reading

open Script

theorem Derives.loosen {low high : Nat} (hle : low ≤ high) {t : Tree} {ts : List Token}
    (h : Derives (.expression high t) ts) : Derives (.expression low t) ts := by
  induction high with
  | zero =>
      obtain rfl : low = 0 := by omega
      exact h
  | succ high ih =>
      rcases Nat.le_succ_iff.1 hle with hlow | rfl
      · exact ih hlow h.tighter
      · exact h

theorem Derives.ne_nil {phrase : Phrase} {ts : List Token} (h : Derives phrase ts) : ts ≠ [] := by
  induction h <;> simp_all

/-- Text that can stand at either side of an operator, with its tree. -/
def Operand (text : String) (t : Tree) : Prop :=
  ∃ ts, Spells apart text.toList ts ∧ Derives (.expression 11 t) ts

theorem Operand.reads {text : String} {t : Tree} (h : Operand text t) : Reads text t := by
  obtain ⟨ts, hspells, hderives⟩ := h
  exact ⟨ts, hspells.tokens_eq, hderives.loosen (Nat.zero_le _)⟩

/-- Fixed text that can stand behind an operand and before another. -/
def Piece (text : String) (ts : List Token) : Prop :=
  text.toList.head?.any (fun c => !isIdentifierPart c) = true ∧
    closedTokens? text.toList = some ts

instance (text : String) (ts : List Token) : Decidable (Piece text ts) :=
  inferInstanceAs (Decidable (_ ∧ _))

/-- A piece can follow anything that ends in a word. -/
theorem Piece.follows {text : String} {ts : List Token} (h : Piece text ts) :
    text.toList ≠ [] ∧ ∀ c ∈ text.toList.head?, apart c := by
  obtain ⟨hhead, _⟩ := h
  constructor
  · intro hnil
    simp [hnil] at hhead
  · intro c hc
    rw [hc, Option.any_some, Bool.not_eq_true'] at hhead
    exact hhead

theorem Spells.ne_nil {ends : Char → Prop} {text : List Char} {ts : List Token}
    (h : Spells ends text ts) (hne : ts ≠ []) : text ≠ [] := by
  rintro rfl
  exact hne h.eq_nil

theorem bracket_opens : closedTokens? "(".toList = some [.sign "("] := by decide

theorem bracket_closes : Piece ")" [.sign ")"] := by decide

section Pieces

variable {text : String} {ts us : List Token} {t : Tree}

/-- An operand between two pieces of text, with the tokens of both. -/
theorem Operand.between (h : Operand text t) {before after : String}
    (hbefore : Spells anything before.toList ts) (hafter : Piece after us) :
    ∃ xs, Derives (.expression 11 t) xs ∧
      Spells anything (before ++ text ++ after).toList (ts ++ xs ++ us) := by
  obtain ⟨xs, hspells, hderives⟩ := h
  obtain ⟨hne, hapart⟩ := hafter.follows
  refine ⟨xs, hderives, ?_⟩
  rw [String.toList_append, String.toList_append]
  exact (hbefore.append hspells (hspells.ne_nil hderives.ne_nil) fun _ _ => trivial).append
    (spells_closed hafter.2) hne hapart

theorem operand_of_spells (h : Spells anything text.toList ts)
    (hderives : Derives (.expression 11 t) ts) : Operand text t :=
  ⟨ts, h.weaken fun _ _ => trivial, hderives⟩

/-- An operand between fixed pieces is an operand when its tokens between theirs
are one. -/
theorem Operand.enclose (h : Operand text t) {before after : String} {u : Tree}
    (hbefore : closedTokens? before.toList = some ts) (hafter : Piece after us)
    (hderives : ∀ xs, Derives (.expression 11 t) xs → Derives (.expression 11 u) (ts ++ xs ++ us)) :
    Operand (before ++ text ++ after) u := by
  obtain ⟨xs, hxs, hspells⟩ := h.between (spells_closed hbefore) hafter
  exact operand_of_spells hspells (hderives xs hxs)

/-- The same for two operands. -/
theorem Operand.enclose₂ {other : String} {o u : Tree} {vs : List Token} (h : Operand text t)
    (hother : Operand other o) {before middle after : String}
    (hbefore : closedTokens? before.toList = some ts) (hmiddle : Piece middle us)
    (hafter : Piece after vs)
    (hderives : ∀ xs ys, Derives (.expression 11 t) xs → Derives (.expression 11 o) ys →
      Derives (.expression 11 u) (ts ++ xs ++ us ++ ys ++ vs)) :
    Operand (before ++ text ++ middle ++ other ++ after) u := by
  obtain ⟨xs, hxs, hspells⟩ := h.between (spells_closed hbefore) hmiddle
  obtain ⟨ys, hys, hspells'⟩ := hother.between hspells hafter
  exact operand_of_spells hspells' (hderives xs ys hxs hys)

theorem Derives.parenthesized (h : Derives (.expression 0 t) ts) :
    Derives (.expression 11 t) (.sign "(" :: ts ++ [.sign ")"]) :=
  h.group.tighter

end Pieces

section Operators

variable {text left right : String} {t l r : Tree}

theorem Operand.group (h : Operand text t) : Operand ("(" ++ text ++ ")") t := by
  apply h.enclose bracket_opens bracket_closes
  intro xs hxs
  exact (hxs.loosen (Nat.zero_le _)).parenthesized

theorem Derives.operators {op : String} {level : Nat} {xs ys : List Token}
    (hop : precedence? op = some level) (hl : Derives (.expression 11 l) xs)
    (hr : Derives (.expression 11 r) ys) :
    Derives (.expression level (.binary op l r)) (xs ++ .sign op :: ys) := by
  obtain ⟨_, hbound⟩ := precedence?_bounds hop
  exact .binary hop (hl.loosen (by omega)) (hr.loosen (by omega))

/-- A binary operator that is read as such between blanks. -/
def Groups (op : String) : Prop :=
  (precedence? op).isSome = true ∧ Piece (" " ++ op ++ " ") [.sign op]

instance (op : String) : Decidable (Groups op) :=
  inferInstanceAs (Decidable (_ ∧ _))

/-- Two operands around an operator. -/
theorem Operand.grouped {op : String} (hop : Groups op) (hl : Operand left l)
    (hr : Operand right r) : Operand (Operator.grouped op left right) (.binary op l r) := by
  obtain ⟨hop, hpiece⟩ := hop
  obtain ⟨level, hop⟩ := Option.isSome_iff_exists.1 hop
  have h : Operand ("(" ++ left ++ (" " ++ op ++ " ") ++ right ++ ")") (.binary op l r) := by
    apply hl.enclose₂ hr bracket_opens hpiece bracket_closes
    intro xs ys hxs hys
    have hinner := (Derives.operators hop hxs hys).loosen (Nat.zero_le _)
    simpa using hinner.parenthesized
  simpa [Operator.grouped, String.append_assoc] using h

/-- The same with two negations in front. -/
theorem Operand.truth {op : String} (hop : Groups op) (hl : Operand left l)
    (hr : Operand right r) :
    Operand ("!!" ++ Operator.grouped op left right) (.unary "!" (.unary "!" (.binary op l r))) := by
  obtain ⟨hop, hpiece⟩ := hop
  obtain ⟨level, hop⟩ := Option.isSome_iff_exists.1 hop
  have hbefore : closedTokens? "!!(".toList = some [.sign "!", .sign "!", .sign "("] := by decide
  have hnot : "!" ∈ unarySigns := by decide
  have h : Operand ("!!(" ++ left ++ (" " ++ op ++ " ") ++ right ++ ")")
      (.unary "!" (.unary "!" (.binary op l r))) := by
    apply hl.enclose₂ hr hbefore hpiece bracket_closes
    intro xs ys hxs hys
    have hinner := (Derives.operators hop hxs hys).loosen (Nat.zero_le _)
    simpa using (hinner.parenthesized.unary hnot).unary hnot
  have htext : "!!" ++ Operator.grouped op left right =
      "!!(" ++ left ++ (" " ++ op ++ " ") ++ right ++ ")" := by
    simp [Operator.grouped, ← String.toList_inj]
  rw [htext]
  exact h

/-- An operand with an operator and a number behind it. -/
theorem Operand.withNumber {op after : String} {level n : Nat} (hop : precedence? op = some level)
    (hpiece : Piece after [.sign op, .number n, .sign ")"]) (h : Operand text t) :
    Operand ("(" ++ text ++ after) (.binary op t (.number n)) := by
  apply h.enclose bracket_opens hpiece
  intro xs hxs
  have hinner := (Derives.operators hop hxs (.number n)).loosen (Nat.zero_le _)
  simpa using hinner.parenthesized

/-- The same with two operators of one level, where the first one is done
first. -/
theorem Operand.withNumbers {op op' after : String} {level m n : Nat}
    (hop : precedence? op = some level) (hop' : precedence? op' = some level)
    (hpiece : Piece after [.sign op, .number m, .sign op', .number n, .sign ")"])
    (h : Operand text t) :
    Operand ("(" ++ text ++ after) (.binary op' (.binary op t (.number m)) (.number n)) := by
  apply h.enclose bracket_opens hpiece
  intro xs hxs
  obtain ⟨_, hbound⟩ := precedence?_bounds hop
  have hfirst := Derives.operators hop hxs (.number m)
  have hboth := Derives.binary hop' hfirst ((Derives.number n).loosen (by omega))
  simpa using (hboth.loosen (Nat.zero_le _)).parenthesized

/-- A unary operator in front of brackets. -/
theorem Operand.unary {op before : String} (hop : op ∈ unarySigns)
    (hbefore : closedTokens? before.toList = some [.sign op, .sign "("]) (h : Operand text t) :
    Operand (before ++ text ++ ")") (.unary op t) := by
  apply h.enclose hbefore bracket_closes
  intro xs hxs
  have hinner := (hxs.loosen (Nat.zero_le 11)).parenthesized
  simpa using Derives.unary hop hinner

/-- A call of a member of a global with one argument. -/
theorem Operand.call {before object member : String} (hobject : object ∉ reservedWords)
    (hbefore : closedTokens? before.toList =
      some [.word object, .sign ".", .word member, .sign "("]) (h : Operand text t) :
    Operand (before ++ text ++ ")") (.call (.member (.reference object) member) [t]) := by
  apply h.enclose hbefore bracket_closes
  intro xs hxs
  have hcallee : Derives (.expression 12 (.member (.reference object) member))
      [.word object, .sign ".", .word member] := (Derives.reference hobject).member
  simpa using (hcallee.call (.argument (hxs.loosen (Nat.zero_le _)))).tighter

/-- And one with two arguments. -/
theorem Operand.call₂ {before object member : String} (hobject : object ∉ reservedWords)
    (hbefore : closedTokens? before.toList =
      some [.word object, .sign ".", .word member, .sign "("]) (hl : Operand left l)
    (hr : Operand right r) :
    Operand (before ++ left ++ ", " ++ right ++ ")")
      (.call (.member (.reference object) member) [l, r]) := by
  have hcomma : Piece ", " [.sign ","] := by decide
  apply hl.enclose₂ hr hbefore hcomma bracket_closes
  intro xs ys hxs hys
  have hcallee : Derives (.expression 12 (.member (.reference object) member))
      [.word object, .sign ".", .word member] := (Derives.reference hobject).member
  have hargs := Derives.moreArguments (hxs.loosen (Nat.zero_le _))
    (.argument (hys.loosen (Nat.zero_le _)))
  simpa using (hcallee.call hargs).tighter

theorem Operand.conditional {cond yes no : String} {c y n : Tree} (hc : Operand cond c)
    (hy : Operand yes y) (hn : Operand no n) :
    Operand ("(" ++ cond ++ " ? " ++ yes ++ " : " ++ no ++ ")") (.conditional c y n) := by
  have hquestion : Piece " ? " [.sign "?"] := by decide
  have hcolon : Piece " : " [.sign ":"] := by decide
  obtain ⟨cs, hcs, hspells⟩ := hc.between (spells_closed bracket_opens) hquestion
  obtain ⟨ys, hys, hspells'⟩ := hy.between hspells hcolon
  obtain ⟨ns, hns, hspells''⟩ := hn.between hspells' bracket_closes
  have hinner := Derives.conditional (hcs.loosen (by omega)) (hys.loosen (Nat.zero_le _))
    (hns.loosen (Nat.zero_le _))
  apply operand_of_spells hspells''
  simpa using hinner.parenthesized

end Operators

end ClassScript.Reading
