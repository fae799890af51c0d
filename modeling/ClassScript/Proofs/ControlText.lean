import ClassScript.Emission.Body
import ClassScript.Proofs.Denotation
import Mathlib.Data.List.Induction

/-!
Switch statements and chains of conditions in script text: which lines are done
for a value of the subject. A label is strictly compared with the subject, and
from the first one that is equal the lines get done as far as a break; of a
chain, those under the first condition that holds.
-/

namespace ClassScript.Reading

/-- Lines of text, each with its level of indentation. -/
abbrev Lines := List (Nat × String)

/-- A line that opens a part of a statement, and the lines under it. -/
structure Part where
  head : String
  body : Lines

/-- The line is a label, with the expression that is compared to the subject;
the default has none. -/
inductive ReadsLabel (text : String) : Option Tree → Prop where
  | case {t : Tree} {ts : List Token}
      (htokens : tokens? text = some (.word "case" :: ts ++ [.sign ":"]))
      (h : Derives (.expression 0 t) ts) : ReadsLabel text (some t)
  | default (htokens : tokens? text = some [.word "default", .sign ":"]) : ReadsLabel text none

/-- The line opens a link of a chain, the first one or a later one, with its
condition; the last may have none. -/
inductive ReadsLink (text : String) : Bool → Option Tree → Prop where
  | first {t : Tree} {ts : List Token}
      (htokens : tokens? text = some (.word "if" :: .sign "(" :: ts ++ [.sign ")"]))
      (h : Derives (.expression 0 t) ts) : ReadsLink text true (some t)
  | next {t : Tree} {ts : List Token}
      (htokens : tokens? text = some (.word "else" :: .word "if" :: .sign "(" :: ts ++ [.sign ")"]))
      (h : Derives (.expression 0 t) ts) : ReadsLink text false (some t)
  | last (htokens : tokens? text = some [.word "else"]) : ReadsLink text false none

/-- Equality of values of one kind. -/
def Value.strictlyEqual : Value → Value → Bool
  | .boolean a, .boolean b => a = b
  | .boolean _, _ | _, .boolean _ => false
  | v, w => v.integer = w.integer

/-- The last of the lines leaves the statement. -/
def Breaks (lines : Lines) : Prop :=
  lines.getLast?.map Prod.snd = some "break;"

instance (lines : Lines) : Decidable (Breaks lines) :=
  inferInstanceAs (Decidable (_ = _))

/-- What is done from a label on: the lines under it, and unless they end with a
break those under the next labels too. -/
def entered : List Part → Lines
  | [] => []
  | p :: rest => if Breaks p.body then p.body else p.body ++ entered rest

/-- What a switch statement does for a value of its subject. -/
inductive SwitchTakes (runtime : Runtime) (scope : Scope) (subject : Value) :
    List Part → Lines → Prop where
  | hit {p : Part} {rest : List Part} {t : Tree} {v : Value} (hlabel : ReadsLabel p.head (some t))
      (hv : eval runtime scope t = some v) (hequal : subject.strictlyEqual v = true) :
      SwitchTakes runtime scope subject (p :: rest) (entered (p :: rest))
  | miss {p : Part} {rest : List Part} {t : Tree} {v : Value} {taken : Lines}
      (hlabel : ReadsLabel p.head (some t)) (hv : eval runtime scope t = some v)
      (hother : subject.strictlyEqual v = false) (h : SwitchTakes runtime scope subject rest taken) :
      SwitchTakes runtime scope subject (p :: rest) taken
  | default {p : Part} (hlabel : ReadsLabel p.head none) :
      SwitchTakes runtime scope subject [p] p.body

/-- What a chain of conditions does, nothing if no condition holds and there is
no last link. -/
inductive ChainTakes (runtime : Runtime) (scope : Scope) : Bool → List Part → Lines → Prop where
  | taken {first : Bool} {p : Part} {rest : List Part} {t : Tree} {v : Value}
      (hlink : ReadsLink p.head first (some t)) (hv : eval runtime scope t = some v)
      (htrue : v.truthy = true) : ChainTakes runtime scope first (p :: rest) p.body
  | passed {first : Bool} {p : Part} {rest : List Part} {t : Tree} {v : Value} {taken : Lines}
      (hlink : ReadsLink p.head first (some t)) (hv : eval runtime scope t = some v)
      (hfalse : v.truthy = false) (h : ChainTakes runtime scope false rest taken) :
      ChainTakes runtime scope first (p :: rest) taken
  | last {p : Part} (hlink : ReadsLink p.head false none) :
      ChainTakes runtime scope false [p] p.body
  | nothing {first : Bool} : ChainTakes runtime scope first [] []

section Uniqueness

theorem ReadsLabel.unique {text : String} {label label' : Option Tree} (h : ReadsLabel text label)
    (h' : ReadsLabel text label') : label = label' := by
  cases h with
  | case htokens hderives =>
      cases h' with
      | case htokens' hderives' =>
          rw [htokens, Option.some.injEq] at htokens'
          obtain rfl := by simpa using htokens'
          rw [hderives.unique hderives']
      | default htokens' => simp [htokens] at htokens'
  | default htokens =>
      cases h' with
      | case htokens' _ => simp [htokens] at htokens'
      | default _ => rfl

theorem ReadsLink.unique {text : String} {first : Bool} {link link' : Option Tree}
    (h : ReadsLink text first link) (h' : ReadsLink text first link') : link = link' := by
  cases h with
  | first htokens hderives =>
      cases h' with
      | first htokens' hderives' =>
          rw [htokens, Option.some.injEq] at htokens'
          obtain rfl := by simpa using htokens'
          rw [hderives.unique hderives']
  | next htokens hderives =>
      cases h' with
      | next htokens' hderives' =>
          rw [htokens, Option.some.injEq] at htokens'
          obtain rfl := by simpa using htokens'
          rw [hderives.unique hderives']
      | last htokens' => simp [htokens] at htokens'
  | last htokens =>
      cases h' with
      | next htokens' _ => simp [htokens] at htokens'
      | last _ => rfl

variable {runtime : Runtime} {scope : Scope}

theorem entered_empty (head : String) (rest : List Part) :
    entered (⟨head, []⟩ :: rest) = entered rest := by
  simp [entered, Breaks]

theorem entered_breaks {p : Part} (h : Breaks p.body) (rest : List Part) :
    entered (p :: rest) = p.body := by
  rw [entered, if_pos h]

theorem SwitchTakes.hitEntered {subject v : Value} {p : Part} {rest : List Part} {t : Tree}
    {taken : Lines} (hlabel : ReadsLabel p.head (some t)) (hv : eval runtime scope t = some v)
    (hequal : subject.strictlyEqual v = true) (htaken : entered (p :: rest) = taken) :
    SwitchTakes runtime scope subject (p :: rest) taken := by
  rw [← htaken]
  exact .hit hlabel hv hequal

/-- A switch statement does one thing only. -/
theorem SwitchTakes.unique {subject : Value} {labels : List Part} {taken taken' : Lines}
    (h : SwitchTakes runtime scope subject labels taken)
    (h' : SwitchTakes runtime scope subject labels taken') : taken = taken' := by
  induction h with
  | hit hlabel hv hequal =>
      cases h' with
      | hit _ _ _ => rfl
      | miss hlabel' hv' hother _ =>
          obtain rfl := Option.some.inj (hlabel.unique hlabel')
          obtain rfl := Option.some.inj (hv.symm.trans hv')
          rw [hequal] at hother
          cases hother
      | default hlabel' => cases hlabel.unique hlabel'
  | miss hlabel hv hother _ ih =>
      cases h' with
      | hit hlabel' hv' hequal =>
          obtain rfl := Option.some.inj (hlabel.unique hlabel')
          obtain rfl := Option.some.inj (hv.symm.trans hv')
          rw [hequal] at hother
          cases hother
      | miss _ _ _ hrest => exact ih hrest
      | default hlabel' => cases hlabel.unique hlabel'
  | default hlabel =>
      cases h' with
      | hit hlabel' _ _ => cases hlabel.unique hlabel'
      | miss hlabel' _ _ _ => cases hlabel.unique hlabel'
      | default _ => rfl

/-- So does a chain. -/
theorem ChainTakes.unique {first : Bool} {links : List Part} {taken taken' : Lines}
    (h : ChainTakes runtime scope first links taken)
    (h' : ChainTakes runtime scope first links taken') : taken = taken' := by
  induction h with
  | taken hlink hv htrue =>
      cases h' with
      | taken _ _ _ => rfl
      | passed hlink' hv' hfalse _ =>
          obtain rfl := Option.some.inj (hlink.unique hlink')
          obtain rfl := Option.some.inj (hv.symm.trans hv')
          rw [htrue] at hfalse
          cases hfalse
      | last hlink' => cases hlink.unique hlink'
  | passed hlink hv hfalse _ ih =>
      cases h' with
      | taken hlink' hv' htrue =>
          obtain rfl := Option.some.inj (hlink.unique hlink')
          obtain rfl := Option.some.inj (hv.symm.trans hv')
          rw [htrue] at hfalse
          cases hfalse
      | passed _ _ _ hrest => exact ih hrest
      | last hlink' => cases hlink.unique hlink'
  | last hlink =>
      cases h' with
      | taken hlink' _ _ => cases hlink.unique hlink'
      | passed hlink' _ _ _ => cases hlink.unique hlink'
      | last _ => rfl
  | nothing =>
      cases h' with
      | nothing => rfl

end Uniqueness

section Texts

open Emission Integers

theorem readsLabel_case (v : Int) :
    ReadsLabel ("case " ++ Text.integer v ++ ":") (some (integerTree v)) := by
  have hbefore : closedTokens? "case ".toList = some [.word "case"] := by decide
  have hafter : Piece ":" [.sign ":"] := by decide
  obtain ⟨ts, hderives, hspells⟩ := (operand_decimal v).between (spells_closed hbefore) hafter
  exact .case hspells.tokens_eq (hderives.loosen (Nat.zero_le _))

theorem readsLabel_default : ReadsLabel "default:" none :=
  .default (by decide)

/-- Text that is an expression of a level, with its tree. -/
def Stands (level : Nat) (text : String) (t : Tree) : Prop :=
  ∃ ts, Spells apart text.toList ts ∧ Derives (.expression level t) ts

theorem Stands.loosen {low high : Nat} (hle : low ≤ high) {text : String} {t : Tree}
    (h : Stands high text t) : Stands low text t := by
  obtain ⟨ts, hspells, hderives⟩ := h
  exact ⟨ts, hspells, hderives.loosen hle⟩

/-- Operators of one level are done from the left. -/
theorem Stands.binary {op middle left right : String} {level : Nat} {l r : Tree}
    (hop : precedence? op = some level) (hpiece : Piece middle [.sign op])
    (hl : Stands level left l) (hr : Stands (level + 1) right r) :
    Stands level (left ++ middle ++ right) (.binary op l r) := by
  obtain ⟨ls, hleft, hl⟩ := hl
  obtain ⟨rs, hright, hr⟩ := hr
  obtain ⟨hne, hapart⟩ := hpiece.follows
  refine ⟨ls ++ [.sign op] ++ rs, ?_, ?_⟩
  · rw [String.toList_append, String.toList_append]
    exact (hleft.append (spells_closed hpiece.2) hne hapart).append hright
      (hright.ne_nil hr.ne_nil) fun _ _ => trivial
  · simpa using Derives.binary hop hl hr

/-- A condition between the keyword of a link and its closing bracket. -/
theorem Stands.link {cond : String} {t : Tree} (h : Stands 0 cond t) (first : Bool) :
    ReadsLink ((if first then "if" else "else if") ++ " (" ++ cond ++ ")") first (some t) := by
  obtain ⟨ts, hspells, hderives⟩ := h
  obtain ⟨hne, hapart⟩ := bracket_closes.follows
  have htokens : ∀ {before : String} {us : List Token}, closedTokens? before.toList = some us →
      tokens? (before ++ cond ++ ")") = some (us ++ ts ++ [.sign ")"]) := by
    intro before us hbefore
    have hfront := (spells_closed hbefore).append hspells (hspells.ne_nil hderives.ne_nil)
      fun _ _ => trivial
    have hall : Spells anything (before ++ cond ++ ")").toList (us ++ ts ++ [.sign ")"]) := by
      rw [String.toList_append, String.toList_append]
      exact hfront.append (spells_closed bracket_closes.2) hne hapart
    exact hall.tokens_eq
  cases first with
  | true =>
      have hopen : closedTokens? ("if" ++ " (").toList = some [.word "if", .sign "("] := by decide
      exact .first (htokens hopen) hderives
  | false =>
      have hopen : closedTokens? ("else if" ++ " (").toList =
          some [.word "else", .word "if", .sign "("] := by decide
      exact .next (htokens hopen) hderives

theorem readsLink_else : ReadsLink "else" false none :=
  .last (by decide)

/-- A variable compared with a value. -/
def comparison (name : String) (v : Int32) : Tree :=
  .binary "==" (.reference name) (integerTree v.toInt)

/-- The disjunction of comparisons with several values, done from the left. -/
def comparisons (name : String) (v : Int32) (rest : List Int32) : Tree :=
  rest.foldl (fun t v => .binary "||" t (comparison name v)) (comparison name v)

theorem stands_comparison {name : String} (hname : Operand name (.reference name)) (v : Int32) :
    Stands 6 (name ++ " == " ++ Text.integer v.toInt) (comparison name v) := by
  have hop : precedence? "==" = some 6 := by decide
  have hpiece : Piece " == " [.sign "=="] := by decide
  have hleft : Stands 6 name (.reference name) := Stands.loosen (by omega) hname
  have hright : Stands 7 (Text.integer v.toInt) (integerTree v.toInt) :=
    Stands.loosen (by omega) (operand_decimal v.toInt)
  exact Stands.binary hop hpiece hleft hright

/-- The condition of a link reads as the disjunction of its comparisons. -/
theorem stands_caseCondition {name : String} (hname : Operand name (.reference name)) (v : Int32)
    (rest : List Int32) : Stands 1 (caseCondition name (v :: rest)) (comparisons name v rest) := by
  have hop : precedence? "||" = some 1 := by decide
  have hpiece : Piece " || " [.sign "||"] := by decide
  have hone : ∀ v, Stands 2 (name ++ " == " ++ Text.integer v.toInt) (comparison name v) :=
    fun v => (stands_comparison hname v).loosen (by omega)
  induction rest using List.reverseRecOn with
  | nil =>
      have htext : caseCondition name [v] = name ++ " == " ++ Text.integer v.toInt := by
        simp [caseCondition]
      rw [htext]
      exact (hone v).loosen (by omega)
  | append_singleton rest last ih =>
      have htext : caseCondition name (v :: (rest ++ [last])) =
          caseCondition name (v :: rest) ++ " || " ++ (name ++ " == " ++ Text.integer last.toInt) := by
        simp only [caseCondition, ← List.cons_append, List.map_append]
        rw [String.intercalate_append_of_ne_nil (by simp) (by simp)]
        simp
      rw [htext, comparisons, List.foldl_append]
      exact Stands.binary hop hpiece ih (hone last)

section Values

variable {runtime : Runtime} {scope : Scope} {name : String} {w : Int32}

theorem eval_comparison (hname : scope.lookup name = some (Datum.int w).value) (v : Int32) :
    eval runtime scope (comparison name v) = some (.boolean (w = v)) := by
  have hleft : eval runtime scope (.reference name) = some (Datum.int w).value := by
    rw [eval, hname]
  rw [comparison, eval_binary (by decide) (by decide) hleft (eval_integer v)]
  simp [Value.binary?, Int32.toInt_inj]

theorem eval_or {l r : Tree} {a b : Bool} (hl : eval runtime scope l = some (.boolean a))
    (hr : eval runtime scope r = some (.boolean b)) :
    eval runtime scope (.binary "||" l r) = some (.boolean (a || b)) := by
  cases a <;> simp [eval, hl, hr, Value.truthy]

/-- A condition holds for the values that it was made of. -/
theorem eval_comparisons (hname : scope.lookup name = some (Datum.int w).value) (v : Int32)
    (rest : List Int32) :
    eval runtime scope (comparisons name v rest) = some (.boolean (w ∈ v :: rest)) := by
  induction rest using List.reverseRecOn with
  | nil =>
      rw [comparisons, List.foldl_nil, eval_comparison hname v]
      simp
  | append_singleton rest last ih =>
      have hstep : comparisons name v (rest ++ [last]) =
          .binary "||" (comparisons name v rest) (comparison name last) := by
        rw [comparisons, List.foldl_append]
        rfl
      rw [hstep, eval_or ih (eval_comparison hname last), ← Bool.decide_or]
      simp [or_assoc]

end Values

end Texts

end ClassScript.Reading
