import ClassScript.Model.Stmt
import Mathlib.Data.List.Basic
import Mathlib.Logic.Relation

/-!
What stands directly in an expression or a statement, and what stands anywhere in it.
The lists of all parts, each before its own, are put together from the direct ones, and
the expressions of a statement are those that its parts have, part by part.
-/

namespace ClassScript

/-- The operands of an expression, from left to right. -/
def Expr.operands : Expr → List Expr
  | .literal _ | .slot _ | .param _ | .this | .caught | .staticField _ => []
  | .instanceField operand _ | .unary _ _ operand | .cast operand _ _ | .instanceOf operand _
  | .checkCast operand _ | .newArray _ operand | .arrayLength operand => [operand]
  | .binary _ _ left right | .arrayGet left right => [left, right]
  | .callStatic _ args | .construct _ _ args => args
  | .callInstance object _ args | .callSuper object _ args => object :: args
  | .ternary cond yes no => [cond, yes, no]

namespace Stmt

/-- The expressions that a statement has itself, in the order of the text. -/
def operands : Stmt → List Expr
  | .eval value | .throw value | .setSlot _ value | .setStaticField _ value => [value]
  | .ret value => value.toList
  | .setInstanceField object _ value => [object, value]
  | .setArray array index value => [array, index, value]
  | .fillArray array _ values => array :: values
  | .when cond _ | .choose cond _ _ | .loop _ cond _ => [cond]
  | .switch subject _ _ => [subject]
  | .position _ _ | .nop | .block _ | .leave _ | .again _ | .tryCatch _ _ | .rethrow => []

/-- The statements that stand directly in a statement, in the order of the text. -/
def parts : Stmt → List Stmt
  | .block body => body
  | .when _ part | .loop _ _ part => [part]
  | .choose _ first second | .tryCatch first second => [first, second]
  | .switch _ cases otherwise => cases.map SwitchCase.body ++ [otherwise]
  | .position _ _ | .nop | .eval _ | .ret _ | .setSlot _ _ | .setInstanceField _ _ _
  | .setStaticField _ _ | .setArray _ _ _ | .fillArray _ _ _ | .leave _ | .again _ | .throw _
  | .rethrow => []

end Stmt

/-- The expression is the other one or stands in it, however deep. -/
def Expr.Contains : Expr → Expr → Prop :=
  Relation.ReflTransGen fun e d => d ∈ e.operands

/-- The statement is the other one or stands in it, however deep. -/
def Stmt.Contains : Stmt → Stmt → Prop :=
  Relation.ReflTransGen fun s part => part ∈ s.parts

/-- The expression stands in a statement or in one of its parts, however deep. -/
def Stmt.Computes (s : Stmt) (e : Expr) : Prop :=
  ∃ part, s.Contains part ∧ ∃ d ∈ part.operands, d.Contains e

section Closure

variable {α : Type} {parts all : α → List α} {size : α → Nat}

/-- Where all is put together from the parts, it has what can be reached through them. -/
theorem mem_iff_reflTransGen (hall : ∀ a, all a = a :: (parts a).flatMap all)
    (hsize : ∀ a, ∀ b ∈ parts a, size b < size a) {a b : α} :
    b ∈ all a ↔ Relation.ReflTransGen (fun a b => b ∈ parts a) a b := by
  constructor
  · induction hn : size a using Nat.strongRecOn generalizing a with
    | _ n ih =>
        intro hb
        rw [hall, List.mem_cons, List.mem_flatMap] at hb
        rcases hb with rfl | ⟨part, hpart, hb⟩
        · exact .refl
        · exact .head hpart (ih _ (hn ▸ hsize a part hpart) rfl hb)
  · intro h
    induction h using Relation.ReflTransGen.head_induction_on with
    | refl =>
        rw [hall]
        exact List.mem_cons_self
    | head hpart _ ih =>
        rw [hall]
        exact List.mem_cons_of_mem _ (List.mem_flatMap.2 ⟨_, hpart, ih⟩)

end Closure

section Expressions

theorem subtermsOfAll_eq_flatMap (es : List Expr) : subtermsOfAll es = es.flatMap Expr.subterms := by
  induction es with
  | nil => rfl
  | cons e rest ih => rw [subtermsOfAll, ih, List.flatMap_cons]

theorem Expr.subterms_eq (e : Expr) : e.subterms = e :: e.operands.flatMap Expr.subterms := by
  cases e <;> simp [Expr.subterms, Expr.operands, subtermsOfAll_eq_flatMap]

theorem Expr.sizeOf_operand (e d : Expr) (h : d ∈ e.operands) : sizeOf d < sizeOf e := by
  cases e with
  | callStatic method args | construct owner ctor args =>
      have hlt : sizeOf d < sizeOf args := List.sizeOf_lt_of_mem h
      simp only [callStatic.sizeOf_spec, construct.sizeOf_spec]
      omega
  | callInstance object method args | callSuper object method args =>
      simp only [callInstance.sizeOf_spec, callSuper.sizeOf_spec]
      rcases List.mem_cons.1 h with rfl | h
      · omega
      · have hlt : sizeOf d < sizeOf args := List.sizeOf_lt_of_mem h
        omega
  | _ => grind [Expr.operands]

theorem Expr.mem_subterms {e d : Expr} : d ∈ e.subterms ↔ e.Contains d :=
  mem_iff_reflTransGen Expr.subterms_eq Expr.sizeOf_operand

end Expressions

section Statements

theorem substatementsOfAll_eq_flatMap (body : List Stmt) :
    substatementsOfAll body = body.flatMap Stmt.substatements := by
  induction body with
  | nil => rfl
  | cons s rest ih => rw [substatementsOfAll, ih, List.flatMap_cons]

theorem substatementsOfCases_eq_flatMap (cases : List SwitchCase) :
    substatementsOfCases cases = (cases.map SwitchCase.body).flatMap Stmt.substatements := by
  induction cases with
  | nil => rfl
  | cons c rest ih =>
      obtain ⟨values, body⟩ := c
      rw [substatementsOfCases, ih, List.map_cons, List.flatMap_cons]
      rfl

theorem expressionsOfAll_eq_flatMap (body : List Stmt) :
    expressionsOfAll body = body.flatMap Stmt.expressions := by
  induction body with
  | nil => rfl
  | cons s rest ih => rw [expressionsOfAll, ih, List.flatMap_cons]

theorem expressionsOfCases_eq_flatMap (cases : List SwitchCase) :
    expressionsOfCases cases = (cases.map SwitchCase.body).flatMap Stmt.expressions := by
  induction cases with
  | nil => rfl
  | cons c rest ih =>
      obtain ⟨values, body⟩ := c
      rw [expressionsOfCases, ih, List.map_cons, List.flatMap_cons]
      rfl

namespace Stmt

theorem substatements_eq (s : Stmt) : s.substatements = s :: s.parts.flatMap substatements := by
  cases s <;> simp [substatements, parts, substatementsOfAll_eq_flatMap,
    substatementsOfCases_eq_flatMap]

/-- The expressions of a statement are its own and then those of its parts. -/
theorem expressions_eq (s : Stmt) :
    s.expressions = subtermsOfAll s.operands ++ s.parts.flatMap expressions := by
  cases s with
  | ret value => cases value <;> simp [expressions, operands, parts, subtermsOfAll]
  | _ => simp [expressions, operands, parts, subtermsOfAll, expressionsOfAll_eq_flatMap,
      expressionsOfCases_eq_flatMap]

theorem sizeOf_body_lt {cases : List SwitchCase} {part : Stmt}
    (h : part ∈ cases.map SwitchCase.body) : sizeOf part < sizeOf cases := by
  obtain ⟨⟨values, body⟩, hc, rfl⟩ := List.mem_map.1 h
  have hlt := List.sizeOf_lt_of_mem hc
  rw [SwitchCase.arm.sizeOf_spec] at hlt
  rw [SwitchCase.body]
  omega

theorem sizeOf_part (s part : Stmt) (h : part ∈ s.parts) : sizeOf part < sizeOf s := by
  cases s with
  | block body =>
      have hlt : sizeOf part < sizeOf body := List.sizeOf_lt_of_mem h
      rw [block.sizeOf_spec]
      omega
  | switch subject cases otherwise =>
      rw [switch.sizeOf_spec]
      rcases List.mem_append.1 h with h | h
      · have hlt := sizeOf_body_lt h
        omega
      · obtain rfl := List.mem_singleton.1 h
        omega
  | _ => grind [parts]

theorem mem_substatements {s part : Stmt} : part ∈ s.substatements ↔ s.Contains part :=
  mem_iff_reflTransGen substatements_eq sizeOf_part

/-- All expressions of a statement are those of its parts, in the order of these. -/
theorem expressions_eq_flatMap (s : Stmt) :
    s.expressions = s.substatements.flatMap fun part => subtermsOfAll part.operands := by
  have hparts : ∀ part ∈ s.parts, part.expressions =
      part.substatements.flatMap fun part => subtermsOfAll part.operands :=
    fun part hpart =>
      have := sizeOf_part s part hpart
      expressions_eq_flatMap part
  rw [expressions_eq, substatements_eq, List.flatMap_cons, List.flatMap_assoc,
    List.flatMap_congr hparts]
termination_by sizeOf s

theorem mem_expressions {s : Stmt} {e : Expr} : e ∈ s.expressions ↔ s.Computes e := by
  simp only [expressions_eq_flatMap, List.mem_flatMap, mem_substatements, Computes,
    subtermsOfAll_eq_flatMap, Expr.mem_subterms]

end Stmt

end Statements

end ClassScript
