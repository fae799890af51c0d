import ClassScript.Model.Decode
import ClassScript.Proofs.ModelReading

/-!
Expressions, statements and bodies read back from their JSON form, by induction
on the tree: each alternative is read with the budget inside its own brackets.
-/

namespace ClassScript

open Json (Decodes decodes_string decodes_int32 decodes_uint32)

/-- The expression is a literal real number. -/
def Expr.isReal : Expr → Bool
  | .literal value => value.isReal
  | _ => false

/-- No literal among the expressions is a real number. -/
def WithoutReals (es : List Expr) : Prop :=
  ∀ e ∈ es, e.isReal = false

theorem WithoutReals.tail {e : Expr} {es : List Expr} (h : WithoutReals (e :: es)) :
    WithoutReals es :=
  (List.forall_mem_cons.mp h).2

theorem withoutReals_append {es fs : List Expr} :
    WithoutReals (es ++ fs) ↔ WithoutReals es ∧ WithoutReals fs :=
  List.forall_mem_append

section Expressions

theorem list_exprsToJson (es : List Expr) : Json.list (exprsToJson es) = .ofList Expr.toJson es := by
  have hmap : exprsToJson es = es.map Expr.toJson := by
    induction es with
    | nil => rfl
    | cons e rest ih => rw [exprsToJson, ih, List.map_cons]
  rw [hmap, Json.ofList]

theorem Expr.isNamed_toJson (e : Expr) : e.toJson.isNamed = true := by
  cases e <;> rfl

mutual

theorem Expr.decodes (e : Expr) (h : WithoutReals e.subterms) (budget : Nat) :
    Decodes budget (Expr.decode budget) e.toJson e := by
  rw [Expr.decode]
  match e with
  | .literal value =>
      exact .single rfl fun _ _ => (Literal.decodes (h _ (.head _))).map _
  | .slot name => exact .single rfl fun _ _ => (decodes_string name).map _
  | .param name => exact .single rfl fun _ _ => (decodes_string name).map _
  | .this => exact .unit rfl
  | .caught => exact .unit rfl
  | .instanceField object field =>
      exact .fields rfl fun _ _ => .record (by simp) (fun _ _ =>
        .cons (object.decodes h.tail _) (.cons field.decodes .nil)) rfl
  | .staticField field => exact .single rfl fun _ _ => field.decodes.map _
  | .unary op kind operand =>
      exact .fields rfl fun _ _ => .record (by simp) (fun _ _ =>
        .cons op.decodes (.cons kind.decodes (.cons (operand.decodes h.tail _) .nil))) rfl
  | .binary op kind left right =>
      obtain ⟨hleft, hright⟩ := withoutReals_append.mp h.tail
      exact .fields rfl fun _ _ => .record (by simp) (fun _ _ =>
        .cons op.decodes (.cons kind.decodes
          (.cons (left.decodes hleft _) (.cons (right.decodes hright _) .nil)))) rfl
  | .cast value source target =>
      exact .fields rfl fun _ _ => .record (by simp) (fun _ _ =>
        .cons (value.decodes h.tail _) (.cons source.decodes (.cons target.decodes .nil))) rfl
  | .instanceOf value type =>
      exact .fields rfl fun _ _ => .record (by simp) (fun _ _ =>
        .cons (value.decodes h.tail _) (.cons type.decodes .nil)) rfl
  | .checkCast value type =>
      exact .fields rfl fun _ _ => .record (by simp) (fun _ _ =>
        .cons (value.decodes h.tail _) (.cons type.decodes .nil)) rfl
  | .callStatic method args =>
      rw [Expr.toJson, list_exprsToJson]
      exact .fields rfl fun _ _ => .record (by simp) (fun _ _ =>
        .cons method.decodes (.cons (.list fun _ _ => decodes_exprs args h.tail _) .nil)) rfl
  | .callInstance object method args =>
      obtain ⟨hobject, hargs⟩ := withoutReals_append.mp h.tail
      rw [Expr.toJson, list_exprsToJson]
      exact .fields rfl fun _ _ => .record (by simp) (fun _ _ =>
        .cons (object.decodes hobject _) (.cons method.decodes
          (.cons (.list fun _ _ => decodes_exprs args hargs _) .nil))) rfl
  | .callSuper object method args =>
      obtain ⟨hobject, hargs⟩ := withoutReals_append.mp h.tail
      rw [Expr.toJson, list_exprsToJson]
      exact .fields rfl fun _ _ => .record (by simp) (fun _ _ =>
        .cons (object.decodes hobject _) (.cons method.decodes
          (.cons (.list fun _ _ => decodes_exprs args hargs _) .nil))) rfl
  | .construct owner ctor args =>
      rw [Expr.toJson, list_exprsToJson]
      exact .fields rfl fun _ _ => .record (by simp) (fun _ _ =>
        .cons owner.decodes (.cons ctor.decodes
          (.cons (.list fun _ _ => decodes_exprs args h.tail _) .nil))) rfl
  | .newArray type length =>
      exact .fields rfl fun _ _ => .record (by simp) (fun _ _ =>
        .cons type.decodes (.cons (length.decodes h.tail _) .nil)) rfl
  | .arrayLength array => exact .single rfl fun _ _ => (array.decodes h.tail _).map _
  | .arrayGet array index =>
      obtain ⟨harray, hindex⟩ := withoutReals_append.mp h.tail
      exact .fields rfl fun _ _ => .record (by simp) (fun _ _ =>
        .cons (array.decodes harray _) (.cons (index.decodes hindex _) .nil)) rfl
  | .ternary cond yes no =>
      obtain ⟨hcondyes, hno⟩ := withoutReals_append.mp h.tail
      obtain ⟨hcond, hyes⟩ := withoutReals_append.mp hcondyes
      exact .fields rfl fun _ _ => .record (by simp) (fun _ _ =>
        .cons (cond.decodes hcond _) (.cons (yes.decodes hyes _)
          (.cons (no.decodes hno _) .nil))) rfl

theorem decodes_exprs (es : List Expr) (h : WithoutReals (subtermsOfAll es)) (budget : Nat) :
    ∀ e ∈ es, Decodes budget (Expr.decode budget) e.toJson e := by
  match es with
  | [] => exact nofun
  | e :: rest =>
      obtain ⟨he, hrest⟩ := withoutReals_append.mp h
      exact List.forall_mem_cons.mpr ⟨e.decodes he budget, decodes_exprs rest hrest budget⟩

end

end Expressions

section Statements

theorem list_stmtsToJson (ss : List Stmt) : Json.list (stmtsToJson ss) = .ofList Stmt.toJson ss := by
  have hmap : stmtsToJson ss = ss.map Stmt.toJson := by
    induction ss with
    | nil => rfl
    | cons s rest ih => rw [stmtsToJson, ih, List.map_cons]
  rw [hmap, Json.ofList]

theorem list_casesToJson (cs : List SwitchCase) :
    Json.list (casesToJson cs) = .ofList SwitchCase.toJson cs := by
  have hmap : casesToJson cs = cs.map SwitchCase.toJson := by
    induction cs with
    | nil => rfl
    | cons c rest ih =>
        obtain ⟨values, body⟩ := c
        rw [casesToJson, ih, List.map_cons]
        rfl
  rw [hmap, Json.ofList]

/-- A label, where there is one. -/
theorem decodes_label {budget : Nat} (label : Option String) :
    Decodes budget (Json.Decoder.option Json.Decoder.string) (.ofOption .string label) label :=
  .option (fun _ => rfl) fun s _ => decodes_string s

mutual

theorem Stmt.decodes (s : Stmt) (h : WithoutReals s.expressions) (budget : Nat) :
    Decodes budget (Stmt.decode budget) s.toJson s := by
  rw [Stmt.decode]
  match s with
  | .position file line =>
      exact .fields rfl fun _ _ => .record (by simp) (fun _ _ =>
        .cons (decodes_string file) (.cons (decodes_uint32 line) .nil)) rfl
  | .nop => exact .unit rfl
  | .block body =>
      rw [Stmt.toJson, list_stmtsToJson]
      exact .single rfl fun _ _ => (Decodes.list fun _ _ => decodes_stmts body h _).map _
  | .eval value => exact .single rfl fun _ _ => (value.decodes h _).map _
  | .ret value =>
      refine .single rfl fun _ _ => (Decodes.option Expr.isNamed_toJson fun e he => ?_).map _
      obtain rfl : value = some e := he
      exact e.decodes h _
  | .setSlot name value =>
      exact .fields rfl fun _ _ => .record (by simp) (fun _ _ =>
        .cons (decodes_string name) (.cons (value.decodes h _) .nil)) rfl
  | .setInstanceField object field value =>
      obtain ⟨hobject, hvalue⟩ := withoutReals_append.mp h
      exact .fields rfl fun _ _ => .record (by simp) (fun _ _ =>
        .cons (object.decodes hobject _) (.cons field.decodes
          (.cons (value.decodes hvalue _) .nil))) rfl
  | .setStaticField field value =>
      exact .fields rfl fun _ _ => .record (by simp) (fun _ _ =>
        .cons field.decodes (.cons (value.decodes h _) .nil)) rfl
  | .setArray array index value =>
      obtain ⟨harrayindex, hvalue⟩ := withoutReals_append.mp h
      obtain ⟨harray, hindex⟩ := withoutReals_append.mp harrayindex
      exact .fields rfl fun _ _ => .record (by simp) (fun _ _ =>
        .cons (array.decodes harray _) (.cons (index.decodes hindex _)
          (.cons (value.decodes hvalue _) .nil))) rfl
  | .fillArray array start values =>
      obtain ⟨harray, hvalues⟩ := withoutReals_append.mp h
      exact .fields rfl fun _ _ => .record (by simp) (fun _ _ =>
        .cons (array.decodes harray _) (.cons (decodes_uint32 start)
          (.cons (.list fun _ _ => decodes_exprs values hvalues _) .nil))) rfl
  | .when cond yes =>
      obtain ⟨hcond, hyes⟩ := withoutReals_append.mp h
      exact .fields rfl fun _ _ => .record (by simp) (fun _ _ =>
        .cons (cond.decodes hcond _) (.cons (yes.decodes hyes _) .nil)) rfl
  | .choose cond yes no =>
      obtain ⟨hcondyes, hno⟩ := withoutReals_append.mp h
      obtain ⟨hcond, hyes⟩ := withoutReals_append.mp hcondyes
      exact .fields rfl fun _ _ => .record (by simp) (fun _ _ =>
        .cons (cond.decodes hcond _) (.cons (yes.decodes hyes _)
          (.cons (no.decodes hno _) .nil))) rfl
  | .loop label cond body =>
      obtain ⟨hcond, hbody⟩ := withoutReals_append.mp h
      exact .fields rfl fun _ _ => .record (by simp) (fun _ _ =>
        .cons (decodes_label label) (.cons (cond.decodes hcond _)
          (.cons (body.decodes hbody _) .nil))) rfl
  | .leave label => exact .single rfl fun _ _ => (decodes_label label).map _
  | .again label => exact .single rfl fun _ _ => (decodes_label label).map _
  | .switch subject cases otherwise =>
      obtain ⟨hsubjectcases, hotherwise⟩ := withoutReals_append.mp h
      obtain ⟨hsubject, hcases⟩ := withoutReals_append.mp hsubjectcases
      rw [Stmt.toJson, list_casesToJson]
      exact .fields rfl fun _ _ => .record (by simp) (fun _ _ =>
        .cons (subject.decodes hsubject _)
          (.cons (.list fun _ _ => decodes_cases cases hcases _)
            (.cons (otherwise.decodes hotherwise _) .nil))) rfl
  | .throw value => exact .single rfl fun _ _ => (value.decodes h _).map _
  | .tryCatch body handler =>
      obtain ⟨hbody, hhandler⟩ := withoutReals_append.mp h
      exact .fields rfl fun _ _ => .record (by simp) (fun _ _ =>
        .cons (body.decodes hbody _) (.cons (handler.decodes hhandler _) .nil)) rfl
  | .rethrow => exact .unit rfl

theorem decodes_stmts (ss : List Stmt) (h : WithoutReals (expressionsOfAll ss)) (budget : Nat) :
    ∀ s ∈ ss, Decodes budget (Stmt.decode budget) s.toJson s := by
  match ss with
  | [] => exact nofun
  | s :: rest =>
      obtain ⟨hs, hrest⟩ := withoutReals_append.mp h
      exact List.forall_mem_cons.mpr ⟨s.decodes hs budget, decodes_stmts rest hrest budget⟩

theorem decodes_cases (cs : List SwitchCase) (h : WithoutReals (expressionsOfCases cs))
    (budget : Nat) : ∀ c ∈ cs, Decodes budget (SwitchCase.decode budget) c.toJson c := by
  match cs with
  | [] => exact nofun
  | .arm values body :: rest =>
      obtain ⟨hbody, hrest⟩ := withoutReals_append.mp h
      refine List.forall_mem_cons.mpr ⟨?_, decodes_cases rest hrest budget⟩
      exact .record (by simp) (fun _ _ =>
        .cons (.list fun _ _ v _ => decodes_int32 v) (.cons (body.decodes hbody _) .nil)) rfl

end

end Statements

/-- No literal of the body is a real number. -/
def Body.WithoutReals (b : Body) : Prop :=
  ClassScript.WithoutReals b.stmt.expressions

instance : DecidablePred Body.WithoutReals :=
  fun b => inferInstanceAs (Decidable (∀ e ∈ b.stmt.expressions, e.isReal = false))

theorem Body.decodes {b : Body} (h : b.WithoutReals) (budget : Nat) :
    Decodes budget (Body.decode budget) b.toJson b :=
  .record (by simp) (fun _ _ =>
    .cons (.list fun _ _ x _ => x.decodes "struct Local") (.cons (b.stmt.decodes h _) .nil)) rfl

end ClassScript
