import ClassScript.Emission.Expression
import ClassScript.Proofs.Run

/-!
Lowering an expression, where it succeeds, as a relation between the expression, the states
before and after, and the text. There is one rule for each kind of expression; it says which
parts are lowered in which order, what is asked of the program between them, and what is
written around their texts.
-/

namespace ClassScript.Emission

mutual

/-- From the first state on, the expression is lowered to the text, which leaves the other
state. -/
inductive LowersExpr (job : Job) (caller : MethodRef) : Expr → State → String → State → Prop where
  | literal {v : Literal} {s t : State} {text : String} (h : (literal v).run s = (.ok text, t)) :
      LowersExpr job caller (.literal v) s text t
  | slot (name : String) (s : State) :
      LowersExpr job caller (.slot name) s (Script.variableName name) s
  | param (name : String) (s : State) :
      LowersExpr job caller (.param name) s (Script.variableName name) s
  | this (s : State) : LowersExpr job caller .this s "this" s
  | caught (s : State) : LowersExpr job caller .caught s "J__exception__" s
  | instanceField {object : Expr} {r : FieldRef} {s u t : State} {base name : String}
      (hobject : LowersExpr job caller object s base u)
      (hname : (job.fieldName r).run u = (.ok name, t)) :
      LowersExpr job caller (.instanceField object r) s (base ++ Script.member name) t
  | staticField {r : FieldRef} {s t : State} {text : String}
      (h : (job.staticField r).run s = (.ok text, t)) :
      LowersExpr job caller (.staticField r) s text t
  | unary {op : UnaryOp} {kind : OperandKind} {operand : Expr} {s t : State} {v text : String}
      (hoperand : LowersExpr job caller operand s v t)
      (htext : Script.unary? op kind v = some text) :
      LowersExpr job caller (.unary op kind operand) s text t
  | binary {op : BinaryOp} {kind : OperandKind} {left right : Expr} {s u t : State}
      {l r text : String} (hleft : LowersExpr job caller left s l u)
      (hright : LowersExpr job caller right u r t)
      (htext : Script.binary? op kind l r = some text) :
      LowersExpr job caller (.binary op kind left right) s text t
  | cast {value : Expr} {source target : Ty} {s t : State} {v text : String}
      (hvalue : LowersExpr job caller value s v t)
      (htext : Script.convert? source target v = some text) :
      LowersExpr job caller (.cast value source target) s text t
  | instanceOf {value : Expr} {type : Ty} {s t : State} {v : String}
      (hvalue : LowersExpr job caller value s v t) :
      LowersExpr job caller (.instanceOf value type) s (job.instanceTest v type) t
  | checkCast {value : Expr} {type : Ty} {s t : State} {v : String}
      (hvalue : LowersExpr job caller value s v t) :
      LowersExpr job caller (.checkCast value type) s ("(" ++ v ++ ")") t
  | rawCall {r : MethodRef} {args : List Expr} {s t : State} {text : String}
      (hraw : isRawCall r = true)
      (h : (job.rawCall caller (.callStatic r args) r.name args).run s = (.ok text, t)) :
      LowersExpr job caller (.callStatic r args) s text t
  | callStatic {r : MethodRef} {args : List Expr} {s u t : State} {m : Method}
      {texts : List String} (hraw : ¬ isRawCall r = true)
      (hmethod : (job.method r).run s = (.ok m, u))
      (hargs : LowersExprs job caller args u texts t) :
      LowersExpr job caller (.callStatic r args) s
        (m.owner.identifier ++ Script.member (slotName m r) ++ arguments texts) t
  | callInstance {object : Expr} {r : MethodRef} {args : List Expr} {s u v t : State}
      {base name : String} {texts : List String} (hobject : LowersExpr job caller object s base u)
      (hname : (job.methodRefName r).run u = (.ok name, v))
      (hargs : LowersExprs job caller args v texts t) :
      LowersExpr job caller (.callInstance object r args) s
        (base ++ Script.member name ++ arguments texts) t
  | callSuper {object : Expr} {r : MethodRef} {args : List Expr} {s u t : State} {m : Method}
      {base : String} {texts : List String} (hmethod : job.program.resolve r = some m)
      (hobject : LowersExpr job caller object s base u)
      (hargs : LowersExprs job caller args u texts t) :
      LowersExpr job caller (.callSuper object r args) s
        (memberBase m.owner false ++ Script.member (methodName m) ++ ".call" ++
          arguments (base :: texts)) t
  | construct {owner : ClassName} {ctor : MethodRef} {args : List Expr} {s u t : State}
      {name : String} {texts : List String}
      (hname : (job.methodRefName ctor).run s = (.ok name, u))
      (hargs : LowersExprs job caller args u texts t) :
      LowersExpr job caller (.construct owner ctor args) s
        ("new " ++ owner.identifier ++ "()" ++ Script.member name ++ arguments texts) t
  | newArray {type : Ty} {length : Expr} {s t : State} {n : String}
      (hlength : LowersExpr job caller length s n t) :
      LowersExpr job caller (.newArray type length) s (newArray type n) t
  | arrayLength {array : Expr} {s t : State} {base : String}
      (harray : LowersExpr job caller array s base t) :
      LowersExpr job caller (.arrayLength array) s (base ++ ".length") t
  | arrayGet {array index : Expr} {s u t : State} {base place : String}
      (harray : LowersExpr job caller array s base u)
      (hindex : LowersExpr job caller index u place t) :
      LowersExpr job caller (.arrayGet array index) s ("(" ++ base ++ ".data[" ++ place ++ "])") t
  | ternary {cond yes no : Expr} {s u v t : State} {c y n : String}
      (hcond : LowersExpr job caller cond s c u) (hyes : LowersExpr job caller yes u y v)
      (hno : LowersExpr job caller no v n t) :
      LowersExpr job caller (.ternary cond yes no) s ("(" ++ c ++ " ? " ++ y ++ " : " ++ n ++ ")") t

/-- The same for expressions in order. -/
inductive LowersExprs (job : Job) (caller : MethodRef) :
    List Expr → State → List String → State → Prop where
  | nil (s : State) : LowersExprs job caller [] s [] s
  | cons {e : Expr} {rest : List Expr} {s u t : State} {text : String} {texts : List String}
      (hfirst : LowersExpr job caller e s text u) (hrest : LowersExprs job caller rest u texts t) :
      LowersExprs job caller (e :: rest) s (text :: texts) t

end

section Inversion

variable {job : Job} {caller : MethodRef}

theorem eq_of_run_definedOr {cause : Malformed} {answer : Option String} {s t : State} {text : String}
    (h : (definedOr cause answer).run s = (.ok text, t)) : answer = some text ∧ s = t := by
  cases answer with
  | none => cases h
  | some found =>
      obtain ⟨rfl, rfl⟩ := eq_of_run_pure h
      exact ⟨rfl, rfl⟩

mutual

/-- A run that succeeds follows the rule of its expression. -/
theorem lowersExpr_of_run : ∀ (e : Expr) {s t : State} {text : String},
    (lowerExpr job caller e).run s = (.ok text, t) → LowersExpr job caller e s text t
  | .literal v, s, t, text, h => by
      rw [lowerExpr] at h
      exact .literal h
  | .slot name, s, t, text, h => by
      rw [lowerExpr] at h
      obtain ⟨rfl, rfl⟩ := eq_of_run_pure h
      exact .slot name s
  | .param name, s, t, text, h => by
      rw [lowerExpr] at h
      obtain ⟨rfl, rfl⟩ := eq_of_run_pure h
      exact .param name s
  | .this, s, t, text, h => by
      rw [lowerExpr] at h
      obtain ⟨rfl, rfl⟩ := eq_of_run_pure h
      exact .this s
  | .caught, s, t, text, h => by
      rw [lowerExpr] at h
      obtain ⟨rfl, rfl⟩ := eq_of_run_pure h
      exact .caught s
  | .instanceField object r, s, t, text, h => by
      rw [lowerExpr] at h
      obtain ⟨base, u, hobject, h⟩ := exists_of_run_bind_ok h
      obtain ⟨name, v, hname, h⟩ := exists_of_run_bind_ok h
      obtain ⟨rfl, rfl⟩ := eq_of_run_pure h
      exact .instanceField (lowersExpr_of_run object hobject) hname
  | .staticField r, s, t, text, h => by
      rw [lowerExpr] at h
      exact .staticField h
  | .unary op kind operand, s, t, text, h => by
      rw [lowerExpr] at h
      obtain ⟨v, u, hoperand, h⟩ := exists_of_run_bind_ok h
      obtain ⟨htext, rfl⟩ := eq_of_run_definedOr h
      exact .unary (lowersExpr_of_run operand hoperand) htext
  | .binary op kind left right, s, t, text, h => by
      rw [lowerExpr] at h
      obtain ⟨l, u, hleft, h⟩ := exists_of_run_bind_ok h
      obtain ⟨r, v, hright, h⟩ := exists_of_run_bind_ok h
      obtain ⟨htext, rfl⟩ := eq_of_run_definedOr h
      exact .binary (lowersExpr_of_run left hleft) (lowersExpr_of_run right hright) htext
  | .cast value source target, s, t, text, h => by
      rw [lowerExpr] at h
      obtain ⟨v, u, hvalue, h⟩ := exists_of_run_bind_ok h
      obtain ⟨htext, rfl⟩ := eq_of_run_definedOr h
      exact .cast (lowersExpr_of_run value hvalue) htext
  | .instanceOf value type, s, t, text, h => by
      rw [lowerExpr] at h
      obtain ⟨v, u, hvalue, h⟩ := exists_of_run_bind_ok h
      obtain ⟨rfl, rfl⟩ := eq_of_run_pure h
      exact .instanceOf (lowersExpr_of_run value hvalue)
  | .checkCast value type, s, t, text, h => by
      rw [lowerExpr] at h
      obtain ⟨v, u, hvalue, h⟩ := exists_of_run_bind_ok h
      obtain ⟨rfl, rfl⟩ := eq_of_run_pure h
      exact .checkCast (lowersExpr_of_run value hvalue)
  | .callStatic r args, s, t, text, h => by
      rw [lowerExpr] at h
      split at h
      · next hraw => exact .rawCall hraw h
      · next hraw =>
          obtain ⟨m, u, hmethod, h⟩ := exists_of_run_bind_ok h
          obtain ⟨texts, v, hargs, h⟩ := exists_of_run_bind_ok h
          obtain ⟨rfl, rfl⟩ := eq_of_run_pure h
          exact .callStatic hraw hmethod (lowersExprs_of_run args hargs)
  | .callInstance object r args, s, t, text, h => by
      rw [lowerExpr] at h
      obtain ⟨base, u, hobject, h⟩ := exists_of_run_bind_ok h
      obtain ⟨name, v, hname, h⟩ := exists_of_run_bind_ok h
      obtain ⟨texts, w, hargs, h⟩ := exists_of_run_bind_ok h
      obtain ⟨rfl, rfl⟩ := eq_of_run_pure h
      exact .callInstance (lowersExpr_of_run object hobject) hname (lowersExprs_of_run args hargs)
  | .callSuper object r args, s, t, text, h => by
      rw [lowerExpr] at h
      split at h
      · cases h
      · next m hmethod =>
          obtain ⟨base, u, hobject, h⟩ := exists_of_run_bind_ok h
          obtain ⟨texts, v, hargs, h⟩ := exists_of_run_bind_ok h
          obtain ⟨rfl, rfl⟩ := eq_of_run_pure h
          exact .callSuper hmethod (lowersExpr_of_run object hobject)
            (lowersExprs_of_run args hargs)
  | .construct owner ctor args, s, t, text, h => by
      rw [lowerExpr] at h
      obtain ⟨name, u, hname, h⟩ := exists_of_run_bind_ok h
      obtain ⟨texts, v, hargs, h⟩ := exists_of_run_bind_ok h
      obtain ⟨rfl, rfl⟩ := eq_of_run_pure h
      exact .construct hname (lowersExprs_of_run args hargs)
  | .newArray type length, s, t, text, h => by
      rw [lowerExpr] at h
      obtain ⟨n, u, hlength, h⟩ := exists_of_run_bind_ok h
      obtain ⟨rfl, rfl⟩ := eq_of_run_pure h
      exact .newArray (lowersExpr_of_run length hlength)
  | .arrayLength array, s, t, text, h => by
      rw [lowerExpr] at h
      obtain ⟨base, u, harray, h⟩ := exists_of_run_bind_ok h
      obtain ⟨rfl, rfl⟩ := eq_of_run_pure h
      exact .arrayLength (lowersExpr_of_run array harray)
  | .arrayGet array index, s, t, text, h => by
      rw [lowerExpr] at h
      obtain ⟨base, u, harray, h⟩ := exists_of_run_bind_ok h
      obtain ⟨place, v, hindex, h⟩ := exists_of_run_bind_ok h
      obtain ⟨rfl, rfl⟩ := eq_of_run_pure h
      exact .arrayGet (lowersExpr_of_run array harray) (lowersExpr_of_run index hindex)
  | .ternary cond yes no, s, t, text, h => by
      rw [lowerExpr] at h
      obtain ⟨c, u, hcond, h⟩ := exists_of_run_bind_ok h
      obtain ⟨y, v, hyes, h⟩ := exists_of_run_bind_ok h
      obtain ⟨n, w, hno, h⟩ := exists_of_run_bind_ok h
      obtain ⟨rfl, rfl⟩ := eq_of_run_pure h
      exact .ternary (lowersExpr_of_run cond hcond) (lowersExpr_of_run yes hyes)
        (lowersExpr_of_run no hno)

theorem lowersExprs_of_run : ∀ (es : List Expr) {s t : State} {texts : List String},
    (lowerExprs job caller es).run s = (.ok texts, t) → LowersExprs job caller es s texts t
  | [], s, t, texts, h => by
      rw [lowerExprs] at h
      obtain ⟨rfl, rfl⟩ := eq_of_run_pure h
      exact .nil s
  | e :: rest, s, t, texts, h => by
      rw [lowerExprs] at h
      obtain ⟨text, u, hfirst, h⟩ := exists_of_run_bind_ok h
      obtain ⟨others, v, hrest, h⟩ := exists_of_run_bind_ok h
      obtain ⟨rfl, rfl⟩ := eq_of_run_pure h
      exact .cons (lowersExpr_of_run e hfirst) (lowersExprs_of_run rest hrest)

end

end Inversion

end ClassScript.Emission
