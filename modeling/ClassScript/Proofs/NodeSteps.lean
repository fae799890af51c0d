import ClassScript.Proofs.StatementRuns

/-!
Lowering a body, said once: the steps of its nodes, one after the other. Every
node does one step of its own, and which ones in which order can be read off the
source. What holds of these and survives doing one step after another holds of the
lowering of every expression, statement and body.
-/

namespace ClassScript

mutual

/-- The nodes of an expression that are lowered, in the order of their own steps:
calls do theirs before their arguments are lowered, all others after their
operands. The arguments of a raw call are no expressions. -/
def Expr.nodes : Expr → List Expr
  | e@(.literal _) | e@(.slot _) | e@(.param _) | e@.this | e@.caught | e@(.staticField _) => [e]
  | e@(.instanceField operand _) | e@(.unary _ _ operand) | e@(.cast operand _ _)
  | e@(.instanceOf operand _) | e@(.checkCast operand _) | e@(.newArray _ operand)
  | e@(.arrayLength operand) => operand.nodes ++ [e]
  | e@(.binary _ _ left right) | e@(.arrayGet left right) => left.nodes ++ (right.nodes ++ [e])
  | e@(.callStatic method args) => e :: if Emission.isRawCall method then [] else nodesOfAll args
  | e@(.callInstance object _ args) => object.nodes ++ e :: nodesOfAll args
  | e@(.callSuper object _ args) => e :: (object.nodes ++ nodesOfAll args)
  | e@(.construct _ _ args) => e :: nodesOfAll args
  | e@(.ternary cond yes no) => cond.nodes ++ (yes.nodes ++ (no.nodes ++ [e]))

def nodesOfAll : List Expr → List Expr
  | [] => []
  | e :: rest => e.nodes ++ nodesOfAll rest

end

/-- Whether the own step of an expression does nothing but write its text. -/
def Expr.isPlain : Expr → Bool
  | .slot _ | .param _ | .this | .caught | .instanceOf _ _ | .checkCast _ _ | .newArray _ _
  | .arrayLength _ | .arrayGet _ _ | .ternary _ _ _ => true
  | _ => false

mutual

/-- The statement and all inside it that is lowered, each before its parts.
Without native switch statements, an arm needs a value that selects it. -/
def Stmt.lowered (native : Bool) : Stmt → List Stmt
  | s@(.block body) => s :: loweredInAll native body
  | s@(.when _ yes) => s :: yes.lowered native
  | s@(.choose _ yes no) => s :: (yes.lowered native ++ no.lowered native)
  | s@(.loop _ _ body) => s :: body.lowered native
  | s@(.switch _ cases otherwise) =>
      s :: (loweredInCases native cases ++ otherwise.lowered native)
  | s@(.tryCatch body handler) => s :: (body.lowered native ++ handler.lowered native)
  | s => [s]

def loweredInAll (native : Bool) : List Stmt → List Stmt
  | [] => []
  | s :: rest => s.lowered native ++ loweredInAll native rest

def loweredInCases (native : Bool) : List SwitchCase → List Stmt
  | [] => []
  | .arm values body :: rest =>
      (if native || !values.isEmpty then body.lowered native else []) ++ loweredInCases native rest

end

/-- The nodes in the expressions of a statement, without those of its parts. What
an assignment writes to counts as the access that it reads like. -/
def Stmt.ownNodes : Stmt → List Expr
  | .eval e | .ret (some e) | .setSlot _ e | .when e _ | .choose e _ _ | .loop _ e _
  | .switch e _ _ | .throw e => e.nodes
  | .setInstanceField object field value =>
      object.nodes ++ (value.nodes ++ [.instanceField object field])
  | .setStaticField field value => value.nodes ++ [.staticField field]
  | .setArray array index value => array.nodes ++ (index.nodes ++ value.nodes)
  | .fillArray array _ values => array.nodes ++ nodesOfAll values
  | _ => []

namespace Emission

open Output

/-- The nodes of a body that are lowered. -/
def Job.nodesIn (job : Job) (body : Body) : List Expr :=
  (body.stmt.lowered job.config.nativeSwitch).flatMap Stmt.ownNodes

/-- What is written as one line has no parts. -/
theorem lowered_of_lineText? {job : Job} {ctx : Context} {chain : Option Nat} {s : Stmt}
    {x : Emit String} (hx : lineText? job ctx chain s = some x) (native : Bool) :
    s.lowered native = [s] := by
  cases s with
  | block _ | when _ _ | choose _ _ _ | loop _ _ _ | switch _ _ _ | tryCatch _ _ => cases hx
  | _ => simp only [Stmt.lowered]

/-- The method that a call without overriding means. -/
def Job.superMethod (job : Job) (caller r : MethodRef) : Emit Method :=
  match job.program.resolve r with
  | some m => return m
  | none => throw (.unresolvedSuperCall caller.owner r)

/-- The step that a node does itself, whatever came of its operands. -/
inductive NodeStep (job : Job) (caller : MethodRef) : {α : Type} → Expr → Emit α → Prop where
  | literal (v : Literal) : NodeStep job caller (.literal v) (literal v)
  | plain {α : Type} {e : Expr} (h : e.isPlain = true) (a : α) : NodeStep job caller e (pure a)
  | instanceField (object : Expr) (r : FieldRef) :
      NodeStep job caller (.instanceField object r) (job.fieldName r)
  | staticField (r : FieldRef) : NodeStep job caller (.staticField r) (job.staticField r)
  | unary (op : UnaryOp) (kind : OperandKind) (operand : Expr) (text : String) :
      NodeStep job caller (.unary op kind operand)
        (definedOr (.unary op kind) (Script.unary? op kind text))
  | binary (op : BinaryOp) (kind : OperandKind) (left right : Expr) (text text' : String) :
      NodeStep job caller (.binary op kind left right)
        (definedOr (.binary op kind) (Script.binary? op kind text text'))
  | cast (value : Expr) (source target : Ty) (text : String) :
      NodeStep job caller (.cast value source target)
        (definedOr (.conversion source target) (Script.convert? source target text))
  | rawCall {r : MethodRef} (h : isRawCall r = true) (args : List Expr) :
      NodeStep job caller (.callStatic r args) (job.rawCall caller (.callStatic r args) r.name args)
  | callStatic {r : MethodRef} (h : ¬ isRawCall r = true) (args : List Expr) :
      NodeStep job caller (.callStatic r args) (job.method r)
  | callInstance (object : Expr) (r : MethodRef) (args : List Expr) :
      NodeStep job caller (.callInstance object r args) (job.methodRefName r)
  | callSuper (object : Expr) (r : MethodRef) (args : List Expr) :
      NodeStep job caller (.callSuper object r args) (job.superMethod caller r)
  | construct (owner : ClassName) (ctor : MethodRef) (args : List Expr) :
      NodeStep job caller (.construct owner ctor args) (job.methodRefName ctor)

/-- Steps that are put together from the own steps of these nodes, in this order. -/
inductive Steps (job : Job) (caller : MethodRef) : {α : Type} → List Expr → Emit α → Prop where
  | pure {α : Type} (a : α) : Steps job caller [] (Pure.pure a)
  | node {α : Type} {e : Expr} {x : Emit α} (h : NodeStep job caller e x) : Steps job caller [e] x
  | bind {α β : Type} {nodes others : List Expr} {x : Emit α} {f : α → Emit β}
      (h : Steps job caller nodes x) (hrest : ∀ a, Steps job caller others (f a)) :
      Steps job caller (nodes ++ others) (x >>= f)

namespace Steps

variable {job : Job} {caller : MethodRef} {α β : Type} {nodes others : List Expr}

/-- What holds of the own steps together with what each node contributes, and of
steps in turn with their contributions in turn, holds of all of them. -/
theorem holds {ε : Type} {own : Expr → List ε} {P : (α : Type) → List ε → Emit α → Prop}
    (hpure : ∀ {α : Type} (a : α), P α [] (Pure.pure a))
    (hnode : ∀ {α : Type} {e : Expr} {x : Emit α}, NodeStep job caller e x → P α (own e) x)
    (hbind : ∀ {α β : Type} {xs ys : List ε} {x : Emit α} {f : α → Emit β},
      P α xs x → (∀ a, P β ys (f a)) → P β (xs ++ ys) (x >>= f))
    {x : Emit α} (h : Steps job caller nodes x) : P α (nodes.flatMap own) x := by
  induction h with
  | pure a => exact hpure a
  | node h =>
      rw [List.flatMap_singleton]
      exact hnode h
  | bind _ _ ih ihrest =>
      rw [List.flatMap_append]
      exact hbind ih ihrest

/-- A first step of one node. -/
theorem ask {e : Expr} {x : Emit α} {f : α → Emit β} (h : NodeStep job caller e x)
    (hrest : ∀ a, Steps job caller others (f a)) : Steps job caller (e :: others) (x >>= f) :=
  bind (node h) hrest

/-- Last steps without nodes. -/
theorem before {x : Emit α} {f : α → Emit β} (h : Steps job caller nodes x)
    (hrest : ∀ a, Steps job caller [] (f a)) : Steps job caller nodes (x >>= f) := by
  have hboth := bind h hrest
  rwa [List.append_nil] at hboth

variable (job caller)

mutual

/-- Lowering an expression does the steps of its nodes. -/
theorem expression : ∀ e : Expr, Steps job caller e.nodes (lowerExpr job caller e)
  | .literal v => by
      simp only [lowerExpr, Expr.nodes]
      exact .node (.literal v)
  | .slot _ | .param _ | .this | .caught => by
      simp only [lowerExpr, Expr.nodes]
      exact .node (.plain rfl _)
  | .instanceField object field => by
      simp only [lowerExpr, Expr.nodes]
      exact (expression object).bind fun _ => .ask (.instanceField object field) fun _ => .pure _
  | .staticField field => by
      simp only [lowerExpr, Expr.nodes]
      exact .node (.staticField field)
  | .unary op kind operand => by
      simp only [lowerExpr, Expr.nodes]
      exact (expression operand).bind fun _ => .node (.unary op kind operand _)
  | .binary op kind left right => by
      simp only [lowerExpr, Expr.nodes]
      exact (expression left).bind fun _ => (expression right).bind fun _ =>
        .node (.binary op kind left right _ _)
  | .cast value source target => by
      simp only [lowerExpr, Expr.nodes]
      exact (expression value).bind fun _ => .node (.cast value source target _)
  | .instanceOf value _ | .checkCast value _ | .newArray _ value | .arrayLength value => by
      simp only [lowerExpr, Expr.nodes]
      exact (expression value).bind fun _ => .node (.plain rfl _)
  | .callStatic r args => by
      simp only [lowerExpr, Expr.nodes]
      split
      · next hraw => exact .node (.rawCall hraw args)
      · next hraw =>
          exact .ask (.callStatic hraw args) fun _ => (expressions args).before fun _ => .pure _
  | .callInstance object r args => by
      simp only [lowerExpr, Expr.nodes]
      exact (expression object).bind fun _ => .ask (.callInstance object r args) fun _ =>
        (expressions args).before fun _ => .pure _
  | .callSuper object r args => by
      have hrest : ∀ m : Method, Steps job caller (object.nodes ++ nodesOfAll args) (do
          let object ← lowerExpr job caller object
          let args ← lowerExprs job caller args
          return memberBase m.owner false ++ Script.member (methodName m) ++
            ".call" ++ arguments (object :: args)) := fun m =>
        (expression object).bind fun _ => (expressions args).before fun _ => .pure _
      have hboth := Steps.ask (.callSuper object r args) hrest
      simp only [lowerExpr, Expr.nodes]
      rw [Job.superMethod] at hboth
      cases hresolve : job.program.resolve r with
      | none =>
          rw [hresolve] at hboth
          exact hboth
      | some m =>
          rw [hresolve] at hboth
          exact hboth
  | .construct owner ctor args => by
      simp only [lowerExpr, Expr.nodes]
      exact .ask (.construct owner ctor args) fun _ => (expressions args).before fun _ => .pure _
  | .arrayGet array index => by
      simp only [lowerExpr, Expr.nodes]
      exact (expression array).bind fun _ => (expression index).bind fun _ =>
        .node (.plain rfl _)
  | .ternary cond yes no => by
      simp only [lowerExpr, Expr.nodes]
      exact (expression cond).bind fun _ => (expression yes).bind fun _ =>
        (expression no).bind fun _ => .node (.plain rfl _)

theorem expressions : ∀ es : List Expr, Steps job caller (nodesOfAll es) (lowerExprs job caller es)
  | [] => by
      simp only [lowerExprs, nodesOfAll]
      exact .pure _
  | e :: rest => by
      simp only [lowerExprs, nodesOfAll]
      exact (expression e).bind fun _ => (expressions rest).before fun _ => .pure _

end

end Steps

/-- The same for steps with the counter of switches, whatever it shows. -/
def StepsCounting (job : Job) (caller : MethodRef) {α : Type} (nodes : List Expr) (x : Lower α) :
    Prop :=
  ∀ n, Steps job caller nodes (x.run n)

namespace StepsCounting

variable {job : Job} {caller : MethodRef} {α β : Type} {nodes others : List Expr}

theorem pure (a : α) : StepsCounting job caller [] (Pure.pure a : Lower α) :=
  fun n => .pure (a, n)

theorem bind {x : Lower α} {f : α → Lower β} (h : StepsCounting job caller nodes x)
    (hrest : ∀ a, StepsCounting job caller others (f a)) :
    StepsCounting job caller (nodes ++ others) (x >>= f) := by
  intro n
  rw [StateT.run_bind]
  exact (h n).bind fun p => hrest p.1 p.2

/-- Last steps without nodes. -/
theorem before {x : Lower α} {f : α → Lower β} (h : StepsCounting job caller nodes x)
    (hrest : ∀ a, StepsCounting job caller [] (f a)) :
    StepsCounting job caller nodes (x >>= f) := by
  have hboth := h.bind hrest
  rwa [List.append_nil] at hboth

/-- A first step without the counter. -/
theorem lift {x : Emit α} {f : α → Lower β} (h : Steps job caller nodes x)
    (hrest : ∀ a, StepsCounting job caller others (f a)) :
    StepsCounting job caller (nodes ++ others) (liftM x >>= f) := by
  refine bind (fun n => ?_) hrest
  rw [StateT.run_monadLift]
  exact h.before fun a => .pure (a, n)

/-- An only step without the counter. -/
theorem only {x : Emit α} {g : α → β} (h : Steps job caller nodes x) :
    StepsCounting job caller nodes (liftM x >>= fun a => Pure.pure (g a)) := by
  have hboth := lift h fun a => .pure (g a)
  rwa [List.append_nil] at hboth

theorem draw {g : Nat → Lower α} (h : ∀ k, StepsCounting job caller nodes (g k)) :
    StepsCounting job caller nodes (do let k ← get; set (k + 1); g k) :=
  fun n => h n (n + 1)

/-- The steps of the nodes in these statements. -/
abbrev OfParts (job : Job) (caller : MethodRef) (parts : List Stmt) (x : Lower Doc) : Prop :=
  StepsCounting job caller (parts.flatMap Stmt.ownNodes) x

/-- A statement whose parts come after its own expressions. -/
theorem ofParts_cons {s : Stmt} {parts : List Stmt} {x : Lower Doc}
    (h : StepsCounting job caller (s.ownNodes ++ parts.flatMap Stmt.ownNodes) x) :
    OfParts job caller (s :: parts) x := by
  rw [OfParts, List.flatMap_cons]
  exact h

theorem ofParts_append {parts others : List Stmt} {x : Lower Doc}
    (h : StepsCounting job caller (parts.flatMap Stmt.ownNodes ++ others.flatMap Stmt.ownNodes) x) :
    OfParts job caller (parts ++ others) x := by
  rw [OfParts, List.flatMap_append]
  exact h

/-- A statement without parts. -/
theorem ofParts_single {s : Stmt} {x : Lower Doc} (h : StepsCounting job caller s.ownNodes x) :
    OfParts job caller [s] x := by
  rw [OfParts, List.flatMap_singleton]
  exact h

/-- What is written as one line does the steps of the statement's own expressions. -/
theorem line (job : Job) {ctx : Context} {chain : Option Nat} {s : Stmt} {x : Emit String}
    (hx : lineText? job ctx chain s = some x) : Steps job ctx.caller s.ownNodes x := by
  cases s with
  | eval value =>
      cases hx
      exact .expression job _ value
  | ret value? =>
      cases value? <;> cases hx
      · exact .pure _
      · next value => exact (Steps.expression job _ value).before fun _ => .pure _
  | setSlot _ value | throw value =>
      cases hx
      exact (Steps.expression job _ value).before fun _ => .pure _
  | setInstanceField object field value =>
      cases hx
      exact (Steps.expression job _ object).bind fun _ => (Steps.expression job _ value).bind
        fun _ => (Steps.node (.instanceField object field)).before fun _ => .pure _
  | setStaticField field value =>
      cases hx
      exact (Steps.expression job _ value).bind fun _ =>
        (Steps.node (.staticField field)).before fun _ => .pure _
  | setArray array index value =>
      cases hx
      exact (Steps.expression job _ array).bind fun _ => (Steps.expression job _ index).bind
        fun _ => (Steps.expression job _ value).before fun _ => .pure _
  | fillArray array _ values =>
      cases hx
      exact (Steps.expression job _ array).bind fun _ =>
        (Steps.expressions job _ values).before fun _ => .pure _
  | leave label? =>
      cases label? <;> cases hx <;> exact .pure _
  | again label? =>
      cases label? <;> cases hx <;> exact .pure _
  | rethrow =>
      cases hx
      exact .pure _
  | _ => cases hx

theorem ofLine (job : Job) {ctx : Context} {chain : Option Nat} {s : Stmt} {x : Emit String}
    (hx : lineText? job ctx chain s = some x) :
    OfParts job ctx.caller (s.lowered job.config.nativeSwitch) (lowerStmt job ctx chain s) := by
  rw [lowerStmt_line hx, lowered_of_lineText? hx]
  exact ofParts_single (.only (line job hx))

mutual

/-- Lowering a statement does the steps of the nodes in all that is lowered of it. -/
theorem stmt (job : Job) (ctx : Context) : ∀ (s : Stmt) (chain : Option Nat),
    OfParts job ctx.caller (s.lowered job.config.nativeSwitch) (lowerStmt job ctx chain s)
  | .position _ _, _ | .nop, _ => by
      simp only [lowerStmt, Stmt.lowered]
      exact ofParts_single (.pure _)
  | .eval _, _ | .ret none, _ | .ret (some _), _ | .setSlot _ _, _ | .setInstanceField _ _ _, _
  | .setStaticField _ _, _ | .setArray _ _ _, _ | .fillArray _ _ _, _ | .leave none, _
  | .leave (some _), _ | .again none, _ | .again (some _), _ | .throw _, _ | .rethrow, _ =>
      ofLine job rfl
  | .block body, chain => by
      simp only [lowerStmt, Stmt.lowered]
      exact ofParts_cons (stmts job ctx body chain)
  | .when cond yes, chain => by
      simp only [lowerStmt, Stmt.lowered]
      exact ofParts_cons (.lift (.expression job _ cond) fun _ =>
        (stmt job ctx yes chain).before fun _ => .pure _)
  | .choose cond yes no, chain => by
      simp only [lowerStmt, Stmt.lowered]
      exact ofParts_cons (.lift (.expression job _ cond) fun _ => ofParts_append
        ((stmt job ctx yes chain).bind fun _ => (stmt job ctx no chain).before fun _ => .pure _))
  | .loop _ cond body, _ => by
      simp only [lowerStmt, Stmt.lowered]
      exact ofParts_cons (.lift (.expression job _ cond) fun _ =>
        (stmt job ctx body none).before fun _ => .pure _)
  | .switch subject cases otherwise, _ => by
      simp only [lowerStmt, Stmt.lowered]
      refine ofParts_cons (.lift (.expression job _ subject) fun _ => ofParts_append ?_)
      split
      · next hnative =>
          exact (arms job hnative ctx cases).bind fun _ =>
            (stmt job ctx otherwise none).before fun _ => .pure _
      · next hchains =>
          rw [Bool.not_eq_true] at hchains
          exact .draw fun n => (links job hchains ctx n true cases).bind fun _ =>
            (stmt job ctx otherwise (some n)).before fun _ => .pure _
  | .tryCatch body handler, chain => by
      simp only [lowerStmt, Stmt.lowered]
      exact ofParts_cons (ofParts_append ((stmt job ctx body chain).bind fun _ =>
        (stmt job ctx handler chain).before fun _ => .pure _))

theorem stmts (job : Job) (ctx : Context) : ∀ (body : List Stmt) (chain : Option Nat),
    OfParts job ctx.caller (loweredInAll job.config.nativeSwitch body)
      (lowerStmts job ctx chain body)
  | [], _ => by
      simp only [lowerStmts, loweredInAll]
      exact .pure _
  | s :: rest, chain => by
      simp only [lowerStmts, loweredInAll]
      exact ofParts_append
        ((stmt job ctx s chain).bind fun _ => (stmts job ctx rest chain).before fun _ => .pure _)

theorem arms (job : Job) (hnative : job.config.nativeSwitch = true) (ctx : Context) :
    ∀ cases : List SwitchCase, OfParts job ctx.caller
      (loweredInCases job.config.nativeSwitch cases) (lowerArms job ctx cases)
  | [] => by
      simp only [lowerArms, loweredInCases]
      exact .pure _
  | .arm values body :: rest => by
      simp only [lowerArms, loweredInCases, hnative, Bool.true_or, reduceIte]
      have hbody := stmt job ctx body none
      have hrest := arms job hnative ctx rest
      rw [hnative] at hbody hrest
      exact ofParts_append (hbody.bind fun _ => hrest.before fun _ => .pure _)

theorem links (job : Job) (hchains : job.config.nativeSwitch = false) (ctx : Context) (n : Nat) :
    ∀ (first : Bool) (cases : List SwitchCase), OfParts job ctx.caller
      (loweredInCases job.config.nativeSwitch cases) (lowerLinks job ctx n first cases)
  | _, [] => by
      simp only [lowerLinks, loweredInCases]
      exact .pure _
  | first, .arm values body :: rest => by
      simp only [lowerLinks, loweredInCases, hchains, Bool.false_or]
      have hbody := stmt job ctx body (some n)
      have hrest := fun first => links job hchains ctx n first rest
      rw [hchains] at hbody
      simp only [hchains] at hrest
      cases hvalues : values.isEmpty with
      | true => exact hrest first
      | false => exact ofParts_append (hbody.bind fun _ => (hrest false).before fun _ => .pure _)

end

end StepsCounting

/-- Lowering a body does the steps of its nodes. -/
theorem lowerBody_steps (job : Job) (owner : ClassName) (m : Method) (body : Body) :
    Steps job ⟨owner, m.name, m.type⟩ (job.nodesIn body) (lowerBody job owner m body) := by
  have hstmt := StepsCounting.stmt job
    { caller := ⟨owner, m.name, m.type⟩, returnsThis := m.returnsThis } body.stmt none 0
  exact hstmt.before fun _ => .pure _

end Emission

end ClassScript
