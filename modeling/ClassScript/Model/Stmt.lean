import ClassScript.Model.Expr

/-!
Statements of method bodies. Control flow is structured: loops may carry a
label, and the arms of a switch never fall through into each other.
-/

namespace ClassScript

mutual

/-- Statements. `position` marks the source line of what follows; `leave` and
`again` end or repeat the labelled construct, or the innermost one. -/
inductive Stmt where
  | position (file : String) (line : UInt32)
  | nop
  | block (body : List Stmt)
  | eval (value : Expr)
  | ret (value : Option Expr)
  | setSlot (name : String) (value : Expr)
  | setInstanceField (object : Expr) (field : FieldRef) (value : Expr)
  | setStaticField (field : FieldRef) (value : Expr)
  | setArray (array index value : Expr)
  | fillArray (array : Expr) (start : UInt32) (values : List Expr)
  | when (cond : Expr) (yes : Stmt)
  | choose (cond : Expr) (yes no : Stmt)
  | loop (label : Option String) (cond : Expr) (body : Stmt)
  | leave (label : Option String)
  | again (label : Option String)
  | switch (subject : Expr) (cases : List SwitchCase) (otherwise : Stmt)
  | throw (value : Expr)
  | tryCatch (body handler : Stmt)
  | rethrow

/-- One arm of a switch, with the values that select it. -/
inductive SwitchCase where
  | arm (values : List Int32) (body : Stmt)

end

namespace SwitchCase

def values : SwitchCase → List Int32
  | .arm values _ => values

def body : SwitchCase → Stmt
  | .arm _ body => body

end SwitchCase

/-- A generated body: its locals and its one statement. -/
structure Body where
  locals : List Binding
  stmt : Stmt

mutual

/-- The statement and all inside it, each before its parts and these in the
order of the text. -/
def Stmt.substatements : Stmt → List Stmt
  | s@(.block body) => s :: substatementsOfAll body
  | s@(.when _ yes) => s :: yes.substatements
  | s@(.choose _ yes no) => s :: (yes.substatements ++ no.substatements)
  | s@(.loop _ _ body) => s :: body.substatements
  | s@(.switch _ cases otherwise) =>
      s :: (substatementsOfCases cases ++ otherwise.substatements)
  | s@(.tryCatch body handler) => s :: (body.substatements ++ handler.substatements)
  | s => [s]

def substatementsOfAll : List Stmt → List Stmt
  | [] => []
  | s :: rest => s.substatements ++ substatementsOfAll rest

def substatementsOfCases : List SwitchCase → List Stmt
  | [] => []
  | .arm _ body :: rest => body.substatements ++ substatementsOfCases rest

end

mutual

/-- Every expression in the statement, in the order of the text, each before
its operands. -/
def Stmt.expressions : Stmt → List Expr
  | .position _ _ | .nop | .leave _ | .again _ | .rethrow => []
  | .block body => expressionsOfAll body
  | .eval value | .throw value => value.subterms
  | .ret value => (value.map Expr.subterms).getD []
  | .setSlot _ value | .setStaticField _ value => value.subterms
  | .setInstanceField object _ value => object.subterms ++ value.subterms
  | .setArray array index value => array.subterms ++ index.subterms ++ value.subterms
  | .fillArray array _ values => array.subterms ++ subtermsOfAll values
  | .when cond yes => cond.subterms ++ yes.expressions
  | .choose cond yes no => cond.subterms ++ yes.expressions ++ no.expressions
  | .loop _ cond body => cond.subterms ++ body.expressions
  | .switch subject cases otherwise =>
      subject.subterms ++ expressionsOfCases cases ++ otherwise.expressions
  | .tryCatch body handler => body.expressions ++ handler.expressions

def expressionsOfAll : List Stmt → List Expr
  | [] => []
  | s :: rest => s.expressions ++ expressionsOfAll rest

def expressionsOfCases : List SwitchCase → List Expr
  | [] => []
  | .arm _ body :: rest => body.expressions ++ expressionsOfCases rest

end

namespace Stmt

/-- Whether the statement handles exceptions itself. -/
def isTryCatch : Stmt → Bool
  | .tryCatch _ _ => true
  | _ => false

mutual

/-- Whether lowering the statement leaves no text: nothing but blocks of
nothing. -/
def isEmpty : Stmt → Bool
  | .nop => true
  | .block body => allEmpty body
  | _ => false

def allEmpty : List Stmt → Bool
  | [] => true
  | s :: rest => s.isEmpty && allEmpty rest

end

end Stmt

/-- Whether a handler stands anywhere in the body. -/
def Body.hasTraps (b : Body) : Bool :=
  b.stmt.substatements.any Stmt.isTryCatch

end ClassScript
