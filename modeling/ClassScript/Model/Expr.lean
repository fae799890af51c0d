import ClassScript.Model.Literal

/-!
Expressions of method bodies. They are trees without side conditions: whether
an operator applies to its operands is found out when the tree is lowered.
-/

namespace ClassScript

/-- Unary operators: arithmetic negation, bitwise and boolean complement. -/
inductive UnaryOp where
  | neg
  | inv
  | not
  deriving DecidableEq

/-- Binary operators. `lcmp`, `cmpl` and `cmpg` compare three ways; with an
operand that is no number `cmpl` yields -1 and `cmpg` 1. -/
inductive BinaryOp where
  | add
  | sub
  | mul
  | div
  | rem
  | and
  | or
  | xor
  | shl
  | shr
  | ushr
  | eq
  | ne
  | lt
  | le
  | gt
  | ge
  | lcmp
  | cmpl
  | cmpg
  | boolAnd
  | boolOr
  deriving DecidableEq

/-- Expressions. `caught` is the exception of the innermost enclosing handler,
`slot` a local variable, and `callSuper` a call that skips overriding. -/
inductive Expr where
  | literal (value : Literal)
  | slot (name : String)
  | param (name : String)
  | this
  | caught
  | instanceField (object : Expr) (field : FieldRef)
  | staticField (field : FieldRef)
  | unary (op : UnaryOp) (kind : OperandKind) (operand : Expr)
  | binary (op : BinaryOp) (kind : OperandKind) (left right : Expr)
  | cast (value : Expr) (source target : Ty)
  | instanceOf (value : Expr) (type : Ty)
  | checkCast (value : Expr) (type : Ty)
  | callStatic (method : MethodRef) (args : List Expr)
  | callInstance (object : Expr) (method : MethodRef) (args : List Expr)
  | callSuper (object : Expr) (method : MethodRef) (args : List Expr)
  | construct (owner : ClassName) (ctor : MethodRef) (args : List Expr)
  | newArray (type : Ty) (length : Expr)
  | arrayLength (array : Expr)
  | arrayGet (array index : Expr)
  | ternary (cond yes no : Expr)

mutual

/-- The expression and all inside it, each before its operands and these from
left to right. -/
def Expr.subterms : Expr → List Expr
  | e@(.literal _) => [e]
  | e@(.slot _) => [e]
  | e@(.param _) => [e]
  | e@.this => [e]
  | e@.caught => [e]
  | e@(.staticField _) => [e]
  | e@(.instanceField object _) => e :: object.subterms
  | e@(.unary _ _ operand) => e :: operand.subterms
  | e@(.binary _ _ left right) => e :: (left.subterms ++ right.subterms)
  | e@(.cast value _ _) => e :: value.subterms
  | e@(.instanceOf value _) => e :: value.subterms
  | e@(.checkCast value _) => e :: value.subterms
  | e@(.callStatic _ args) => e :: subtermsOfAll args
  | e@(.callInstance object _ args) => e :: (object.subterms ++ subtermsOfAll args)
  | e@(.callSuper object _ args) => e :: (object.subterms ++ subtermsOfAll args)
  | e@(.construct _ _ args) => e :: subtermsOfAll args
  | e@(.newArray _ length) => e :: length.subterms
  | e@(.arrayLength array) => e :: array.subterms
  | e@(.arrayGet array index) => e :: (array.subterms ++ index.subterms)
  | e@(.ternary cond yes no) => e :: (cond.subterms ++ yes.subterms ++ no.subterms)

/-- The subterms of several expressions, one after the other. -/
def subtermsOfAll : List Expr → List Expr
  | [] => []
  | e :: rest => e.subterms ++ subtermsOfAll rest

end

end ClassScript
