import ClassScript.Model.Expr
import ClassScript.Script.Identifier
import ClassScript.Script.Operator
import Mathlib.Data.List.Basic

/-!
Expressions over 32-bit integers and booleans: which are well typed, and what
their values are. Integers wrap, a shift goes by the low five bits of its
distance, and values narrower than `int` are computed as `int`.
-/

namespace ClassScript.Integers

/-- What a variable holds. -/
inductive Held where
  | int (value : Int32)
  | char (value : UInt16)
  | short (value : Int16)
  | byte (value : Int8)
  | bool (value : Bool)

/-- The values that operators take and give. -/
inductive Datum where
  | int (value : Int32)
  | bool (value : Bool)
  deriving DecidableEq

def Datum.kind : Datum → OperandKind
  | .int _ => .int
  | .bool _ => .bool

/-- A unit of text as a number; it has no sign. -/
def unit (v : UInt16) : Int32 := Int32.ofBitVec (v.toBitVec.setWidth 32)

def Held.datum : Held → Datum
  | .int v => .int v
  | .char v => .int (unit v)
  | .short v => .int v.toInt32
  | .byte v => .int v.toInt32
  | .bool v => .bool v

/-- A local variable or a parameter with what it holds. -/
structure Variable where
  isParam : Bool
  name : String
  held : Held

/-- The name of the variable in script text. -/
def Variable.identifier (v : Variable) : String := Script.variableName v.name

/-- What the local or the parameter of that name holds. -/
def held? (vars : List Variable) (isParam : Bool) (name : String) : Option Held :=
  (vars.find? fun v => v.isParam = isParam ∧ v.name = name).map (·.held)

/-- The kind of the result of an operator on operands of one kind. Division and
remainder are left out, as they may fail. -/
def resultKind? : OperandKind → BinaryOp → Option OperandKind
  | .int, .add | .int, .sub | .int, .mul | .int, .and | .int, .or | .int, .xor
  | .int, .shl | .int, .shr | .int, .ushr => some .int
  | .int, .eq | .int, .ne | .int, .lt | .int, .le | .int, .gt | .int, .ge => some .bool
  | .bool, .and | .bool, .or | .bool, .xor | .bool, .eq | .bool, .ne
  | .bool, .boolAnd | .bool, .boolOr => some .bool
  | _, _ => none

/-- These are all operators that have a text for integers, but the two left out. -/
theorem resultKind?_int (op : BinaryOp) (l r : String) :
    (resultKind? .int op).isSome ↔ op ≠ .div ∧ op ≠ .rem ∧ (Script.binary? op .int l r).isSome := by
  cases op <;> simp [resultKind?, Script.binary?, Script.Operator.intBinary?,
    Script.Operator.relation?]

/-- And all that have a text for booleans. -/
theorem resultKind?_bool (op : BinaryOp) (l r : String) :
    (resultKind? .bool op).isSome ↔ (Script.binary? op .bool l r).isSome := by
  cases op <;> simp [resultKind?, Script.binary?, Script.Operator.boolBinary?]

/-- The types whose values are integers or booleans. -/
def isIntegral (type : Ty) : Bool :=
  type ∈ [.bool, .byte, .char, .short, .int]

/-- The well-typed expressions with the kind of their values. -/
inductive HasKind (vars : List Variable) : Expr → OperandKind → Prop where
  | int (v : Int32) : HasKind vars (.literal (.int v)) .int
  | bool (b : Bool) : HasKind vars (.literal (.bool b)) .bool
  | char (u : UInt16) : HasKind vars (.literal (.char u)) .int
  | slot {name : String} {held : Held} (h : held? vars false name = some held) :
      HasKind vars (.slot name) held.datum.kind
  | param {name : String} {held : Held} (h : held? vars true name = some held) :
      HasKind vars (.param name) held.datum.kind
  | neg {e : Expr} (h : HasKind vars e .int) : HasKind vars (.unary .neg .int e) .int
  | inv {e : Expr} (h : HasKind vars e .int) : HasKind vars (.unary .inv .int e) .int
  | not {e : Expr} (h : HasKind vars e .bool) : HasKind vars (.unary .not .bool e) .bool
  | binary {op : BinaryOp} {kind result : OperandKind} {l r : Expr}
      (hop : resultKind? kind op = some result) (hl : HasKind vars l kind)
      (hr : HasKind vars r kind) : HasKind vars (.binary op kind l r) result
  | cast {e : Expr} {source target : Ty} (hsource : isIntegral source) (htarget : isIntegral target)
      (h : HasKind vars e source.kind) : HasKind vars (.cast e source target) target.kind
  | ternary {c y n : Expr} {kind : OperandKind} (hc : HasKind vars c .bool)
      (hy : HasKind vars y kind) (hn : HasKind vars n kind) : HasKind vars (.ternary c y n) kind

/-- The names of the locals and parameters that an expression reads. -/
def readNames (e : Expr) : List String :=
  e.subterms.filterMap fun
    | .slot name | .param name => some name
    | _ => none

/-- The low five bits, by which shifts go. -/
def distance (v : Int32) : Nat := v.toBitVec.toNat % 32

def intBinary? (l r : Int32) : BinaryOp → Option Datum
  | .add => some (.int (l + r))
  | .sub => some (.int (l - r))
  | .mul => some (.int (l * r))
  | .and => some (.int (l &&& r))
  | .or => some (.int (l ||| r))
  | .xor => some (.int (l ^^^ r))
  | .shl => some (.int (.ofBitVec (l.toBitVec <<< distance r)))
  | .shr => some (.int (.ofBitVec (l.toBitVec.sshiftRight (distance r))))
  | .ushr => some (.int (.ofBitVec (l.toBitVec >>> distance r)))
  | .eq => some (.bool (l = r))
  | .ne => some (.bool (l ≠ r))
  | .lt => some (.bool (l < r))
  | .le => some (.bool (l ≤ r))
  | .gt => some (.bool (r < l))
  | .ge => some (.bool (r ≤ l))
  | _ => none

def boolBinary? (l r : Bool) : BinaryOp → Option Datum
  | .and | .boolAnd => some (.bool (l && r))
  | .or | .boolOr => some (.bool (l || r))
  | .xor | .ne => some (.bool (l != r))
  | .eq => some (.bool (l == r))
  | _ => none

def Datum.binary? : Datum → Datum → BinaryOp → Option Datum
  | .int l, .int r, op => intBinary? l r op
  | .bool l, .bool r, op => boolBinary? l r op
  | _, _, _ => none

def Datum.unary? : UnaryOp → Datum → Option Datum
  | .neg, .int v => some (.int (-v))
  | .inv, .int v => some (.int (~~~v))
  | .not, .bool b => some (.bool !b)
  | _, _ => none

/-- The integer cut down to a type: the low bits, with a sign but for `char`. -/
def narrow (v : Int32) : Ty → Option Datum
  | .bool => some (.bool (v ≠ 0))
  | .byte => some (.int v.toInt8.toInt32)
  | .char => some (.int (unit ⟨v.toBitVec.setWidth 16⟩))
  | .short => some (.int v.toInt16.toInt32)
  | .int => some (.int v)
  | _ => none

def Datum.convert? : Datum → Ty → Option Datum
  | .int v, target => narrow v target
  | .bool b, .bool => some (.bool b)
  | .bool b, target => narrow (if b then 1 else 0) target

/-- The value of an expression. -/
def evaluate (vars : List Variable) : Expr → Option Datum
  | .literal (.int v) => some (.int v)
  | .literal (.bool b) => some (.bool b)
  | .literal (.char u) => some (.int (unit u))
  | .slot name => (held? vars false name).map Held.datum
  | .param name => (held? vars true name).map Held.datum
  | .unary op _ operand => do
      let v ← evaluate vars operand
      v.unary? op
  | .binary op _ left right => do
      let l ← evaluate vars left
      let r ← evaluate vars right
      l.binary? r op
  | .cast value _ target => do
      let v ← evaluate vars value
      v.convert? target
  | .ternary cond yes no => do
      match ← evaluate vars cond with
      | .bool true => evaluate vars yes
      | .bool false => evaluate vars no
      | .int _ => none
  | _ => none

end ClassScript.Integers
