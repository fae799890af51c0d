import ClassScript.Proofs.Grammar
import Mathlib.Algebra.Group.Nat.Defs

/-!
Values of script expressions. Numbers are whole and exact below 2^53, with a
zero that is negative; what leaves this range has no value here, nor has any
name that is not in scope. The functions of the runtime are given from outside.
-/

namespace ClassScript.Reading

/-- Numbers and booleans, as far as whole numbers go. -/
inductive Value where
  | number (value : Int)
  | minusZero
  | boolean (value : Bool)
  deriving DecidableEq

namespace Value

/-- The number that a value counts as. -/
def integer : Value → Int
  | .number n => n
  | .minusZero => 0
  | .boolean b => if b then 1 else 0

/-- Whether a condition takes the value for true. -/
def truthy : Value → Bool
  | .number n => n ≠ 0
  | .minusZero => false
  | .boolean b => b

/-- The low 32 bits of the number, which signed and unsigned operators read. -/
def word (v : Value) : BitVec 32 :=
  BitVec.ofInt 32 v.integer

/-- A number that is represented exactly. -/
def ofInt? (n : Int) : Option Value :=
  if n.natAbs < 2 ^ 53 then some (.number n) else none

theorem ofInt?_of_lt {n : Int} (h : n.natAbs < 2 ^ 53) : ofInt? n = some (.number n) :=
  if_pos h

def signed (bits : BitVec 32) : Value := .number bits.toInt

def unsigned (bits : BitVec 32) : Value := .number bits.toNat

/-- The distance of a shift. -/
def distance (v : Value) : Nat := v.word.toNat % 32

def negate : Value → Value
  | .minusZero => .number 0
  | v => if v.integer = 0 then .minusZero else .number (-v.integer)

def add? (l r : Value) : Option Value :=
  if l = .minusZero ∧ r = .minusZero then some .minusZero else ofInt? (l.integer + r.integer)

def unary? (op : String) (v : Value) : Option Value :=
  if op = "-" then some v.negate
  else if op = "+" then some (if v = .minusZero then v else .number v.integer)
  else if op = "~" then some (signed (~~~v.word))
  else if op = "!" then some (.boolean !v.truthy)
  else none

/-- Operators that need both operands. Multiplication of reals and remainders
are left out. -/
def binary? (op : String) (l r : Value) : Option Value :=
  if op = "+" then add? l r
  else if op = "-" then add? l r.negate
  else if op = "&" then some (signed (l.word &&& r.word))
  else if op = "|" then some (signed (l.word ||| r.word))
  else if op = "^" then some (signed (l.word ^^^ r.word))
  else if op = "<<" then some (signed (l.word <<< r.distance))
  else if op = ">>" then some (signed (l.word.sshiftRight r.distance))
  else if op = ">>>" then some (unsigned (l.word >>> r.distance))
  else if op = "<" then some (.boolean (l.integer < r.integer))
  else if op = "<=" then some (.boolean (l.integer ≤ r.integer))
  else if op = ">" then some (.boolean (r.integer < l.integer))
  else if op = ">=" then some (.boolean (r.integer ≤ l.integer))
  else if op = "==" then some (.boolean (l.integer = r.integer))
  else if op = "!=" then some (.boolean (l.integer ≠ r.integer))
  else none

/-- The signed low 32 bits of a product. -/
def imul (l r : Value) : Value := signed (l.word * r.word)

end Value

/-- The functions of the runtime, by the name of their member. -/
abbrev Runtime := String → List Value → Option Value

/-- The runtime's conversion of booleans gives one for true and zero for false. -/
def CountsBooleans (runtime : Runtime) : Prop :=
  ∀ b, runtime "z2i" [.boolean b] = some (.number (if b then 1 else 0))

/-- The variables in scope. -/
abbrev Scope := List (String × Value)

/-- A call of a function of the language or of the runtime. A variable of the
name would hide either. -/
def callValue (runtime : Runtime) (scope : Scope) : Tree → List Value → Option Value
  | .member (.reference object) name, args =>
      if (scope.lookup object).isSome then none
      else if object = "N" then runtime name args
      else
        match object, name, args with
        | "Math", "imul", [l, r] => some (.imul l r)
        | _, _, _ => none
  | _, _ => none

mutual

/-- The value of an expression. -/
def eval (runtime : Runtime) (scope : Scope) : Tree → Option Value
  | .number n => Value.ofInt? n
  | .boolean b => some (.boolean b)
  | .reference name => scope.lookup name
  | .member _ _ => none
  | .call callee args => do
      let values ← evalAll runtime scope args
      callValue runtime scope callee values
  | .unary op operand => do
      let v ← eval runtime scope operand
      v.unary? op
  | .binary op left right => do
      let l ← eval runtime scope left
      if op = "&&" then if l.truthy then eval runtime scope right else return l
      else if op = "||" then if l.truthy then return l else eval runtime scope right
      else
        let r ← eval runtime scope right
        Value.binary? op l r
  | .conditional cond yes no => do
      let c ← eval runtime scope cond
      if c.truthy then eval runtime scope yes else eval runtime scope no

def evalAll (runtime : Runtime) (scope : Scope) : List Tree → Option (List Value)
  | [] => some []
  | t :: rest => do
      let v ← eval runtime scope t
      let values ← evalAll runtime scope rest
      return v :: values

end

end ClassScript.Reading
