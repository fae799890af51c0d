import ClassScript.Model.Expr

/-!
Primitive conversions and operators on expression text. Operands are already
expressions of the script; each result keeps the invariant of its kind: `int`
stays a signed 32-bit number through `|0`, `float` goes through `Math.fround`,
and `long` is opaque and handled by helpers of the runtime.
-/

namespace ClassScript.Script

namespace Convert

def boolToInt (v : String) : String := "N.z2i(" ++ v ++ ")"

/-- Truncation to a signed 32-bit number. -/
def int (v : String) : String := "((" ++ v ++ ")|0)"

def intToBool (v : String) : String := "((" ++ v ++ ")!=0)"

def intToByte (v : String) : String := "((" ++ v ++ ")<<24>>24)"

def intToChar (v : String) : String := "((" ++ v ++ ")&0xFFFF)"

def intToShort (v : String) : String := "((" ++ v ++ ")<<16>>16)"

def intToLong (v : String) : String := "N.i2j(" ++ v ++ ")"

def intToFloat (v : String) : String := "Math.fround(+(" ++ v ++ "))"

def intToDouble (v : String) : String := "+(" ++ v ++ ")"

/-- Saturating, with zero for what is no number. -/
def realToInt (v : String) : String := "N.d2i(" ++ v ++ ")"

def realToLong (v : String) : String := "N.d2j(" ++ v ++ ")"

def float (v : String) : String := "Math.fround(" ++ v ++ ")"

def floatToDouble (v : String) : String := "(" ++ v ++ ")"

def doubleToFloat (v : String) : String := "Math.fround(+(" ++ v ++ "))"

def double (v : String) : String := "+(" ++ v ++ ")"

def longToInt (v : String) : String := "N.l2i(" ++ v ++ ")"

def long (v : String) : String := "(" ++ v ++ ")"

/-- One rounding step; by way of a `double` there would be two. -/
def longToFloat (v : String) : String := "N.l2f(" ++ v ++ ")"

def longToDouble (v : String) : String := "N.l2d(" ++ v ++ ")"

/-- An `int` cut down to a narrower type; other types leave it as it is. -/
def narrow (target : Ty) (v : String) : String :=
  match target with
  | .byte => intToByte v
  | .char => intToChar v
  | .short => intToShort v
  | _ => v

end Convert

open ClassScript.Script.Convert in
/-- Conversion between primitive types, or between references. No value is
converted from one of the two worlds to the other, to or from `void`, or
between `bool` and anything but the integers up to `int`. -/
def convert? (source target : Ty) (v : String) : Option String :=
  if source.isReference || target.isReference then
    if source.isReference && target.isReference then some ("(" ++ v ++ ")") else none
  else
    match source.kind, target with
    | _, .void => none
    | .ref, _ => none
    | _, .ref _ => none
    | _, .array _ => none
    | .bool, .bool => some v
    | .bool, .byte => some (boolToInt v)
    | .bool, .char => some (boolToInt v)
    | .bool, .short => some (boolToInt v)
    | .bool, .int => some (boolToInt v)
    | .bool, _ => none
    | .int, .bool => some (intToBool v)
    | .int, .byte => some (intToByte v)
    | .int, .char => some (intToChar v)
    | .int, .short => some (intToShort v)
    | .int, .int => some (int v)
    | .int, .long => some (intToLong v)
    | .int, .float => some (intToFloat v)
    | .int, .double => some (intToDouble v)
    | .long, .long => some (long v)
    | .long, .float => some (longToFloat v)
    | .long, .double => some (longToDouble v)
    | .float, .float => some (float v)
    | .float, .double => some (floatToDouble v)
    | .double, .float => some (doubleToFloat v)
    | .double, .double => some (double v)
    | _, .bool => none
    | .long, _ => some (narrow target (longToInt v))
    | _, .long => some (realToLong v)
    | _, _ => some (narrow target (realToInt v))

namespace Operator

def longNeg (v : String) : String := "N.lneg(" ++ v ++ ")"

def longInv (v : String) : String := "N.linv(" ++ v ++ ")"

def intNeg (v : String) : String := "(-(" ++ v ++ ")|0)"

def intInv (v : String) : String := "~(" ++ v ++ ")"

def realNeg (v : String) : String := "-(" ++ v ++ ")"

def boolNot (v : String) : String := "!(" ++ v ++ ")"

/-- The low 32 bits of a product. -/
def intMul (l r : String) : String := "Math.imul(" ++ l ++ ", " ++ r ++ ")"

/-- Two operands around an operator, in parentheses. -/
def grouped (op l r : String) : String := "(" ++ l ++ " " ++ op ++ " " ++ r ++ ")"

/-- A call of a helper of the runtime. -/
def helper (name l r : String) : String := "N." ++ name ++ "(" ++ l ++ ", " ++ r ++ ")"

/-- The relations that `int`, `float` and `double` share. -/
def relation? : BinaryOp → Option String
  | .eq => some "=="
  | .ne => some "!="
  | .lt => some "<"
  | .le => some "<="
  | .gt => some ">"
  | .ge => some ">="
  | _ => none

def intBinary? (op : BinaryOp) (l r : String) : Option String :=
  match op with
  | .add => some ("(" ++ grouped "+" l r ++ "|0)")
  | .sub => some ("(" ++ grouped "-" l r ++ "|0)")
  | .mul => some (intMul l r)
  | .div => some (helper "idiv" l r)
  | .rem => some (helper "irem" l r)
  | .and => some (grouped "&" l r)
  | .or => some (grouped "|" l r)
  | .xor => some (grouped "^" l r)
  | .shl => some (grouped "<<" l r)
  | .shr => some (grouped ">>" l r)
  | .ushr => some ("(" ++ grouped ">>>" l r ++ "|0)")
  | op => (relation? op).map (grouped · l r)

def longHelper? : BinaryOp → Option String
  | .add => some "ladd"
  | .sub => some "lsub"
  | .mul => some "lmul"
  | .div => some "ldiv"
  | .rem => some "lrem"
  | .and => some "land"
  | .or => some "lor"
  | .xor => some "lxor"
  | .shl => some "lshl"
  | .shr => some "lshr"
  | .ushr => some "lushr"
  | .eq => some "leq"
  | .ne => some "lne"
  | .lt => some "llt"
  | .le => some "lle"
  | .gt => some "lgt"
  | .ge => some "lge"
  | .lcmp => some "lcmp"
  | _ => none

def arithmetic? : BinaryOp → Option String
  | .add => some "+"
  | .sub => some "-"
  | .mul => some "*"
  | .div => some "/"
  | .rem => some "%"
  | _ => none

/-- Arithmetic on reals; `isSingle` tells whether the result is a `float`. -/
def realBinary? (isSingle : Bool) (op : BinaryOp) (l r : String) : Option String :=
  match arithmetic? op, op with
  | some sign, _ =>
      some (if isSingle then Convert.float (l ++ " " ++ sign ++ " " ++ r) else grouped sign l r)
  | none, .cmpl => some (helper "cmpl" l r)
  | none, .cmpg => some (helper "cmpg" l r)
  | none, op => (relation? op).map (grouped · l r)

def boolBinary? (op : BinaryOp) (l r : String) : Option String :=
  match op with
  | .and => some ("!!" ++ grouped "&" l r)
  | .or => some ("!!" ++ grouped "|" l r)
  | .xor => some ("!!" ++ grouped "^" l r)
  | .eq => some (grouped "==" l r)
  | .ne => some (grouped "!=" l r)
  | .boolAnd => some (grouped "&&" l r)
  | .boolOr => some (grouped "||" l r)
  | _ => none

def refBinary? (op : BinaryOp) (l r : String) : Option String :=
  match op with
  | .eq => some (grouped "==" l r)
  | .ne => some (grouped "!=" l r)
  | _ => none

end Operator

open ClassScript.Script.Operator in
/-- A unary operator on an operand of one kind, where it is defined. -/
def unary? (op : UnaryOp) (kind : OperandKind) (v : String) : Option String :=
  match op, kind with
  | .neg, .int => some (intNeg v)
  | .neg, .long => some (longNeg v)
  | .neg, .float => some (realNeg v)
  | .neg, .double => some (realNeg v)
  | .inv, .int => some (intInv v)
  | .inv, .long => some (longInv v)
  | .not, .bool => some (boolNot v)
  | _, _ => none

open ClassScript.Script.Operator in
/-- A binary operator on operands of one kind, where it is defined. -/
def binary? (op : BinaryOp) (kind : OperandKind) (l r : String) : Option String :=
  match kind with
  | .int => intBinary? op l r
  | .long => (longHelper? op).map (helper · l r)
  | .float => realBinary? true op l r
  | .double => realBinary? false op l r
  | .bool => boolBinary? op l r
  | .ref => refBinary? op l r

end ClassScript.Script
