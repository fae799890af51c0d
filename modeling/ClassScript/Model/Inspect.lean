import ClassScript.Model.Expr
import ClassScript.Number.Decimal
import ClassScript.Text.Inspect
import ClassScript.Text.Integer

/-!
Inspection text of expressions and of all that stands in them, as messages
about a faulty expression quote it.
-/

namespace ClassScript

def ClassName.inspect (n : ClassName) : String :=
  Inspect.tuple "ClassName" [Inspect.string n.text]

def Ty.inspect : Ty → String
  | .void => "Void"
  | .bool => "Bool"
  | .byte => "Byte"
  | .char => "Char"
  | .short => "Short"
  | .int => "Int"
  | .long => "Long"
  | .float => "Float"
  | .double => "Double"
  | .ref name => Inspect.tuple "Ref" [name.inspect]
  | .array element => Inspect.tuple "Array" [element.inspect]

def OperandKind.inspect : OperandKind → String
  | .bool => "Bool"
  | .int => "Int"
  | .long => "Long"
  | .float => "Float"
  | .double => "Double"
  | .ref => "Ref"

def UnaryOp.inspect : UnaryOp → String
  | .neg => "Neg"
  | .inv => "Inv"
  | .not => "Not"

def BinaryOp.inspect : BinaryOp → String
  | .add => "Add"
  | .sub => "Sub"
  | .mul => "Mul"
  | .div => "Div"
  | .rem => "Rem"
  | .and => "And"
  | .or => "Or"
  | .xor => "Xor"
  | .shl => "Shl"
  | .shr => "Shr"
  | .ushr => "Ushr"
  | .eq => "Eq"
  | .ne => "Ne"
  | .lt => "Lt"
  | .le => "Le"
  | .gt => "Gt"
  | .ge => "Ge"
  | .lcmp => "Lcmp"
  | .cmpl => "Cmpl"
  | .cmpg => "Cmpg"
  | .boolAnd => "BoolAnd"
  | .boolOr => "BoolOr"

def Literal.inspect : Literal → String
  | .null => "Null"
  | .bool value => Inspect.tuple "Bool" [if value then "true" else "false"]
  | .int value => Inspect.tuple "Int" [Text.integer value.toInt]
  | .long value => Inspect.tuple "Long" [Text.integer value.toInt]
  | .float bits => Inspect.tuple "Float" [Number.inspected.text Number.single bits.toNat]
  | .double bits => Inspect.tuple "Double" [Number.inspected.text Number.double bits.toNat]
  | .char unit => Inspect.tuple "Char" [Text.natural unit.toNat]
  | .string text => Inspect.tuple "String" [Inspect.string text]

def Binding.inspect (label : String) (b : Binding) : String :=
  Inspect.record label [("name", Inspect.string b.name), ("ty", b.type.inspect)]

def Signature.inspect (s : Signature) : String :=
  Inspect.record "MethodType"
    [("args", Inspect.list (s.args.map (Binding.inspect "Param"))), ("ret", s.ret.inspect)]

def FieldRef.inspect (r : FieldRef) : String :=
  Inspect.record "FieldRef"
    [("class", r.owner.inspect), ("name", Inspect.string r.name), ("ty", r.type.inspect)]

def MethodRef.inspect (r : MethodRef) : String :=
  Inspect.record "MethodRef"
    [("class", r.owner.inspect), ("name", Inspect.string r.name), ("ty", r.type.inspect)]

mutual

def Expr.inspect : Expr → String
  | .literal value => Inspect.tuple "Literal" [value.inspect]
  | .slot name => Inspect.tuple "Local" [Inspect.string name]
  | .param name => Inspect.tuple "Param" [Inspect.string name]
  | .this => "This"
  | .caught => "CaughtException"
  | .instanceField object field =>
      Inspect.record "InstanceField" [("object", object.inspect), ("field", field.inspect)]
  | .staticField field => Inspect.tuple "StaticField" [field.inspect]
  | .unary op kind operand =>
      Inspect.record "Unary"
        [("op", op.inspect), ("kind", kind.inspect), ("operand", operand.inspect)]
  | .binary op kind left right =>
      Inspect.record "Binary"
        [("op", op.inspect), ("kind", kind.inspect), ("left", left.inspect),
         ("right", right.inspect)]
  | .cast value source target =>
      Inspect.record "Cast"
        [("value", value.inspect), ("from", source.inspect), ("to", target.inspect)]
  | .instanceOf value type =>
      Inspect.record "InstanceOf" [("value", value.inspect), ("ty", type.inspect)]
  | .checkCast value type =>
      Inspect.record "CheckCast" [("value", value.inspect), ("ty", type.inspect)]
  | .callStatic method args =>
      Inspect.record "CallStatic"
        [("method", method.inspect), ("args", Inspect.list (inspectAll args))]
  | .callInstance object method args =>
      Inspect.record "CallInstance"
        [("object", object.inspect), ("method", method.inspect),
         ("args", Inspect.list (inspectAll args))]
  | .callSuper object method args =>
      Inspect.record "CallSuper"
        [("object", object.inspect), ("method", method.inspect),
         ("args", Inspect.list (inspectAll args))]
  | .construct owner ctor args =>
      Inspect.record "New"
        [("class", owner.inspect), ("ctor", ctor.inspect),
         ("args", Inspect.list (inspectAll args))]
  | .newArray type length =>
      Inspect.record "NewArray" [("ty", type.inspect), ("length", length.inspect)]
  | .arrayLength array => Inspect.tuple "ArrayLength" [array.inspect]
  | .arrayGet array index =>
      Inspect.record "ArrayGet" [("array", array.inspect), ("index", index.inspect)]
  | .ternary cond yes no =>
      Inspect.record "Ternary"
        [("cond", cond.inspect), ("then", yes.inspect), ("otherwise", no.inspect)]

def inspectAll : List Expr → List String
  | [] => []
  | e :: rest => e.inspect :: inspectAll rest

end

end ClassScript
