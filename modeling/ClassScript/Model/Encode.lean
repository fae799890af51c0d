import ClassScript.Json.Value
import ClassScript.Model.Program

/-!
The JSON form of the model: records as objects with every field in the declared
order, alternatives as strings, or as objects of one member when they carry
something.
-/

namespace ClassScript

namespace Json

/-- An alternative that carries something. -/
def tag (name : String) (payload : Json) : Json :=
  .object [(name, payload)]

/-- A value, or `null` in place of none. -/
def ofOption {α : Type} (encode : α → Json) : Option α → Json
  | none => .null
  | some value => encode value

def ofList {α : Type} (encode : α → Json) (values : List α) : Json :=
  .list (values.map encode)

end Json

def ClassName.toJson (n : ClassName) : Json :=
  .string n.text

def Ty.toJson : Ty → Json
  | .void => .string "void"
  | .bool => .string "bool"
  | .byte => .string "byte"
  | .char => .string "char"
  | .short => .string "short"
  | .int => .string "int"
  | .long => .string "long"
  | .float => .string "float"
  | .double => .string "double"
  | .ref name => .tag "ref" name.toJson
  | .array element => .tag "array" element.toJson

def OperandKind.toJson : OperandKind → Json
  | .bool => .string "bool"
  | .int => .string "int"
  | .long => .string "long"
  | .float => .string "float"
  | .double => .string "double"
  | .ref => .string "ref"

def Binding.toJson (b : Binding) : Json :=
  .object [("name", .string b.name), ("type", b.type.toJson)]

def Signature.toJson (s : Signature) : Json :=
  .object [("args", .ofList Binding.toJson s.args), ("ret", s.ret.toJson)]

def Literal.toJson : Literal → Json
  | .null => .string "null"
  | .bool value => .tag "bool" (.bool value)
  | .int value => .tag "int" (.integer value.toInt)
  | .long value => .tag "long" (.integer value.toInt)
  | .float bits => .tag "float" (.real Number.single bits.toNat)
  | .double bits => .tag "double" (.real Number.double bits.toNat)
  | .char unit => .tag "char" (.integer unit.toNat)
  | .string text => .tag "string" (.string text)

def FieldRef.toJson (r : FieldRef) : Json :=
  .object [("class", r.owner.toJson), ("name", .string r.name), ("type", r.type.toJson)]

def MethodRef.toJson (r : MethodRef) : Json :=
  .object [("class", r.owner.toJson), ("name", .string r.name), ("type", r.type.toJson)]

def UnaryOp.toJson : UnaryOp → Json
  | .neg => .string "neg"
  | .inv => .string "inv"
  | .not => .string "not"

def BinaryOp.toJson : BinaryOp → Json
  | .add => .string "add"
  | .sub => .string "sub"
  | .mul => .string "mul"
  | .div => .string "div"
  | .rem => .string "rem"
  | .and => .string "and"
  | .or => .string "or"
  | .xor => .string "xor"
  | .shl => .string "shl"
  | .shr => .string "shr"
  | .ushr => .string "ushr"
  | .eq => .string "eq"
  | .ne => .string "ne"
  | .lt => .string "lt"
  | .le => .string "le"
  | .gt => .string "gt"
  | .ge => .string "ge"
  | .lcmp => .string "lcmp"
  | .cmpl => .string "cmpl"
  | .cmpg => .string "cmpg"
  | .boolAnd => .string "bool_and"
  | .boolOr => .string "bool_or"

mutual

def Expr.toJson : Expr → Json
  | .literal value => .tag "literal" value.toJson
  | .slot name => .tag "local" (.string name)
  | .param name => .tag "param" (.string name)
  | .this => .string "this"
  | .caught => .string "caught_exception"
  | .instanceField object field =>
      .tag "instance_field" (.object [("object", object.toJson), ("field", field.toJson)])
  | .staticField field => .tag "static_field" field.toJson
  | .unary op kind operand =>
      .tag "unary" (.object
        [("op", op.toJson), ("kind", kind.toJson), ("operand", operand.toJson)])
  | .binary op kind left right =>
      .tag "binary" (.object
        [("op", op.toJson), ("kind", kind.toJson), ("left", left.toJson),
         ("right", right.toJson)])
  | .cast value source target =>
      .tag "cast" (.object
        [("value", value.toJson), ("from", source.toJson), ("to", target.toJson)])
  | .instanceOf value type =>
      .tag "instance_of" (.object [("value", value.toJson), ("type", type.toJson)])
  | .checkCast value type =>
      .tag "check_cast" (.object [("value", value.toJson), ("type", type.toJson)])
  | .callStatic method args =>
      .tag "call_static" (.object [("method", method.toJson), ("args", .list (exprsToJson args))])
  | .callInstance object method args =>
      .tag "call_instance" (.object
        [("object", object.toJson), ("method", method.toJson),
         ("args", .list (exprsToJson args))])
  | .callSuper object method args =>
      .tag "call_super" (.object
        [("object", object.toJson), ("method", method.toJson),
         ("args", .list (exprsToJson args))])
  | .construct owner ctor args =>
      .tag "new" (.object
        [("class", owner.toJson), ("ctor", ctor.toJson), ("args", .list (exprsToJson args))])
  | .newArray type length =>
      .tag "new_array" (.object [("type", type.toJson), ("length", length.toJson)])
  | .arrayLength array => .tag "array_length" array.toJson
  | .arrayGet array index =>
      .tag "array_get" (.object [("array", array.toJson), ("index", index.toJson)])
  | .ternary cond yes no =>
      .tag "ternary" (.object
        [("cond", cond.toJson), ("then", yes.toJson), ("otherwise", no.toJson)])

def exprsToJson : List Expr → List Json
  | [] => []
  | e :: rest => e.toJson :: exprsToJson rest

end

mutual

def Stmt.toJson : Stmt → Json
  | .position file line =>
      .tag "line" (.object [("file", .string file), ("line", .integer line.toNat)])
  | .nop => .string "nop"
  | .block body => .tag "block" (.list (stmtsToJson body))
  | .eval value => .tag "expr" value.toJson
  | .ret value => .tag "return" (.ofOption Expr.toJson value)
  | .setSlot name value =>
      .tag "set_local" (.object [("local", .string name), ("value", value.toJson)])
  | .setInstanceField object field value =>
      .tag "set_instance_field" (.object
        [("object", object.toJson), ("field", field.toJson), ("value", value.toJson)])
  | .setStaticField field value =>
      .tag "set_static_field" (.object [("field", field.toJson), ("value", value.toJson)])
  | .setArray array index value =>
      .tag "set_array" (.object
        [("array", array.toJson), ("index", index.toJson), ("value", value.toJson)])
  | .fillArray array start values =>
      .tag "set_array_literals" (.object
        [("array", array.toJson), ("start", .integer start.toNat),
         ("values", .ofList Expr.toJson values)])
  | .when cond yes => .tag "if" (.object [("cond", cond.toJson), ("then", yes.toJson)])
  | .choose cond yes no =>
      .tag "if_else" (.object
        [("cond", cond.toJson), ("then", yes.toJson), ("otherwise", no.toJson)])
  | .loop label cond body =>
      .tag "while" (.object
        [("label", .ofOption .string label), ("cond", cond.toJson), ("body", body.toJson)])
  | .leave label => .tag "break" (.ofOption .string label)
  | .again label => .tag "continue" (.ofOption .string label)
  | .switch subject cases otherwise =>
      .tag "switch" (.object
        [("subject", subject.toJson), ("cases", .list (casesToJson cases)),
         ("default", otherwise.toJson)])
  | .throw value => .tag "throw" value.toJson
  | .tryCatch body handler =>
      .tag "try_catch" (.object [("body", body.toJson), ("catch", handler.toJson)])
  | .rethrow => .string "rethrow"

def stmtsToJson : List Stmt → List Json
  | [] => []
  | s :: rest => s.toJson :: stmtsToJson rest

def casesToJson : List SwitchCase → List Json
  | [] => []
  | .arm values body :: rest =>
      .object [("values", .ofList (fun v => .integer v.toInt) values), ("body", body.toJson)]
        :: casesToJson rest

end

def SwitchCase.toJson (c : SwitchCase) : Json :=
  .object [("values", .ofList (fun v => .integer v.toInt) c.values), ("body", c.body.toJson)]

def Body.toJson (b : Body) : Json :=
  .object [("locals", .ofList Binding.toJson b.locals), ("stmt", b.stmt.toJson)]

def ClassKind.toJson : ClassKind → Json
  | .concrete => .string "concrete"
  | .abstract => .string "abstract"
  | .interface => .string "interface"

def Role.toJson : Role → Json
  | .ordinary => .string "ordinary"
  | .instanceInit => .string "instance_init"
  | .staticInit => .string "static_init"

def NativeBody.toJson (n : NativeBody) : Json :=
  .object [("target", .string n.target), ("cond", .string n.guard), ("body", .string n.text)]

def Field.toJson (f : Field) : Json :=
  .object
    [("name", .string f.name), ("class", f.owner.toJson), ("is_static", .bool f.isStatic),
     ("type", f.type.toJson), ("constant", .ofOption Literal.toJson f.constant)]

def Method.toJson (m : Method) : Json :=
  .object
    [("name", .string m.name), ("class", m.owner.toJson), ("type", m.type.toJson),
     ("is_static", .bool m.isStatic), ("kind", m.role.toJson),
     ("native_name", .ofOption .string m.nativeName), ("body", .ofOption Body.toJson m.body),
     ("body_ref", .ofOption MethodRef.toJson m.bodyRef),
     ("native_bodies", .ofList NativeBody.toJson m.natives),
     ("void_return_this", .bool m.fluent)]

def Class.toJson (c : Class) : Json :=
  .object
    [("name", c.name.toJson), ("extending", .ofOption ClassName.toJson c.parent),
     ("implementing", .ofList ClassName.toJson c.interfaces),
     ("class_id", .integer c.id.toNat), ("kind", c.kind.toJson),
     ("fields", .ofList Field.toJson c.fields), ("methods", .ofList Method.toJson c.methods),
     ("impl_code", .ofOption .string c.verbatim), ("is_native", .bool c.isNative)]

def CustomMain.toJson (m : CustomMain) : Json :=
  .object [("target", .string m.target), ("value", .string m.text)]

def Program.toJson (p : Program) : Json :=
  .object
    [("classes", .ofList Class.toJson p.classes), ("entrypoint", p.entry.toJson),
     ("custom_mains", .ofList CustomMain.toJson p.customMains)]

end ClassScript
