import ClassScript.Json.Record
import ClassScript.Model.Program
import ClassScript.Text.Position

/-!
Reading the model from JSON. Each reader takes the budget of brackets that may
still be opened; the readers of types, expressions and statements recurse with
the smaller budget that remains inside a bracket.
-/

namespace ClassScript

open Json (Decoder)
open Json.Decoder

/-- A field that has to be there. -/
abbrev required {budget : Nat} {α : Type} {αs : List Type} (name : String)
    (read : Nested budget α) (rest : Fields budget αs) : Fields budget (α :: αs) :=
  .cons name read none rest

/-- A field that has a value also when it is absent. -/
abbrev optional {budget : Nat} {α : Type} {αs : List Type} (name : String) (default : α)
    (read : Nested budget α) (rest : Fields budget αs) : Fields budget (α :: αs) :=
  .cons name read (some default) rest

/-- A value whose reader opens no bracket. -/
abbrev flat {budget : Nat} {α : Type} (read : Decoder α) : Nested budget α :=
  fun _ _ => read

/-- A value whose reader needs to know the budget. -/
abbrev deep {budget : Nat} {α : Type} (read : Nat → Decoder α) : Nested budget α :=
  fun inner _ => read inner

/-- A list of values whose reader needs to know the budget. -/
abbrev listOf {budget : Nat} {α : Type} (read : Nat → Decoder α) : Nested budget (List α) :=
  fun inner _ => list inner (deep read)

def decodeInt32 : Decoder Int32 :=
  Int32.ofInt <$> integer Int32.minValue.toInt Int32.maxValue.toInt "i32"

def decodeInt64 : Decoder Int64 :=
  Int64.ofInt <$> integer Int64.minValue.toInt Int64.maxValue.toInt "i64"

def decodeUInt16 : Decoder UInt16 := do
  return UInt16.ofNat (← integer 0 (UInt16.size - 1 : Nat) "u16").toNat

def decodeUInt32 : Decoder UInt32 := do
  return UInt32.ofNat (← integer 0 (UInt32.size - 1 : Nat) "u32").toNat

def decodeSingle : Decoder UInt32 := do
  return UInt32.ofNat (← real Number.single "f32")

def decodeDouble : Decoder UInt64 := do
  return UInt64.ofNat (← real Number.double "f64")

def ClassName.decode : Decoder ClassName :=
  ClassName.mk <$> string

def Ty.decode (budget : Nat) : Decoder Ty :=
  tagged budget
    [("void", .unit .void),
     ("bool", .unit .bool),
     ("byte", .unit .byte),
     ("char", .unit .char),
     ("short", .unit .short),
     ("int", .unit .int),
     ("long", .unit .long),
     ("float", .unit .float),
     ("double", .unit .double),
     ("ref", .single fun _ _ => Ty.ref <$> ClassName.decode),
     ("array", .single fun inner _ => Ty.array <$> Ty.decode inner)]
termination_by budget

def OperandKind.decode (budget : Nat) : Decoder OperandKind :=
  tagged budget
    [("bool", .unit .bool),
     ("int", .unit .int),
     ("long", .unit .long),
     ("float", .unit .float),
     ("double", .unit .double),
     ("ref", .unit .ref)]

/-- A name with a type; the label tells parameters from locals. -/
def Binding.decode (label : String) (budget : Nat) : Decoder Binding :=
  record budget label
    (required "name" (flat string) <|
     required "type" (deep Ty.decode) .nil)
    fun (name, type, ()) => { name, type }

def Binding.decodeParam : Nat → Decoder Binding :=
  Binding.decode "struct Param"

def Binding.decodeLocal : Nat → Decoder Binding :=
  Binding.decode "struct Local"

def Signature.decode (budget : Nat) : Decoder Signature :=
  record budget "struct MethodType"
    (optional "args" [] (listOf Binding.decodeParam) <|
     required "ret" (deep Ty.decode) .nil)
    fun (args, ret, ()) => { args, ret }

def Literal.decode (budget : Nat) : Decoder Literal :=
  tagged budget
    [("null", .unit .null),
     ("bool", .single (flat (.bool <$> Decoder.bool))),
     ("int", .single (flat (.int <$> decodeInt32))),
     ("long", .single (flat (.long <$> decodeInt64))),
     ("float", .single (flat (.float <$> decodeSingle))),
     ("double", .single (flat (.double <$> decodeDouble))),
     ("char", .single (flat (.char <$> decodeUInt16))),
     ("string", .single (flat (.string <$> Decoder.string)))]

def FieldRef.decode (budget : Nat) : Decoder FieldRef :=
  record budget "struct FieldRef"
    (required "class" (flat ClassName.decode) <|
     required "name" (flat string) <|
     required "type" (deep Ty.decode) .nil)
    fun (owner, name, type, ()) => { owner, name, type }

def MethodRef.decode (budget : Nat) : Decoder MethodRef :=
  record budget "struct MethodRef"
    (required "class" (flat ClassName.decode) <|
     required "name" (flat string) <|
     required "type" (deep Signature.decode) .nil)
    fun (owner, name, type, ()) => { owner, name, type }

def UnaryOp.decode (budget : Nat) : Decoder UnaryOp :=
  tagged budget
    [("neg", .unit .neg),
     ("inv", .unit .inv),
     ("not", .unit .not)]

def BinaryOp.decode (budget : Nat) : Decoder BinaryOp :=
  tagged budget
    [("add", .unit .add),
     ("sub", .unit .sub),
     ("mul", .unit .mul),
     ("div", .unit .div),
     ("rem", .unit .rem),
     ("and", .unit .and),
     ("or", .unit .or),
     ("xor", .unit .xor),
     ("shl", .unit .shl),
     ("shr", .unit .shr),
     ("ushr", .unit .ushr),
     ("eq", .unit .eq),
     ("ne", .unit .ne),
     ("lt", .unit .lt),
     ("le", .unit .le),
     ("gt", .unit .gt),
     ("ge", .unit .ge),
     ("lcmp", .unit .lcmp),
     ("cmpl", .unit .cmpl),
     ("cmpg", .unit .cmpg),
     ("bool_and", .unit .boolAnd),
     ("bool_or", .unit .boolOr)]

def Expr.decode (budget : Nat) : Decoder Expr :=
  tagged budget
    [("literal", .single (deep fun inner => Expr.literal <$> Literal.decode inner)),
     ("local", .single (flat (Expr.slot <$> string))),
     ("param", .single (flat (Expr.param <$> string))),
     ("this", .unit .this),
     ("caught_exception", .unit .caught),
     ("instance_field", .fields fun inner _ =>
       record inner "struct variant Expr::InstanceField"
         (required "object" (fun b _ => Expr.decode b) <|
          required "field" (deep FieldRef.decode) .nil)
         fun (object, field, ()) => .instanceField object field),
     ("static_field", .single (deep fun inner => Expr.staticField <$> FieldRef.decode inner)),
     ("unary", .fields fun inner _ =>
       record inner "struct variant Expr::Unary"
         (required "op" (deep UnaryOp.decode) <|
          required "kind" (deep OperandKind.decode) <|
          required "operand" (fun b _ => Expr.decode b) .nil)
         fun (op, kind, operand, ()) => .unary op kind operand),
     ("binary", .fields fun inner _ =>
       record inner "struct variant Expr::Binary"
         (required "op" (deep BinaryOp.decode) <|
          required "kind" (deep OperandKind.decode) <|
          required "left" (fun b _ => Expr.decode b) <|
          required "right" (fun b _ => Expr.decode b) .nil)
         fun (op, kind, left, right, ()) => .binary op kind left right),
     ("cast", .fields fun inner _ =>
       record inner "struct variant Expr::Cast"
         (required "value" (fun b _ => Expr.decode b) <|
          required "from" (deep Ty.decode) <|
          required "to" (deep Ty.decode) .nil)
         fun (value, source, target, ()) => .cast value source target),
     ("instance_of", .fields fun inner _ =>
       record inner "struct variant Expr::InstanceOf"
         (required "value" (fun b _ => Expr.decode b) <|
          required "type" (deep Ty.decode) .nil)
         fun (value, type, ()) => .instanceOf value type),
     ("check_cast", .fields fun inner _ =>
       record inner "struct variant Expr::CheckCast"
         (required "value" (fun b _ => Expr.decode b) <|
          required "type" (deep Ty.decode) .nil)
         fun (value, type, ()) => .checkCast value type),
     ("call_static", .fields fun inner _ =>
       record inner "struct variant Expr::CallStatic"
         (required "method" (deep MethodRef.decode) <|
          optional "args" [] (fun b _ => list b fun c _ => Expr.decode c) .nil)
         fun (method, args, ()) => .callStatic method args),
     ("call_instance", .fields fun inner _ =>
       record inner "struct variant Expr::CallInstance"
         (required "object" (fun b _ => Expr.decode b) <|
          required "method" (deep MethodRef.decode) <|
          optional "args" [] (fun b _ => list b fun c _ => Expr.decode c) .nil)
         fun (object, method, args, ()) => .callInstance object method args),
     ("call_super", .fields fun inner _ =>
       record inner "struct variant Expr::CallSuper"
         (required "object" (fun b _ => Expr.decode b) <|
          required "method" (deep MethodRef.decode) <|
          optional "args" [] (fun b _ => list b fun c _ => Expr.decode c) .nil)
         fun (object, method, args, ()) => .callSuper object method args),
     ("new", .fields fun inner _ =>
       record inner "struct variant Expr::New"
         (required "class" (flat ClassName.decode) <|
          required "ctor" (deep MethodRef.decode) <|
          optional "args" [] (fun b _ => list b fun c _ => Expr.decode c) .nil)
         fun (owner, ctor, args, ()) => .construct owner ctor args),
     ("new_array", .fields fun inner _ =>
       record inner "struct variant Expr::NewArray"
         (required "type" (deep Ty.decode) <|
          required "length" (fun b _ => Expr.decode b) .nil)
         fun (type, length, ()) => .newArray type length),
     ("array_length", .single fun inner _ => Expr.arrayLength <$> Expr.decode inner),
     ("array_get", .fields fun inner _ =>
       record inner "struct variant Expr::ArrayGet"
         (required "array" (fun b _ => Expr.decode b) <|
          required "index" (fun b _ => Expr.decode b) .nil)
         fun (array, index, ()) => .arrayGet array index),
     ("ternary", .fields fun inner _ =>
       record inner "struct variant Expr::Ternary"
         (required "cond" (fun b _ => Expr.decode b) <|
          required "then" (fun b _ => Expr.decode b) <|
          required "otherwise" (fun b _ => Expr.decode b) .nil)
         fun (cond, yes, no, ()) => .ternary cond yes no)]
termination_by budget
decreasing_by all_goals omega

/-- An arm of a switch, whose body is read by `stmt`. -/
def SwitchCase.decodeWith (budget : Nat) (stmt : Nested budget Stmt) : Decoder SwitchCase :=
  record budget "struct SwitchCase"
    (required "values" (fun b _ => list b (flat decodeInt32)) <|
     required "body" stmt .nil)
    fun (values, body, ()) => .arm values body

def Stmt.decode (budget : Nat) : Decoder Stmt :=
  tagged budget
    [("line", .fields fun inner _ =>
       record inner "struct variant Stmt::Line"
         (required "file" (flat string) <|
          required "line" (flat decodeUInt32) .nil)
         fun (file, line, ()) => .position file line),
     ("nop", .unit .nop),
     ("block", .single fun inner _ => Stmt.block <$> list inner fun b _ => Stmt.decode b),
     ("expr", .single (deep fun inner => Stmt.eval <$> Expr.decode inner)),
     ("return", .single (deep fun inner => Stmt.ret <$> option (Expr.decode inner))),
     ("set_local", .fields fun inner _ =>
       record inner "struct variant Stmt::SetLocal"
         (required "local" (flat string) <|
          required "value" (deep Expr.decode) .nil)
         fun (name, value, ()) => .setSlot name value),
     ("set_instance_field", .fields fun inner _ =>
       record inner "struct variant Stmt::SetInstanceField"
         (required "object" (deep Expr.decode) <|
          required "field" (deep FieldRef.decode) <|
          required "value" (deep Expr.decode) .nil)
         fun (object, field, value, ()) => .setInstanceField object field value),
     ("set_static_field", .fields fun inner _ =>
       record inner "struct variant Stmt::SetStaticField"
         (required "field" (deep FieldRef.decode) <|
          required "value" (deep Expr.decode) .nil)
         fun (field, value, ()) => .setStaticField field value),
     ("set_array", .fields fun inner _ =>
       record inner "struct variant Stmt::SetArray"
         (required "array" (deep Expr.decode) <|
          required "index" (deep Expr.decode) <|
          required "value" (deep Expr.decode) .nil)
         fun (array, index, value, ()) => .setArray array index value),
     ("set_array_literals", .fields fun inner _ =>
       record inner "struct variant Stmt::SetArrayLiterals"
         (required "array" (deep Expr.decode) <|
          required "start" (flat decodeUInt32) <|
          required "values" (listOf Expr.decode) .nil)
         fun (array, start, values, ()) => .fillArray array start values),
     ("if", .fields fun inner _ =>
       record inner "struct variant Stmt::If"
         (required "cond" (deep Expr.decode) <|
          required "then" (fun b _ => Stmt.decode b) .nil)
         fun (cond, yes, ()) => .when cond yes),
     ("if_else", .fields fun inner _ =>
       record inner "struct variant Stmt::IfElse"
         (required "cond" (deep Expr.decode) <|
          required "then" (fun b _ => Stmt.decode b) <|
          required "otherwise" (fun b _ => Stmt.decode b) .nil)
         fun (cond, yes, no, ()) => .choose cond yes no),
     ("while", .fields fun inner _ =>
       record inner "struct variant Stmt::While"
         (optional "label" none (flat (option string)) <|
          required "cond" (deep Expr.decode) <|
          required "body" (fun b _ => Stmt.decode b) .nil)
         fun (label, cond, body, ()) => .loop label cond body),
     ("break", .single (flat (Stmt.leave <$> option string))),
     ("continue", .single (flat (Stmt.again <$> option string))),
     ("switch", .fields fun inner _ =>
       record inner "struct variant Stmt::Switch"
         (required "subject" (deep Expr.decode) <|
          required "cases"
            (fun b _ => list b fun c _ => SwitchCase.decodeWith c fun d _ => Stmt.decode d) <|
          required "default" (fun b _ => Stmt.decode b) .nil)
         fun (subject, cases, otherwise, ()) => .switch subject cases otherwise),
     ("throw", .single (deep fun inner => Stmt.throw <$> Expr.decode inner)),
     ("try_catch", .fields fun inner _ =>
       record inner "struct variant Stmt::TryCatch"
         (required "body" (fun b _ => Stmt.decode b) <|
          required "catch" (fun b _ => Stmt.decode b) .nil)
         fun (body, handler, ()) => .tryCatch body handler),
     ("rethrow", .unit .rethrow)]
termination_by budget
decreasing_by all_goals omega

def SwitchCase.decode (budget : Nat) : Decoder SwitchCase :=
  SwitchCase.decodeWith budget (deep Stmt.decode)

def Body.decode (budget : Nat) : Decoder Body :=
  record budget "struct Body"
    (optional "locals" [] (listOf Binding.decodeLocal) <|
     required "stmt" (deep Stmt.decode) .nil)
    fun (locals, stmt, ()) => { locals, stmt }

def ClassKind.decode (budget : Nat) : Decoder ClassKind :=
  tagged budget
    [("concrete", .unit .concrete),
     ("abstract", .unit .abstract),
     ("interface", .unit .interface)]

def Role.decode (budget : Nat) : Decoder Role :=
  tagged budget
    [("ordinary", .unit .ordinary),
     ("instance_init", .unit .instanceInit),
     ("static_init", .unit .staticInit)]

def NativeBody.decode (budget : Nat) : Decoder NativeBody :=
  record budget "struct NativeBody"
    (required "target" (flat string) <|
     optional "cond" "" (flat string) <|
     required "body" (flat string) .nil)
    fun (target, guard, text, ()) => { target, guard, text }

def Field.decode (budget : Nat) : Decoder Field :=
  record budget "struct Field"
    (required "name" (flat string) <|
     required "class" (flat ClassName.decode) <|
     optional "is_static" false (flat bool) <|
     required "type" (deep Ty.decode) <|
     optional "constant" none (deep fun inner => option (Literal.decode inner)) .nil)
    fun (name, owner, isStatic, type, constant, ()) => { name, owner, isStatic, type, constant }

def Method.decode (budget : Nat) : Decoder Method :=
  record budget "struct Method"
    (required "name" (flat string) <|
     required "class" (flat ClassName.decode) <|
     required "type" (deep Signature.decode) <|
     optional "is_static" false (flat bool) <|
     optional "kind" .ordinary (deep Role.decode) <|
     optional "native_name" none (flat (option string)) <|
     optional "body" none (deep fun inner => option (Body.decode inner)) <|
     optional "body_ref" none (deep fun inner => option (MethodRef.decode inner)) <|
     optional "native_bodies" [] (listOf NativeBody.decode) <|
     optional "void_return_this" false (flat bool) .nil)
    fun (name, owner, type, isStatic, role, nativeName, body, bodyRef, natives, fluent, ()) =>
      { name, owner, type, isStatic, role, nativeName, body, bodyRef, natives, fluent }

def Class.decode (budget : Nat) : Decoder Class :=
  record budget "struct Class"
    (required "name" (flat ClassName.decode) <|
     optional "extending" none (flat (option ClassName.decode)) <|
     optional "implementing" [] (fun b _ => list b (flat ClassName.decode)) <|
     required "class_id" (flat decodeUInt32) <|
     optional "kind" .concrete (deep ClassKind.decode) <|
     optional "fields" [] (listOf Field.decode) <|
     optional "methods" [] (listOf Method.decode) <|
     optional "impl_code" none (flat (option string)) <|
     optional "is_native" false (flat bool) .nil)
    fun (name, parent, interfaces, id, kind, fields, methods, verbatim, isNative, ()) =>
      { name, parent, interfaces, id, kind, fields, methods, verbatim, isNative }

def CustomMain.decode (budget : Nat) : Decoder CustomMain :=
  record budget "struct CustomMain"
    (required "target" (flat string) <|
     required "value" (flat string) .nil)
    fun (target, text, ()) => { target, text }

/-- Why a text is no program: it cannot be read, or what it says is refused. -/
inductive LoadError where
  | unreadable (fault : Json.Fault)
  | refused (error : AssemblyError)
  deriving DecidableEq

def LoadError.message : LoadError → String
  | .unreadable fault => "invalid program JSON: " ++ fault.message
  | .refused error => "invalid program JSON: " ++ Text.withoutPosition error.message

namespace Program

/-- The parts of a program, not yet assembled. -/
def decodeParts (budget : Nat) : Decoder (List Class × ClassName × List CustomMain) :=
  record budget "struct ProgramData"
    (required "classes" (listOf Class.decode) <|
     required "entrypoint" (flat ClassName.decode) <|
     optional "custom_mains" [] (listOf CustomMain.decode) .nil)
    fun (classes, entry, customMains, ()) => (classes, entry, customMains)

/-- Reads a program. Its parts are assembled before the end of the text is
looked at. -/
def load (text : String) : Except LoadError Program := do
  match decodeParts maxDepth text.toList with
  | .error fault => throw (.unreadable fault)
  | .ok ((classes, entry, customMains), rest) =>
      match assemble classes entry customMains with
      | .error error => throw (.refused error)
      | .ok program =>
          if (rest.dropWhile Json.isBlank).isEmpty then return program
          else throw (.unreadable .trailingCharacters)

end Program

end ClassScript
