import ClassScript.Emission.Names
import ClassScript.Script.Operator

/-!
Lowering of expressions to script text. Operands are lowered from left to right
and put into the text of their operator; failing on the way keeps the names and
slots given so far.
-/

namespace ClassScript.Emission

/-- Whether a call splices its argument into the output as script text. -/
def isRawCall (r : MethodRef) : Bool :=
  r.owner.text = "com.jtransc.target.Js" && "_raw".toList.isSuffixOf r.name.toList

/-- The variable that holds the exception of the innermost handler. -/
def exceptionSlot : String := "J__exception__"

/-- The text of a static field. -/
def Job.staticField (job : Job) (r : FieldRef) : Emit String := do
  let f ← job.field r
  let name ← job.declaredFieldName f
  return f.owner.identifier ++ Script.member name

/-- The test whether a value is of a type. Interfaces are answered by the table
of class numbers, classes by the prototype chain, arrays by their descriptor. -/
def Job.instanceTest (job : Job) (value : String) : Ty → String
  | .ref name =>
      match job.program.class? name with
      | some c =>
          if c.isInterface then
            "N.isClassId(" ++ value ++ ", " ++ Text.natural c.id.toNat ++ ")"
          else "(" ++ value ++ " instanceof " ++ name.identifier ++ ")"
      | none => "(" ++ value ++ " instanceof " ++ name.identifier ++ ")"
  | other => "N.is(" ++ value ++ ", " ++ Script.quote other.descriptor ++ ")"

/-- The construction of an array. Primitive elements have a constructor of
their own; all others share one that is told the descriptor. -/
def newArray (type : Ty) (length : String) : String :=
  let other := "new JA_L(" ++ length ++ ", " ++ Script.quote type.descriptor ++ ")"
  match type with
  | .array element =>
      if element.isReference then other
      else "new JA_" ++ element.descriptor ++ "(" ++ length ++ ")"
  | _ => other

/-- The text of a raw call: its template, wrapped as its name asks. -/
def Job.rawCall (job : Job) (caller : MethodRef) (call : Expr) (name : String)
    (args : List Expr) : Emit String := do
  match args with
  | .literal (.string text) :: _ =>
      let text ← job.render .rawCall text
      return match name with
        | "z_raw" => "(!!(" ++ text ++ "))"
        | "i_raw" => "((" ++ text ++ ")|0)"
        | "d_raw" => "(+(" ++ text ++ "))"
        | "s_raw" => "N.str(" ++ text ++ ")"
        | _ => text
  | _ => throw (.rawCallArgument call caller)

/-- Text that is there only if an operation is defined. -/
def definedOr (cause : Malformed) : Option String → Emit String
  | some text => return text
  | none => throw (.malformedBody cause)

/-- Arguments between parentheses. -/
def arguments (args : List String) : String :=
  "(" ++ ", ".intercalate args ++ ")"

mutual

/-- The text of an expression in the body of `caller`. -/
def lowerExpr (job : Job) (caller : MethodRef) : Expr → Emit String
  | .literal value => literal value
  | .slot name => return Script.variableName name
  | .param name => return Script.variableName name
  | .this => return "this"
  | .caught => return exceptionSlot
  | .instanceField object field => do
      let object ← lowerExpr job caller object
      let name ← job.fieldName field
      return object ++ Script.member name
  | .staticField field => job.staticField field
  | .unary op kind operand => do
      let operand ← lowerExpr job caller operand
      definedOr (.unary op kind) (Script.unary? op kind operand)
  | .binary op kind left right => do
      let left ← lowerExpr job caller left
      let right ← lowerExpr job caller right
      definedOr (.binary op kind) (Script.binary? op kind left right)
  | .cast value source target => do
      let value ← lowerExpr job caller value
      definedOr (.conversion source target) (Script.convert? source target value)
  | .instanceOf value type => do
      let value ← lowerExpr job caller value
      return job.instanceTest value type
  | .checkCast value _ => do
      let value ← lowerExpr job caller value
      return "(" ++ value ++ ")"
  | .callStatic method args => do
      if isRawCall method then job.rawCall caller (.callStatic method args) method.name args
      else
        let resolved ← job.method method
        let args ← lowerExprs job caller args
        return resolved.owner.identifier ++ Script.member (slotName resolved method) ++
          arguments args
  | .callInstance object method args => do
      let object ← lowerExpr job caller object
      let name ← job.methodRefName method
      let args ← lowerExprs job caller args
      return object ++ Script.member name ++ arguments args
  | .callSuper object method args => do
      match job.program.resolve method with
      | none => throw (.unresolvedSuperCall caller.owner method)
      | some target =>
          let object ← lowerExpr job caller object
          let args ← lowerExprs job caller args
          return memberBase target.owner false ++ Script.member (methodName target) ++
            ".call" ++ arguments (object :: args)
  | .construct owner ctor args => do
      let name ← job.methodRefName ctor
      let args ← lowerExprs job caller args
      return "new " ++ owner.identifier ++ "()" ++ Script.member name ++ arguments args
  | .newArray type length => do
      let length ← lowerExpr job caller length
      return newArray type length
  | .arrayLength array => do
      let array ← lowerExpr job caller array
      return array ++ ".length"
  | .arrayGet array index => do
      let array ← lowerExpr job caller array
      let index ← lowerExpr job caller index
      return "(" ++ array ++ ".data[" ++ index ++ "])"
  | .ternary cond yes no => do
      let cond ← lowerExpr job caller cond
      let yes ← lowerExpr job caller yes
      let no ← lowerExpr job caller no
      return "(" ++ cond ++ " ? " ++ yes ++ " : " ++ no ++ ")"

/-- The texts of expressions, lowered in order. -/
def lowerExprs (job : Job) (caller : MethodRef) : List Expr → Emit (List String)
  | [] => return []
  | e :: rest => do
      let text ← lowerExpr job caller e
      let texts ← lowerExprs job caller rest
      return text :: texts

end

end ClassScript.Emission
