import ClassScript.Model.Class
import ClassScript.Model.Inspect
import ClassScript.Output.File

/-!
Why an emission fails. A body that cannot be lowered costs only its method; all
other failures end the emission.
-/

namespace ClassScript.Emission

/-- What a body asks for that has no meaning. -/
inductive Malformed where
  | unary (op : UnaryOp) (kind : OperandKind)
  | binary (op : BinaryOp) (kind : OperandKind)
  | conversion (source target : Ty)
  deriving DecidableEq

def Malformed.message : Malformed → String
  | .unary op kind => "unary " ++ op.inspect ++ " is not defined for " ++ kind.inspect
  | .binary op kind => "binary " ++ op.inspect ++ " is not defined for " ++ kind.inspect
  | .conversion source target =>
      "can't convert " ++ source.descriptor ++ " to " ++ target.descriptor

/-- Causes of failure. `resolverInvariant` means that a field got no name
although its class was being named; `caller` is the method whose body holds the
offending call. -/
inductive EmitError where
  | unresolvedClass (name : ClassName)
  | unresolvedField (field : FieldRef)
  | unresolvedMethod (method : MethodRef)
  | unresolvedSuperCall (owner : ClassName) (method : MethodRef)
  | malformedBody (cause : Malformed)
  | resolverInvariant (field : FieldRef)
  | rawCallArgument (call : Expr) (caller : MethodRef)
  | template (message : String)
  | output (error : Output.FileError)

namespace EmitError

def message : EmitError → String
  | .unresolvedClass name => "class not found: " ++ name.text
  | .unresolvedField field => "field not found: " ++ field.text
  | .unresolvedMethod method => "method not found: " ++ method.text
  | .unresolvedSuperCall owner method =>
      "can't find super for method " ++ method.text ++ " (called from " ++ owner.text ++ ")"
  | .malformedBody cause => cause.message
  | .resolverInvariant field =>
      "resolver invariant violated: field not cached: " ++ field.text
  | .rawCallArgument call caller =>
      "raw call " ++ call.inspect ++ " has no string literal argument, at " ++ caller.text
  | .template message => "template error: " ++ message
  | .output error => "output error: " ++ error.message

/-- Whether a stub may take the place of the method that failed. -/
def isRecoverable : EmitError → Bool
  | .malformedBody _ => true
  | _ => false

end EmitError

end ClassScript.Emission
