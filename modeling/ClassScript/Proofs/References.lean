import ClassScript.Proofs.PlainExits
import ClassScript.Proofs.WordReading

/-!
What a body refers to by name when it is lowered: its own variables and labels, globals
of the script and of the runtime, constructors of classes and of arrays, the variables in
which exceptions and subjects of chains are kept. The references are listed as the text
has them, from left to right.
-/

namespace ClassScript

open Emission Words

/-- The globals of the script and of the runtime that lowered text refers to. -/
inductive Global where
  | runtime
  | pool
  | math
  | nan
  | infinity
  deriving DecidableEq

def Global.spelling : Global → String
  | .runtime => "N"
  | .pool => "S"
  | .math => "Math"
  | .nan => "NaN"
  | .infinity => "Infinity"

/-- The constructor of the arrays of a type. -/
def arrayConstructor : Ty → String
  | .array element => if element.isReference then "JA_L" else "JA_" ++ element.descriptor
  | _ => "JA_L"

/-- The parameter of the handlers. -/
def handlerParameter : String := "J__i__exception__"

/-- What one name in the text of a function stands for. Parameters and locals are
variables of the source; `caught` is the variable for the exception, `handled` the
parameter of a handler, `subject` and `chain` are the variable and the label of a chain.
A raw name comes from spliced text. -/
inductive Reference where
  | variable (name : String)
  | label (name : String)
  | global (g : Global)
  | ofClass (name : ClassName)
  | array (type : Ty)
  | caught
  | handled
  | subject (number : Nat)
  | chain (number : Nat)
  | raw (name : String)
  deriving DecidableEq

def Reference.spelling : Reference → String
  | .variable name | .label name => Script.variableName name
  | .global g => g.spelling
  | .ofClass name => name.identifier
  | .array type => arrayConstructor type
  | .caught => exceptionSlot
  | .handled => handlerParameter
  | .subject n => switchSubject n
  | .chain n => switchLabel n
  | .raw name => name

/-- What references look like where they stand. A class may have a name that is no name
in script text. -/
def spelled (refs : List Reference) : List String :=
  (refs.map Reference.spelling).filter isName

@[simp]
theorem spelled_append (refs others : List Reference) :
    spelled (refs ++ others) = spelled refs ++ spelled others := by
  rw [spelled, List.map_append, List.filter_append]
  rfl

section Operators

/-- What the text of a floating-point constant refers to. -/
def realReferences (bits : Nat) : List Reference :=
  match Number.double.decode bits with
  | .nan => [.global .nan]
  | .infinite _ => [.global .infinity]
  | .finite _ _ _ => []

def Literal.references : Literal → List Reference
  | .long _ => [.global .runtime]
  | .float bits => realReferences (Number.Format.convert Number.single Number.double bits.toNat)
  | .double bits => realReferences bits.toNat
  | .string _ => [.global .pool]
  | .null | .bool _ | .int _ | .char _ => []

/-- What a unary operator refers to besides its operand. -/
def unaryReferences : OperandKind → List Reference
  | .long => [.global .runtime]
  | _ => []

/-- What a binary operator refers to besides its operands. -/
def binaryReferences : OperandKind → BinaryOp → List Reference
  | .int, .mul => [.global .math]
  | .int, .div | .int, .rem => [.global .runtime]
  | .long, _ => [.global .runtime]
  | .float, .add | .float, .sub | .float, .mul | .float, .div | .float, .rem => [.global .math]
  | .float, .cmpl | .float, .cmpg | .double, .cmpl | .double, .cmpg => [.global .runtime]
  | _, _ => []

/-- What a conversion refers to besides the value. -/
def conversionReferences (source target : Ty) : List Reference :=
  match source.kind, target with
  | .bool, .byte | .bool, .char | .bool, .short | .bool, .int => [.global .runtime]
  | .int, .long => [.global .runtime]
  | .int, .float => [.global .math]
  | .long, .long => []
  | .long, _ => [.global .runtime]
  | .float, .float | .double, .float => [.global .math]
  | .float, .double | .double, .double => []
  | .float, _ | .double, _ => [.global .runtime]
  | _, _ => []

end Operators

namespace Emission

/-- What the owner of a field is referred to by, if there is such a field. -/
def Job.fieldReferences (job : Job) (r : FieldRef) : List Reference :=
  ((job.program.findField r).map fun f => Reference.ofClass f.owner).toList

def Job.methodReferences (job : Job) (r : MethodRef) : List Reference :=
  ((job.program.resolve r).map fun m => Reference.ofClass m.owner).toList

/-- What the test for a type refers to, in front of the value and behind it. -/
def Job.testReferences (job : Job) : Ty → List Reference × List Reference
  | .ref name =>
      if (job.program.class? name).any (·.isInterface) then ([.global .runtime], [])
      else ([], [.ofClass name])
  | _ => ([.global .runtime], [])

/-- What a raw call refers to besides the text that it splices. -/
def wrapperReferences (name : String) : List Reference :=
  if name = "s_raw" then [.global .runtime] else []

/-- The names in the text that a raw call splices, and those around it. -/
def Job.rawReferences (job : Job) (name : String) : List Expr → List Reference
  | .literal (.string text) :: _ =>
      match job.templater .rawCall text with
      | .ok text => wrapperReferences name ++ (namesIn text.toList).map .raw
      | .error _ => []
  | _ => []

end Emission

mutual

/-- What an expression refers to. -/
def Expr.references (job : Job) : Expr → List Reference
  | .literal value => value.references
  | .slot name | .param name => [.variable name]
  | .this => []
  | .caught => [.caught]
  | .instanceField object _ => object.references job
  | .staticField field => job.fieldReferences field
  | .unary _ kind operand => unaryReferences kind ++ operand.references job
  | .binary op kind left right =>
      binaryReferences kind op ++ (left.references job ++ right.references job)
  | .cast value source target => conversionReferences source target ++ value.references job
  | .instanceOf value type =>
      (job.testReferences type).1 ++ value.references job ++ (job.testReferences type).2
  | .checkCast value _ => value.references job
  | .callStatic method args =>
      if isRawCall method then job.rawReferences method.name args
      else job.methodReferences method ++ referencesOfAll job args
  | .callInstance object _ args => object.references job ++ referencesOfAll job args
  | .callSuper object method args =>
      job.methodReferences method ++ object.references job ++ referencesOfAll job args
  | .construct owner _ args => .ofClass owner :: referencesOfAll job args
  | .newArray type length => .array type :: length.references job
  | .arrayLength array => array.references job
  | .arrayGet array index => array.references job ++ index.references job
  | .ternary cond yes no => cond.references job ++ yes.references job ++ no.references job

def referencesOfAll (job : Job) : List Expr → List Reference
  | [] => []
  | e :: rest => e.references job ++ referencesOfAll job rest

end

/-- The label as a reference, if there is one. -/
def labelReferences (label : Option String) : List Reference :=
  (label.map Reference.label).toList

namespace Emission

/-- How many chains the statement is written with. -/
def Job.chains (job : Job) (s : Stmt) : Nat :=
  chainCount job.config.nativeSwitch (s.lowered job.config.nativeSwitch)

def Job.chainsInCases (job : Job) (cases : List SwitchCase) : Nat :=
  chainCount job.config.nativeSwitch (loweredInCases job.config.nativeSwitch cases)

end Emission

mutual

/-- What a statement refers to; `around` is the innermost loop or switch statement that it
stands in, and `number` the number of chains in front of it. -/
def Stmt.references (job : Job) (around : Option Construct) (number : Nat) : Stmt → List Reference
  | .position _ _ | .nop => []
  | .block body => referencesInAll job around number body
  | .eval value | .throw value => value.references job
  | .ret value => (value.map (·.references job)).getD []
  | .setSlot name value => .variable name :: value.references job
  | .setInstanceField object _ value => object.references job ++ value.references job
  | .setStaticField field value => job.fieldReferences field ++ value.references job
  | .setArray array index value =>
      array.references job ++ index.references job ++ value.references job
  | .fillArray array _ values => array.references job ++ referencesOfAll job values
  | .when cond yes => cond.references job ++ yes.references job around number
  | .choose cond yes no =>
      cond.references job ++ yes.references job around number ++
        no.references job around (number + job.chains yes)
  | .loop label cond body =>
      labelReferences label ++ cond.references job ++ body.references job (some .loop) number
  | .leave (some label) => [.label label]
  | .leave none => ((leftChain job.config.nativeSwitch around).map Reference.chain).toList
  | .again label => labelReferences label
  | .switch subject cases otherwise =>
      if job.config.nativeSwitch then
        subject.references job ++ referencesInCases job number number cases ++
          otherwise.references job (some (.switch number)) (number + job.chainsInCases cases)
      else
        [.chain number, .subject number] ++ subject.references job ++
          referencesInCases job number (number + 1) cases ++
          otherwise.references job (some (.switch number)) (number + 1 + job.chainsInCases cases)
  | .tryCatch body handler =>
      body.references job around number ++ [.handled, .caught, .handled] ++
        handler.references job around (number + job.chains body)
  | .rethrow => [.handled]

def referencesInAll (job : Job) (around : Option Construct) (number : Nat) :
    List Stmt → List Reference
  | [] => []
  | s :: rest => s.references job around number ++
      referencesInAll job around (number + job.chains s) rest

/-- The arms of the switch statement of a number. A chain compares its variable with the
values of each, and leaves those out that have none. -/
def referencesInCases (job : Job) (switch number : Nat) : List SwitchCase → List Reference
  | [] => []
  | .arm values body :: rest =>
      if job.config.nativeSwitch then
        body.references job (some (.switch switch)) number ++
          referencesInCases job switch (number + job.chains body) rest
      else if values.isEmpty then referencesInCases job switch number rest
      else
        values.map (fun _ => .subject switch) ++ body.references job (some (.switch switch)) number ++
          referencesInCases job switch (number + job.chains body) rest

end

/-- What the declaration of the locals refers to: each of them, and the text of its
default. -/
def localReferences (locals : List Binding) : List Reference :=
  locals.flatMap fun b => .variable b.name :: b.type.zero.references

/-- What a body refers to: its locals, the variable for exceptions if it handles any, the
classes that it initialises, and what its statement does. -/
def Body.references (job : Job) (owner : ClassName) (body : Body) : List Reference :=
  localReferences body.locals ++ (if body.hasTraps then [.caught] else []) ++
    (staticInitTargets job.program owner body).map .ofClass ++ body.stmt.references job none 0

/-- The parameters of a method. -/
def parameterReferences (m : Method) : List Reference :=
  m.type.args.map fun b => .variable b.name

/-- What the function of a method with that body refers to. -/
def functionReferences (job : Job) (owner : ClassName) (m : Method) (body : Body) : List Reference :=
  .ofClass owner :: (parameterReferences m ++ body.references job owner)

end ClassScript
