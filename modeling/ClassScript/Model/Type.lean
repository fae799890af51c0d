/-!
Names and types of the class graph. A type is written into descriptors, the
compact text by which members are told apart: one letter for a primitive, a
slashed name for a reference, a bracket for an array.
-/

namespace ClassScript

/-- A dotted, fully qualified class name. -/
structure ClassName where
  text : String
  deriving DecidableEq

namespace ClassName

/-- What follows the last dot, or the whole name. -/
def simple (n : ClassName) : String :=
  String.ofList (n.text.toList.reverse.takeWhile (· ≠ '.')).reverse

/-- What precedes the last dot; a name without one is in the empty package. -/
def package (n : ClassName) : String :=
  String.ofList ((n.text.toList.reverse.dropWhile (· ≠ '.')).drop 1).reverse

/-- The slashed form that descriptors use. -/
def slashed (n : ClassName) : String :=
  n.text.map fun c => if c = '.' then '/' else c

/-- The name with text added at its end. -/
def extend (n : ClassName) (suffix : String) : ClassName :=
  ⟨n.text ++ suffix⟩

end ClassName

/-- A resolved type. -/
inductive Ty where
  | void
  | bool
  | byte
  | char
  | short
  | int
  | long
  | float
  | double
  | ref (name : ClassName)
  | array (element : Ty)
  deriving DecidableEq

/-- The operand categories of primitive operators: integers narrower than
`int` are computed as `int`, and what is no number counts as a reference. -/
inductive OperandKind where
  | bool
  | int
  | long
  | float
  | double
  | ref
  deriving DecidableEq

namespace Ty

def string : Ty := .ref ⟨"java.lang.String"⟩

/-- The descriptor letter or form of a type. -/
def descriptor : Ty → String
  | .void => "V"
  | .bool => "Z"
  | .byte => "B"
  | .char => "C"
  | .short => "S"
  | .int => "I"
  | .long => "J"
  | .float => "F"
  | .double => "D"
  | .ref name => "L" ++ name.slashed ++ ";"
  | .array element => "[" ++ element.descriptor

def isReference : Ty → Bool
  | .ref _ | .array _ => true
  | _ => false

def kind : Ty → OperandKind
  | .bool => .bool
  | .byte | .char | .short | .int => .int
  | .long => .long
  | .float => .float
  | .double => .double
  | .void | .ref _ | .array _ => .ref

end Ty

/-- A name with a type: a parameter of a method or a local of a body. -/
structure Binding where
  name : String
  type : Ty
  deriving DecidableEq

/-- Parameters and return type of a method. -/
structure Signature where
  args : List Binding
  ret : Ty
  deriving DecidableEq

/-- Parameter descriptors in parentheses, then the return type's. The names of
the parameters do not take part. -/
def Signature.descriptor (s : Signature) : String :=
  "(" ++ String.join (s.args.map (·.type.descriptor)) ++ ")" ++ s.ret.descriptor

/-- A field as named by a body. The type belongs to the identity: one class may
hold two fields of one name and different types. -/
structure FieldRef where
  owner : ClassName
  name : String
  type : Ty
  deriving DecidableEq

def FieldRef.text (r : FieldRef) : String :=
  r.owner.text ++ "." ++ r.name ++ ":" ++ r.type.descriptor

/-- A method as named by a body. -/
structure MethodRef where
  owner : ClassName
  name : String
  type : Signature
  deriving DecidableEq

def MethodRef.descriptor (r : MethodRef) : String :=
  r.type.descriptor

def MethodRef.text (r : MethodRef) : String :=
  r.owner.text ++ "." ++ r.name ++ r.descriptor

end ClassScript
