import ClassScript.Model.Stmt

/-!
Classes and their members. Members carry the name of their class, which is how
references to them are formed; nothing here requires it to be the class that
lists them.
-/

namespace ClassScript

/-- A declared field; without a constant it starts at its type's zero. -/
structure Field where
  name : String
  owner : ClassName
  isStatic : Bool
  type : Ty
  constant : Option Literal

namespace Field

def reference (f : Field) : FieldRef :=
  ⟨f.owner, f.name, f.type⟩

/-- The value that the slot starts with. -/
def initial (f : Field) : Literal :=
  f.constant.getD f.type.zero

/-- Whether a reference means this field; its class is looked at elsewhere. -/
def answers (f : Field) (r : FieldRef) : Bool :=
  f.name = r.name && f.type = r.type

end Field

/-- What a method is for: ordinary calls, construction, or the one-time
initialisation of its class. -/
inductive Role where
  | ordinary
  | instanceInit
  | staticInit
  deriving DecidableEq

/-- Script text that stands in for a method on one target. The guard is a
condition in the script; an empty one always holds. -/
structure NativeBody where
  target : String
  guard : String
  text : String
  deriving DecidableEq

/-- A declared method. Its body is its own, another method's, or absent. -/
structure Method where
  name : String
  owner : ClassName
  type : Signature
  isStatic : Bool
  role : Role
  nativeName : Option String
  body : Option Body
  bodyRef : Option MethodRef
  natives : List NativeBody
  fluent : Bool

namespace Method

def reference (m : Method) : MethodRef :=
  ⟨m.owner, m.name, m.type⟩

def descriptor (m : Method) : String :=
  m.type.descriptor

def isInit (m : Method) : Bool :=
  m.role = .instanceInit || m.role = .staticInit

/-- Whether the function ends by returning the receiver. Constructors do,
since construction is a call on the fresh object. -/
def returnsThis (m : Method) : Bool :=
  m.fluent || m.role = .instanceInit

/-- Native bodies for one target, in the order of registration. -/
def nativesFor (m : Method) (target : String) : List NativeBody :=
  m.natives.filter (·.target = target)

def answers (m : Method) (name descriptor : String) : Bool :=
  m.name = name && m.descriptor = descriptor

end Method

inductive ClassKind where
  | concrete
  | abstract
  | interface
  deriving DecidableEq

/-- A class. Verbatim text replaces all that would be emitted for it, and a
native class is part of the runtime and not emitted at all. -/
structure Class where
  name : ClassName
  parent : Option ClassName
  interfaces : List ClassName
  id : UInt32
  kind : ClassKind
  fields : List Field
  methods : List Method
  verbatim : Option String
  isNative : Bool

namespace Class

def isInterface (c : Class) : Bool := c.kind = .interface

def isAbstract (c : Class) : Bool := c.kind = .abstract

def staticInit? (c : Class) : Option Method :=
  c.methods.find? (·.role = .staticInit)

def staticFields (c : Class) : List Field :=
  c.fields.filter (·.isStatic)

def instanceFields (c : Class) : List Field :=
  c.fields.filter (!·.isStatic)

/-- The class's own method of that name and descriptor. -/
def method? (c : Class) (name descriptor : String) : Option Method :=
  c.methods.find? (·.answers name descriptor)

/-- The class's own field of the reference's name and type. -/
def field? (c : Class) (r : FieldRef) : Option Field :=
  c.fields.find? (·.answers r)

/-- The class's own fields of one name, in the order of declaration. -/
def fieldsNamed (c : Class) (name : String) : List Field :=
  c.fields.filter (·.name = name)

end Class

/-- Script text that starts the program on one target. -/
structure CustomMain where
  target : String
  text : String
  deriving DecidableEq

end ClassScript
