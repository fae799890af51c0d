import ClassScript.Emission.State
import ClassScript.Script.Identifier

/-!
Names of classes, members and their slots. Fields that one object holds get
different names although their declared names may be equal: a field's name is
extended until no ancestor's field of that name has it. Names of methods carry
the descriptor, so that a method is overridden under its own slot.
-/

namespace ClassScript

/-- The global variable of a class. -/
def ClassName.identifier (n : ClassName) : String :=
  n.text.map fun c => if c = '.' then '_' else c

/-- The member that holds the static initialiser of a class. -/
def ClassName.staticInit (n : ClassName) : String :=
  n.identifier ++ ".SI"

/-- The statement that forces the static initialiser of a class. -/
def ClassName.staticInitCall (n : ClassName) : String :=
  n.staticInit ++ "();"

namespace Emission

/-- The name that a field of this declared name gets when nothing stands
against it. -/
def plainFieldName (name : String) : String :=
  "_" ++ name.map fun c => if c = '$' then '_' else c

/-- The name extended by `_` until it is none of those taken. -/
def freeName (taken : List String) (name : String) : String :=
  if name ∈ taken then freeName (taken.erase name) (name ++ "_") else name
termination_by taken.length
decreasing_by
  rw [List.length_erase_of_mem (by assumption)]
  have := List.length_pos_of_mem (show name ∈ taken by assumption)
  omega

/-- Gives names to fields in turn, each starting from the name before it. -/
def assignNames (taken : List String) (name : String) :
    List FieldRef → FieldNames → FieldNames
  | [], known => known
  | field :: rest, known =>
      let free := freeName taken name
      assignNames (free :: taken) free rest ((field, free) :: known)

/-- The ancestors' fields of a declared name, farthest ancestor first. -/
def inheritedNamesakes (p : Program) (field : FieldRef) : List Field :=
  match p.class? field.owner with
  | some c => (p.ancestors c).reverse.flatMap fun ancestor => ancestor.fieldsNamed field.name
  | none => []

/-- The fields of a declared name in one class; a field of no known class is
alone. -/
def ownNamesakes (p : Program) (field : FieldRef) : List FieldRef :=
  match p.class? field.owner with
  | some c => (c.fieldsNamed field.name).map Field.reference
  | none => [field]

/-- Names a field, and with it all fields of that declared name in its class,
after those of the ancestors. The error is the field that got no name. -/
def nameField (p : Program) : Nat → FieldRef → ExceptT FieldRef (StateM FieldNames) String
  | 0, field => throw field
  | fuel + 1, field => do
      match (← get).lookup field with
      | some name => return name
      | none =>
          let taken ← (inheritedNamesakes p field).mapM fun f => nameField p fuel f.reference
          modify (assignNames taken (plainFieldName field.name) (ownNamesakes p field))
          match (← get).lookup field with
          | some name => return name
          | none => throw field

/-- A bound on how far naming one field can lead. Where the hierarchy has no cycle, every
step on the way is about another field, so that the bound is never met. In a cycle of
classes that declare fields of one name each of these fields waits for the others;
naming them would not end without the bound, and fails with `resolverInvariant` by it. -/
def namingDepth (p : Program) : Nat :=
  (p.classes.flatMap (·.fields)).length + 1

/-- The name of a declared field. -/
def Job.declaredFieldName (job : Job) (f : Field) : Emit String := do
  let s ← get
  let (result, fieldNames) := (nameField job.program (namingDepth job.program) f.reference).run
    s.fieldNames
  set { s with fieldNames }
  match result with
  | .ok name => return name
  | .error field => throw (.resolverInvariant field)

/-- The field that a reference means. -/
def Job.field (job : Job) (r : FieldRef) : Emit Field :=
  match job.program.findField r with
  | some f => return f
  | none => throw (.unresolvedField r)

/-- The name of the field that a reference means. -/
def Job.fieldName (job : Job) (r : FieldRef) : Emit String := do
  job.declaredFieldName (← job.field r)

/-- The slot of a method: name and descriptor, and for a constructor the class
in front. A native name is used as it is. -/
def slotName (m : Method) (r : MethodRef) : String :=
  match m.nativeName with
  | some name => name
  | none =>
      if m.role = .instanceInit then r.owner.text ++ r.name ++ r.descriptor
      else r.name ++ r.descriptor

/-- The slot under which a declared method is stored. -/
def methodName (m : Method) : String :=
  slotName m m.reference

/-- The method that a reference means. -/
def Job.method (job : Job) (r : MethodRef) : Emit Method :=
  match job.program.resolve r with
  | some m => return m
  | none => throw (.unresolvedMethod r)

/-- The slot of the method that a reference means. -/
def Job.methodRefName (job : Job) (r : MethodRef) : Emit String := do
  return slotName (← job.method r) r

/-- Where members of a class are stored: static ones in the class, the others
in its prototype. -/
def memberBase (name : ClassName) (isStatic : Bool) : String :=
  if isStatic then name.identifier else name.identifier ++ ".prototype"

end Emission

end ClassScript
