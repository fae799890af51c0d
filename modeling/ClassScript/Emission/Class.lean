import ClassScript.Emission.Method

/-!
Emission of one class: constructor function, prototype, defaults of instance
fields, class numbers, static initialiser and methods, in this order. Every
instance default lives on the prototype, those of the ancestors included.
-/

namespace ClassScript.Emission

open Output

/-- What the prototypes of root classes are linked to. -/
def rootBase : String := "java_lang_Object_base"

/-- The access to a field and its initial value. -/
def fieldDefault (job : Job) (f : Field) : Emit String := do
  let name ← job.declaredFieldName f
  let value ← literal f.initial
  return Script.member name ++ " = " ++ value

/-- The global that the class's prototype is linked to. -/
def parentBase (job : Job) (c : Class) : Emit String :=
  match c.parent with
  | none => return rootBase
  | some parent =>
      if (job.program.class? parent).isNone then throw (.unresolvedClass parent)
      else return parent.identifier

/-- The static initialiser. Its first call puts an empty function in its place,
so a call on the way back finds the class half initialised. The static
constructor runs before the constants are stored and again after. -/
def lowerStaticInit (job : Job) (c : Class) : Emit Doc := do
  let slot := c.name.staticInit
  let disarm := Doc.line (slot ++ " = N.EMPTY_FUNCTION;")
  if c.staticFields.isEmpty && c.staticInit?.isNone then return disarm
  else
    let construct : Doc :=
      match c.staticInit? with
      | some m => .line (c.name.identifier ++ Script.member (methodName m) ++ "();")
      | none => .empty
    let defaults ← c.staticFields.mapM (fieldDefault job)
    return .block (slot ++ " = function()")
      (disarm ++ construct ++
        Doc.lines (defaults.map fun text => c.name.identifier ++ text ++ ";") ++ construct) ";"

/-- The classes to which an object of the class belongs. -/
def relatedClasses (job : Job) (c : Class) : Emit (List Class) :=
  match job.program.related c with
  | .ok classes => return classes
  | .error name => throw (.unresolvedClass name)

/-- The document of a class. -/
def lowerClass (job : Job) (c : Class) : Emit Doc := do
  let base := c.name.identifier
  let parent ← parentBase job c
  let fields := c.instanceFields ++ (job.program.ancestors c).flatMap (·.instanceFields)
  let defaults ← fields.mapM (fieldDefault job)
  let related ← relatedClasses job c
  let ids := related.map fun d => Text.natural d.id.toNat
  let staticInit ← lowerStaticInit job c
  let inits ← (c.methods.filter (·.isInit)).mapM (lowerMethod job c.name)
  let others ← (c.methods.filter (!·.isInit)).mapM (lowerMethod job c.name)
  return (if c.isAbstract then .line "// ABSTRACT" else .empty) ++
    .block ("function " ++ base ++ "()") .empty "" ++
    .line (base ++ ".prototype = Object.create(" ++ parent ++ ".prototype);") ++
    .line (base ++ ".prototype.constructor = " ++ base ++ ";") ++
    Doc.lines (defaults.map fun text => base ++ ".prototype" ++ text ++ ";") ++
    .line (base ++ ".prototype.$$CLASS_ID = " ++ Text.natural c.id.toNat ++ ";") ++
    .line (base ++ ".prototype.$$CLASS_IDS = [" ++ ",".intercalate ids ++ "];") ++
    staticInit ++ Doc.concat inits ++ Doc.concat others

end ClassScript.Emission
