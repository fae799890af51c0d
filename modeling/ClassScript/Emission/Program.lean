import ClassScript.Emission.Class
import ClassScript.Output.EntryPoint
import ClassScript.Output.LineMap

/-!
Emission of a whole program: fragments in front, the string pool, the classes
with superclasses first, the start of the program, and fragments at the end.
The pool is written before the classes although it is complete only after them.
-/

namespace ClassScript.Emission

open Output

/-- What an emission yields; the source map is there in debug mode. -/
structure Result where
  source : String
  sourceMap : Option String
  entryPoint : EntryPoint

/-- The document of a class with verbatim text in its place, where there is. -/
def lowerOrCopy (job : Job) (c : Class) : Emit Doc :=
  match c.verbatim with
  | some text => return .line text
  | none => lowerClass job c

/-- Notes the size of each class, smallest first. -/
def noteSizes (classes : List (Class × Doc)) : Emit Unit := do
  let sizes := classes.map fun (c, doc) => (c.name.text, doc.text.utf8ByteSize)
  for (name, size) in sizes.mergeSort (fun a b => a.2 ≤ b.2) do
    note .info "class size" [("class", name), ("size", Text.natural size)]

/-- The halves of a fragment, rendered if it asks for that. -/
def resolveFragment (job : Job) (f : Fragment) : Emit (Option String × Option String) := do
  let (before, after) := f.parts
  if f.process then
    let before ← before.mapM (job.render .includeFile)
    let after ← after.mapM (job.render .includeFile)
    return (before, after)
  else return (before, after)

/-- The signature of the method that starts a program. -/
def mainSignature : Signature :=
  { args := [⟨"args", .array .string⟩], ret := .void }

/-- The statement that calls the entry class's main method. -/
def mainCall (c : Class) : Emit String :=
  let reference : MethodRef := ⟨c.name, "main", mainSignature⟩
  match (c.method? reference.name reference.descriptor).filter (·.isStatic) with
  | some main =>
      return memberBase c.name true ++ Script.member (methodName main) ++
        "(N.strArray(N.args()));"
  | none => throw (.unresolvedMethod reference)

/-- The statement that starts the program. -/
def startStatement (job : Job) (entry : Class) : Option String → Emit String
  | some text => job.render .customMain text
  | none => mainCall entry

def optionalLine : Option String → Doc
  | some text => .line text
  | none => .empty

/-- The document of a program. -/
def lowerProgram (job : Job) : Emit Doc := do
  let order := job.program.emissionOrder
  note .debug "class emission order"
    [("order", Inspect.list (order.map fun c => Inspect.string c.name.text))]
  let classes ← order.mapM fun c => do return (c, ← lowerOrCopy job c)
  noteSizes classes
  let entry := job.program.entry
  match job.program.class? entry with
  | none => throw (.unresolvedClass entry)
  | some entryClass =>
      let customMain := job.program.customMain? job.config.target
      note .info "entry point"
        [("strategy", if customMain.isSome then "custom" else "default"), ("entry", entry.text)]
      let fragments ← job.config.fragments.mapM (resolveFragment job)
      let pool := (← get).pool
      let start ← startStatement job entryClass customMain
      return (if job.config.debug then
          .line ("//# sourceMappingURL=" ++ job.config.mapName) else .empty) ++
        Doc.concat (fragments.map fun f => optionalLine f.1) ++
        pool.doc ++
        Doc.concat (classes.map fun c => .splice c.2) ++
        Doc.lines ["__createJavaArrays();", "__buildStrings();", "N.linit();",
          entry.staticInitCall, start] ++
        Doc.concat (fragments.reverse.map fun f => optionalLine f.2)

/-- Emits a program. -/
def emitProgram (job : Job) : Emit Result := do
  let written := (← lowerProgram job).write .empty
  note .debug "string pool" [("strings", Text.natural (← get).pool.size)]
  let entryPoint := EntryPoint.ofClass job.program.entry
  if job.config.debug then
    let map := LineMap.ofMarks written.marks
    note .debug "line map" [("entries", Text.natural map.size)]
    return { source := written.text
             sourceMap := some (map.toJson job.config.outputName).text
             entryPoint }
  else return { source := written.text, sourceMap := none, entryPoint }

/-- Emits a class on its own. -/
def emitClass (job : Job) (c : Class) : Emit String := do
  return (← lowerClass job c).text

/-- Emits a method of a class on its own. -/
def emitMethod (job : Job) (owner : ClassName) (m : Method) : Emit String := do
  return (← lowerMethod job owner m).text

/-- The artifacts of a result: the source, and the line map if there is one. -/
def Result.artifacts (r : Result) (config : Config) : List (String × String) :=
  (config.outputName, r.source) ::
    match r.sourceMap with
    | some map => [(config.mapName, map)]
    | none => []

end ClassScript.Emission
