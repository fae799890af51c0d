import ClassScript.Json.Value
import ClassScript.Model.Type

/-!
What a launcher has to know to start an emitted program.
-/

namespace ClassScript.Output

/-- The entry class, and the synthetic class and file that call it. -/
structure EntryPoint where
  owner : ClassName
  entryClass : ClassName
  filePath : String
  mainMethod : String
  deriving DecidableEq

namespace EntryPoint

def ofClass (name : ClassName) : EntryPoint :=
  let entryClass := name.extend "_EntryPoint"
  { owner := name, entryClass, filePath := entryClass.simple, mainMethod := "main" }

def toJson (e : EntryPoint) : Json :=
  .object
    [("class", .string e.owner.text), ("entry_class", .string e.entryClass.text),
     ("file_path", .string e.filePath), ("main_method", .string e.mainMethod)]

end EntryPoint

end ClassScript.Output
