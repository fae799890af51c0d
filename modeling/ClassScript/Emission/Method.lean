import ClassScript.Emission.Body

/-!
What a method's slot is bound to: its generated body, a native body for the
target, or a stub that traps when it is called. Guarded native bodies become a
chain of conditions that is evaluated once, when the class is defined.
-/

namespace ClassScript.Emission

open Output

/-- Native bodies by guard, in the order in which the guards come first; a
later text for the same guard replaces the earlier one. -/
def byGuard (natives : List NativeBody) : List (String × String) :=
  natives.foldl (fun known n => put n.guard n.text known) []
where
  put (guard text : String) : List (String × String) → List (String × String)
    | [] => [(guard, text)]
    | (other, old) :: rest =>
        if other = guard then (guard, text) :: rest else (other, old) :: put guard text rest

/-- The body that a method has of its own or shares with another method. -/
def generatedBody? (p : Program) (m : Method) : Option Body :=
  match m.body, m.bodyRef with
  | some body, _ => some body
  | none, some shared => (p.resolve shared).bind (·.body)
  | none, none => none

/-- The document of the generated body, if there is one. -/
def lowerGenerated (job : Job) (owner : ClassName) (m : Method) : Emit (Option Doc) := do
  match generatedBody? job.program m with
  | some body => return some (← lowerBody job owner m body)
  | none => return none

/-- The document of a native body. -/
def lowerNative (job : Job) (text : String) : Emit Doc := do
  return .line (← job.render .nativeBody text)

/-- Binds a slot to a function of the method's parameters. -/
def bindFunction (m : Method) (slot : String) (body : Doc) : Doc :=
  let args := m.type.args.map fun b => Script.variableName b.name
  .block (slot ++ " = function" ++ arguments args)
    (body ++ if m.returnsThis then .line "return this;" else .empty) ";"

/-- Binds a slot to a function that traps. -/
def bindStub (slot : String) : Doc :=
  .line (slot ++ " = function() \x7b N.methodWithoutBody('" ++ slot ++ "') \x7d;")

/-- The chain that binds a slot under the first guard that holds. -/
def guardChain (bind : Doc → Doc) (fallback : Doc) (guarded : List (String × Doc)) : Doc :=
  Doc.concat (guarded.zipIdx.map fun ((guard, body), index) =>
      .block ((if index = 0 then "if" else "else if") ++ " (" ++ guard ++ ")") (bind body) "") ++
    .block "else" (bind fallback) ""

/-- The document that binds a method's slot. -/
def bindMethod (job : Job) (owner : ClassName) (m : Method) (slot : String) : Emit Doc := do
  let natives := byGuard (m.nativesFor job.config.target)
  if natives.isEmpty then
    match ← lowerGenerated job owner m with
    | some body => return bindFunction m slot body
    | none => return bindStub slot
  else
    let fallback ←
      match natives.lookup "" with
      | some text => lowerNative job text
      | none => (·.getD .empty) <$> lowerGenerated job owner m
    let guarded ← (natives.filter (·.1 ≠ "")).mapM fun (guard, text) => do
      return (guard, ← lowerNative job text)
    if guarded.isEmpty then return bindFunction m slot fallback
    else return guardChain (bindFunction m slot) fallback guarded

/-- The document of a method of a class. A body that cannot be lowered leaves a
comment and a stub. -/
def lowerMethod (job : Job) (owner : ClassName) (m : Method) : Emit Doc := do
  let slot := memberBase owner m.isStatic ++ Script.member (methodName m)
  tryCatch (bindMethod job owner m slot) fun error => do
    if error.isRecoverable then
      note .warn "method body replaced by stub"
        [("class", owner.text), ("method", m.name), ("desc", m.descriptor),
         ("error", error.message)]
      return .line ("// Errored method: " ++ owner.text ++ "." ++ m.name ++ " :: " ++
        m.descriptor ++ " :: " ++ error.message ++ ";") ++ bindStub slot
    else throw error

end ClassScript.Emission
