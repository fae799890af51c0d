import ClassScript.Emission.Error
import ClassScript.Text.Lines

/-!
What an emission is told besides its program: the target, the shape of the
output, text to put around it, and the renderer of template texts.
-/

namespace ClassScript.Emission

/-- Text emitted before and after the program. A combined text holds both
halves; `process` sends the halves through the templater. -/
structure Fragment where
  before : Option String
  after : Option String
  combined : Option String
  process : Bool
  deriving DecidableEq

/-- Settings of one emission. -/
structure Config where
  target : String := "js"
  debug : Bool := false
  outputName : String := "program.js"
  nativeSwitch : Bool := true
  fragments : List Fragment := []

/-- The name of the line map beside the source. -/
def Config.mapName (c : Config) : String :=
  c.outputName ++ ".map"

/-- The places from which template text is rendered. -/
inductive Site where
  | rawCall
  | nativeBody
  | customMain
  | includeFile
  deriving DecidableEq

def Site.label : Site → String
  | .rawCall => "rawCall"
  | .nativeBody => "nativeBody"
  | .customMain => "customMain"
  | .includeFile => "includeFile"

/-- Renders the template text of a place. -/
abbrev Templater := Site → String → Except EmitError String

/-- Leaves every text as it is. -/
def plainTemplater : Templater := fun _ text => .ok text

/-- What separates the halves of a combined fragment. -/
def bodyMarker : String := "/* ## BODY ## */"

/-- The first two pieces of a text between markers. -/
def halves? (text : List Char) : Option (List Char × List Char) :=
  match Text.cutAt? bodyMarker.toList text with
  | none => none
  | some (before, rest) =>
      match Text.cutAt? bodyMarker.toList rest with
      | none => some (before, rest)
      | some (after, _) => some (before, after)

/-- The halves of a fragment. A combined text that holds the marker replaces
the separate halves; each of those ends with a newline of its own. -/
def Fragment.parts (f : Fragment) : Option String × Option String :=
  let ended (text : String) := text ++ "\n"
  match f.combined.bind fun text => halves? (ended text).toList with
  | some (before, after) => (some (String.ofList before), some (String.ofList after))
  | none => (f.before.map ended, f.after.map ended)

end ClassScript.Emission
