import ClassScript.Emission.Config
import ClassScript.Emission.Event
import ClassScript.Model.Hierarchy
import ClassScript.Output.StringPool
import ClassScript.Script.Constant

/-!
The state of an emission. Names given to fields and slots given to strings stay
as they are once given, also when the emission fails later; so failures keep
the state.
-/

namespace ClassScript.Emission

/-- What one emission works on. -/
structure Job where
  program : Program
  config : Config
  templater : Templater

/-- Names given to fields so far; an entry nearer to the front hides later
ones. -/
abbrev FieldNames := List (FieldRef × String)

/-- Field names and string slots, and the record of template calls and of
events, each in the order in which they came. -/
structure State where
  fieldNames : FieldNames
  pool : Output.StringPool
  renders : List (Site × String)
  log : List Event

def State.initial : State := ⟨[], .empty, [], []⟩

/-- A step of an emission. -/
abbrev Emit := ExceptT EmitError (StateM State)

/-- Runs a step from a state. -/
def Emit.runFrom {α : Type} (step : Emit α) (s : State) : Except EmitError α × State :=
  step.run s

def note (level : Level) (message : String) (values : List (String × String)) : Emit Unit :=
  modify fun s => { s with log := s.log ++ [⟨level, message, values⟩] }

/-- Renders a template text and records the call, whatever comes of it. -/
def Job.render (job : Job) (site : Site) (text : String) : Emit String := do
  modify fun s => { s with renders := s.renders ++ [(site, text)] }
  ExceptT.mk (pure (job.templater site text))

/-- The expression for a literal; strings are taken from the pool. -/
def literal : Literal → Emit String
  | .string text => do
      let (slot, pool) := (← get).pool.alloc text
      modify fun s => { s with pool }
      return "S[" ++ Text.natural slot ++ "]"
  | other => return Script.constant other

end ClassScript.Emission
