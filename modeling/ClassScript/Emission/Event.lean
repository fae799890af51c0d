import ClassScript.Text.Inspect

/-!
The log of an emission: events with a level, a message and named values.
-/

namespace ClassScript

inductive Level where
  | debug
  | info
  | warn
  deriving DecidableEq

namespace Level

def label : Level → String
  | .debug => "DEBUG"
  | .info => "INFO"
  | .warn => "WARN"

/-- The order of importance. -/
def rank : Level → Nat
  | .debug => 0
  | .info => 1
  | .warn => 2

/-- The lowest level that is shown when verbosity was asked for so many times. -/
def ofVerbosity : Nat → Level
  | 0 => .warn
  | 1 => .info
  | _ => .debug

/-- The level as a filter names it. -/
def directive : Level → String
  | .debug => "debug"
  | .info => "info"
  | .warn => "warn"

end Level

/-- Something worth noting, with its values in the order of mention. -/
structure Event where
  level : Level
  message : String
  values : List (String × String)
  deriving DecidableEq

/-- The event on one line. -/
def Event.text (e : Event) : String :=
  " ".intercalate (e.level.label :: e.message :: e.values.map fun v => v.1 ++ "=" ++ v.2)

end ClassScript
