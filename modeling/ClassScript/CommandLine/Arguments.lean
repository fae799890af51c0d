/-!
The command line: a command with options, flags and one path. Options take
their value from the rest of the argument or from the next one; a value is
taken up only when something else comes, so an option that lacks one is
noticed after an argument that nobody knows.
-/

namespace ClassScript.CommandLine

/-- Why a command line is not carried out. -/
inductive Refusal where
  | helpRequested
  | nothingGiven
  | unknownCommand
  | unknownArgument
  | invalidValue
  | needlessValue
  | repeatedArgument
  | missingArgument
  deriving DecidableEq

/-- The status with which the program then ends. Asking for help is no
mistake. -/
def Refusal.exitCode : Refusal → Nat
  | .helpRequested => 0
  | _ => 2

/-- What an argument can be about. -/
inductive Key where
  | programPath
  | outDir
  | name
  | debug
  | target
  | noSwitch
  | prepend
  | append
  | wrap
  | verbose
  | help
  deriving DecidableEq

/-- What giving an argument does: `single` and `flag` may happen once, `many`
collects values, and `count` counts. -/
inductive Action where
  | single
  | many
  | flag
  | count
  | help
  deriving DecidableEq

def Action.takesValue : Action → Bool
  | .single | .many => true
  | _ => false

/-- An option or flag with its spellings. -/
structure Spec where
  key : Key
  short : Option Char
  long : Option String
  action : Action
  isPath : Bool

def helpSpec : Spec := ⟨.help, some 'h', some "help", .help, false⟩

def targetSpec : Spec := ⟨.target, some 't', some "target", .single, false⟩

def noSwitchSpec : Spec := ⟨.noSwitch, none, some "no-switch", .flag, false⟩

def verboseSpec : Spec := ⟨.verbose, some 'v', none, .count, false⟩

/-- The path of the program, the one argument without a name. -/
def programSpec : Spec := ⟨.programPath, none, none, .single, true⟩

def emitSpecs : List Spec :=
  [⟨.outDir, some 'o', some "out-dir", .single, true⟩,
   ⟨.name, none, some "name", .single, false⟩,
   ⟨.debug, none, some "debug", .flag, false⟩,
   targetSpec, noSwitchSpec,
   ⟨.prepend, none, some "prepend", .many, true⟩,
   ⟨.append, none, some "append", .many, true⟩,
   ⟨.wrap, none, some "wrap", .single, true⟩,
   verboseSpec, helpSpec]

def checkSpecs : List Spec :=
  [targetSpec, noSwitchSpec, verboseSpec, helpSpec]

/-- What has been read so far. The pending argument has not been accepted yet;
it may still lack its value. -/
structure Reading where
  given : List (Key × String)
  pending : Option (Spec × Option String)
  hasProgram : Bool

namespace Reading

def start : Reading := ⟨[], none, false⟩

def has (r : Reading) (key : Key) : Bool :=
  r.given.any (·.1 = key)

def values (r : Reading) (key : Key) : List String :=
  (r.given.filter (·.1 = key)).map (·.2)

/-- Accepts an argument. A repetition is noticed before a bad value. -/
def accept (r : Reading) (spec : Spec) (value : String) : Except Refusal Reading :=
  let once := spec.action = .single || spec.action = .flag
  if spec.action = .help then .error .helpRequested
  else if once && r.has spec.key then .error .repeatedArgument
  else if spec.isPath && value.isEmpty then .error .invalidValue
  else .ok { r with given := r.given ++ [(spec.key, value)] }

/-- Accepts the pending argument, which now needs its value. -/
def settle (r : Reading) : Except Refusal Reading :=
  match r.pending with
  | none => .ok r
  | some (_, none) => .error .invalidValue
  | some (spec, some value) => { r with pending := none }.accept spec value

/-- Accepts an argument after the pending one. -/
def take (r : Reading) (spec : Spec) (value : String) : Except Refusal Reading := do
  (← r.settle).accept spec value

/-- Makes an option pending until its value comes. -/
def await (r : Reading) (spec : Spec) : Except Refusal Reading := do
  return { ← r.settle with pending := some (spec, none) }

/-- An argument without a name; there is one place for it. -/
def positional (r : Reading) (arg : String) : Except Refusal Reading := do
  if r.hasProgram then throw .unknownArgument
  return { ← r.settle with pending := some (programSpec, some arg), hasProgram := true }

/-- An argument spelled out after two dashes, with a value behind an equals
sign or without. -/
def long (r : Reading) (specs : List Spec) (name : String) (value : Option String) :
    Except Refusal Reading :=
  match specs.find? (·.long = some name), value with
  | none, _ => .error .unknownArgument
  | some spec, some value =>
      if spec.action.takesValue then r.take spec value else .error .needlessValue
  | some spec, none =>
      if spec.action.takesValue then r.await spec else r.take spec ""

/-- Letters behind one dash: flags, up to an option that takes what is left as
its value. -/
def cluster (r : Reading) (specs : List Spec) : List Char → Except Refusal Reading
  | [] => .ok r
  | c :: rest =>
      match specs.find? (·.short = some c) with
      | none => .error .unknownArgument
      | some spec =>
          if spec.action.takesValue then
            match rest with
            | [] => r.await spec
            | '=' :: value => r.take spec (String.ofList value)
            | value => r.take spec (String.ofList value)
          else do (← r.take spec "").cluster specs rest

/-- One argument before any `--`. -/
def argument (r : Reading) (specs : List Spec) (arg : String) : Except Refusal Reading :=
  match arg.toList with
  | '-' :: '-' :: name =>
      let value := name.dropWhile (· ≠ '=')
      r.long specs (String.ofList (name.takeWhile (· ≠ '=')))
        (if value.isEmpty then none else some (String.ofList (value.drop 1)))
  | '-' :: c :: rest => r.cluster specs (c :: rest)
  | _ =>
      match r.pending with
      | some (spec, none) => .ok { r with pending := some (spec, some arg) }
      | _ => r.positional arg

/-- Reads the arguments of a command. After `--` every argument stands for
itself. -/
def arguments (r : Reading) (specs : List Spec) : List String → Except Refusal Reading
  | [] => r.settle
  | "--" :: rest => do (← rest.foldlM Reading.positional r).settle
  | arg :: rest => do (← r.argument specs arg).arguments specs rest

end Reading

/-- What to emit, from where and to where. -/
structure EmitParams where
  programPath : String
  outDir : Option String
  name : String
  debug : Bool
  target : String
  noSwitch : Bool
  prepend : List String
  append : List String
  wrap : Option String
  verbose : Nat

/-- What to check. -/
structure CheckParams where
  programPath : String
  target : String
  noSwitch : Bool
  verbose : Nat

inductive Command where
  | emit (params : EmitParams)
  | check (params : CheckParams)

namespace Reading

/-- How often verbosity was asked for; more than 255 times make no difference. -/
def verbosity (r : Reading) : Nat :=
  min 255 (r.values .verbose).length

def programPath (r : Reading) : Except Refusal String :=
  match r.values .programPath with
  | path :: _ => .ok path
  | [] => .error .missingArgument

def toEmit (r : Reading) : Except Refusal EmitParams := do
  return {
    programPath := ← r.programPath
    outDir := (r.values .outDir).head?
    name := (r.values .name).headD "program.js"
    debug := r.has .debug
    target := (r.values .target).headD "js"
    noSwitch := r.has .noSwitch
    prepend := r.values .prepend
    append := r.values .append
    wrap := (r.values .wrap).head?
    verbose := r.verbosity }

def toCheck (r : Reading) : Except Refusal CheckParams := do
  return {
    programPath := ← r.programPath
    target := (r.values .target).headD "js"
    noSwitch := r.has .noSwitch
    verbose := r.verbosity }

end Reading

def commandNames : List String := ["emit", "check", "help"]

/-- Asks for help about a command; no command has commands of its own. -/
def parseHelp : List String → Except Refusal Command
  | [] => .error .helpRequested
  | [name] => .error (if commandNames.contains name then .helpRequested else .unknownCommand)
  | _ => .error .unknownCommand

/-- Reads a command line, the name of the program left out. -/
def parse : List String → Except Refusal Command
  | [] => .error .nothingGiven
  | ["--"] => .error .nothingGiven
  | "--" :: name :: _ =>
      .error (if commandNames.contains name then .unknownArgument else .unknownCommand)
  | "emit" :: args => do return .emit (← (← Reading.start.arguments emitSpecs args).toEmit)
  | "check" :: args => do return .check (← (← Reading.start.arguments checkSpecs args).toCheck)
  | "help" :: args => parseHelp args
  | arg :: _ =>
      match arg.toList with
      | '-' :: '-' :: _ | '-' :: _ :: _ => do
          let _ ← Reading.start.argument [helpSpec] arg
          .error .unknownArgument
      | _ => .error .unknownCommand

end ClassScript.CommandLine
