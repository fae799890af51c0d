import ClassScript.CommandLine.Arguments
import ClassScript.Emission.Program
import ClassScript.Model.Decode
import ClassScript.Output.FileTree

/-!
The commands. They reach files only through what they are given, so they run
alike on a real file system and on a tree held in memory.
-/

namespace ClassScript.CommandLine

open Emission

/-- How files are reached: reading a path, and storing an artifact under a
directory. -/
structure FileAccess (m : Type → Type) where
  read : String → m (Except Output.FileError String)
  write : (root name text : String) → m (Except Output.FileError Unit)

/-- Files of a tree held in memory. -/
def FileAccess.ofTree : FileAccess (StateM Output.FileTree) where
  read path := do return (← get).read path
  write root name text := (Output.FileTree.writeArtifact root name text).run

/-- Why a command fails. -/
inductive CommandError where
  | unreadable (path : String) (error : Output.FileError)
  | load (error : LoadError)
  | emission (error : EmitError)

def CommandError.message : CommandError → String
  | .unreadable path error => "failed to read '" ++ path ++ "': " ++ error.message
  | .load error => error.message
  | .emission error => error.message

section

variable {m : Type → Type} [Monad m]

/-- A step of a command, with the events noted so far. -/
abbrev Step (m : Type → Type) := ExceptT CommandError (StateT (List Event) m)

def noteEvent (level : Level) (message : String) (values : List (String × String)) :
    Step m Unit :=
  modify fun log => log ++ [⟨level, message, values⟩]

/-- Turns the errors of one kind into those of commands. -/
def orFail {ε α : Type} (wrap : ε → CommandError) : Except ε α → Step m α
  | .ok value => return value
  | .error error => throw (wrap error)

def readText (files : FileAccess m) (path : String) : Step m String := do
  let read : Except Output.FileError String ← files.read path
  orFail (.unreadable path) read

def loadProgram (files : FileAccess m) (path : String) : Step m Program := do
  let program ← orFail .load (Program.load (← readText files path))
  noteEvent .debug "program loaded"
    [("classes", Text.natural program.classes.length), ("entry", program.entry.text)]
  return program

/-- Emits a program; its events are noted whether it succeeds or fails. -/
def emission (program : Program) (config : Config) : Step m Result := do
  let (result, state) := (emitProgram ⟨program, config, plainTemplater⟩).runFrom State.initial
  modify (· ++ state.log)
  orFail .emission result

def fragmentBefore (text : String) : Fragment := ⟨some text, none, none, false⟩

def fragmentAfter (text : String) : Fragment := ⟨none, some text, none, false⟩

def fragmentAround (text : String) : Fragment := ⟨none, none, some text, false⟩

/-- The settings that parameters ask for; fragments are read in a fixed order. -/
def configOf (files : FileAccess m) (params : EmitParams) : Step m Config := do
  let before ← params.prepend.mapM fun path => return fragmentBefore (← readText files path)
  let after ← params.append.mapM fun path => return fragmentAfter (← readText files path)
  let around ← params.wrap.toList.mapM fun path => return fragmentAround (← readText files path)
  return {
    target := params.target
    debug := params.debug
    outputName := params.name
    nativeSwitch := !params.noSwitch
    fragments := before ++ after ++ around }

/-- Stores the artifacts under a directory. -/
def writeArtifacts (files : FileAccess m) (root : String) :
    List (String × String) → Step m Unit
  | [] => return ()
  | (name, text) :: rest => do
      let written : Except Output.FileError Unit ← files.write root name text
      orFail (fun error => .emission (.output error)) written
      writeArtifacts files root rest

/-- Emits a program. The result is what goes to the standard output: the source
unless it is stored in a directory. -/
def runEmit (files : FileAccess m) (params : EmitParams) : Step m String := do
  let program ← loadProgram files params.programPath
  let config ← configOf files params
  let result ← emission program config
  let output ←
    match params.outDir with
    | some root => do
        writeArtifacts files root (result.artifacts config)
        noteEvent .info "artifacts written" [("dir", root), ("name", config.outputName)]
        pure ""
    | none => do
        if result.sourceMap.isSome then
          noteEvent .warn "source map discarded: pass --out-dir to keep it" []
        pure result.source
  noteEvent .info "entry point descriptor" [("entry", result.entryPoint.toJson.text)]
  return output

/-- What stands before the stub of every method that could not be lowered. -/
def stubMarker : String := "// Errored method:"

/-- Emits a program without keeping the result, and sums it up. -/
def runCheck (files : FileAccess m) (params : CheckParams) : Step m String := do
  let program ← loadProgram files params.programPath
  let result ← emission program
    { target := params.target, nativeSwitch := !params.noSwitch }
  let stubs := Text.occurrences stubMarker.toList result.source.toList
  return "ok: " ++ Text.natural program.classes.length ++ " classes, " ++
    Text.natural result.source.utf8ByteSize ++ " bytes, " ++
    Text.natural stubs ++ " stubbed methods\n"

/-- What a command leaves: its exit status, its two outputs and its log. -/
structure Outcome where
  exitCode : Nat
  output : String
  errors : String
  log : List Event

/-- Carries out a command. -/
def run (files : FileAccess m) (command : Command) : m Outcome := do
  let step :=
    match command with
    | .emit params => runEmit files params
    | .check params => runCheck files params
  let (result, log) ← (step.run).run []
  return match result with
    | .ok output => ⟨0, output, "", log⟩
    | .error error => ⟨1, "", "error: " ++ error.message ++ "\n", log⟩

/-- How often verbosity was asked for. -/
def Command.verbosity : Command → Nat
  | .emit params => params.verbose
  | .check params => params.verbose

end

end ClassScript.CommandLine
