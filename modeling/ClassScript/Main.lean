import ClassScript.CommandLine.Run

/-!
The program itself: arguments from the system, files on its disk, and the two
standard outputs. What the commands do is decided elsewhere.
-/

namespace ClassScript.CommandLine

/-- The path that stands for the standard input. -/
def standardInput : String := "-"

/-- The failure that the system reports. -/
def fileError : IO.Error → Output.FileError
  | .noFileOrDirectory _ _ _ => .notFound
  | .alreadyExists _ _ _ => .alreadyExists
  | .inappropriateType _ code _ => if code = 20 then .notDirectory else .isDirectory
  | .invalidArgument _ 36 _ => .nameTooLong
  | error => .other (toString error)

/-- An action on the disk, unless the system refuses its path. -/
def onPath {α : Type} (path : String) (action : IO α) : IO (Except Output.FileError α) := do
  match Output.Path.accept path with
  | .error error => return .error error
  | .ok () => try return .ok (← action) catch error => return .error (fileError error)

/-- Files on disk. -/
def FileAccess.onDisk : FileAccess IO where
  read path :=
    if path = standardInput then do return .ok (← (← IO.getStdin).readToEnd)
    else onPath path (IO.FS.readFile path)
  write root name text := do
    let path := Output.Path.join root name
    let parent := Output.Path.parent path
    match ← onPath parent (IO.FS.createDirAll parent) with
    | .error error => return .error error
    | .ok () => onPath path (IO.FS.writeFile path text)

def usage : String :=
  "usage: classscript emit <program> [-o <dir>] [--name <file>] [--debug] [-t <target>]\n" ++
  "         [--no-switch] [--prepend <file>] [--append <file>] [--wrap <file>] [-v]\n" ++
  "       classscript check <program> [-t <target>] [--no-switch] [-v]\n"

/-- Whether an event is shown when verbosity was asked for so many times. -/
def isShown (verbosity : Nat) (e : Event) : Bool :=
  (Level.ofVerbosity verbosity).rank ≤ e.level.rank

end ClassScript.CommandLine

open ClassScript CommandLine in
def main (args : List String) : IO UInt32 := do
  match parse args with
  | .error refusal =>
      if refusal = .helpRequested then IO.print usage else IO.eprint usage
      return refusal.exitCode.toUInt32
  | .ok command =>
      let outcome ← run .onDisk command
      for event in outcome.log do
        if isShown command.verbosity event then IO.eprintln event.text
      IO.print outcome.output
      IO.eprint outcome.errors
      return outcome.exitCode.toUInt32
