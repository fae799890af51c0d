import ClassScript.Output.Path

/-!
Directories and text files held in memory, with the outcomes that an operating
system gives to reading, writing and making directories. A program runs in one
of the directories; a path starts there unless it starts with a slash.
-/

namespace ClassScript.Output

/-- What a name in a directory stands for. -/
inductive DirectoryEntry where
  | file (text : String)
  | directory (entries : List (String × DirectoryEntry))

/-- A directory, as the names in it. -/
abbrev Directory := List (String × DirectoryEntry)

/-- A directory with a name in it given a new meaning. -/
def Directory.put (name : String) (entry : DirectoryEntry) : Directory → Directory
  | [] => [(name, entry)]
  | (other, old) :: rest =>
      if other = name then (name, entry) :: rest
      else (other, old) :: Directory.put name entry rest

/-- A directory where it stands. The directories around it are listed from the
nearest on, each with the name that leads from it further in. -/
structure Place where
  here : Directory
  around : List (String × Directory)

namespace Place

/-- A directory in this one. -/
def enter (place : Place) (name : String) (inside : Directory) : Place :=
  ⟨inside, (name, place.here) :: place.around⟩

/-- The directory around this one; the root has none but itself. -/
def leave (place : Place) : Place :=
  match place.around with
  | [] => place
  | (_, outer) :: around => ⟨outer, around⟩

/-- The outermost directory. -/
def root (place : Place) : Directory :=
  place.around.foldl (fun inside (name, outer) => outer.put name (.directory inside)) place.here

/-- Follows names from a directory; each has to lead to a directory. -/
def walk (place : Place) : List String → Except FileError Place
  | [] => .ok place
  | name :: rest =>
      if name = "." then place.walk rest
      else if name = ".." then place.leave.walk rest
      else if Path.maxNameBytes < name.utf8ByteSize then .error .nameTooLong
      else
        match place.here.lookup name with
        | some (.directory inside) => (place.enter name inside).walk rest
        | some (.file _) => .error .notDirectory
        | none => .error .notFound

/-- Follows names as far as they lead to directories. -/
def follow (place : Place) : List String → Place
  | [] => place
  | name :: rest =>
      match place.here.lookup name with
      | some (.directory inside) => (place.enter name inside).follow rest
      | _ => place

end Place

/-- All directories, from the root on, and the names that lead from there to
the directory that a program runs in. -/
structure FileTree where
  root : Directory
  working : List String

namespace FileTree

/-- Empty but for the directory that a program runs in, which has no name that
a path could hold. So nothing is known of the directories around it. -/
def empty : FileTree where
  root := [("", .directory [("", .directory [])])]
  working := ["", ""]

/-- The directory that a path starts from. -/
def start (tree : FileTree) (isAbsolute : Bool) : Place :=
  let outermost : Place := ⟨tree.root, []⟩
  if isAbsolute then outermost else outermost.follow tree.working

/-- What a path ends in: a directory, a file, or a name that is free. -/
inductive Target where
  | directory
  | file (place : Place) (name : String) (text : String)
  | free (place : Place) (name : String)

/-- What the last name of a path leads to. -/
def target (tree : FileTree) (isAbsolute : Bool) (parts : List String) :
    Except FileError Target := do
  match parts.getLast? with
  | none => return .directory
  | some name =>
      let place ← (tree.start isAbsolute).walk parts.dropLast
      if name = "." ∨ name = ".." then return .directory
      else if Path.maxNameBytes < name.utf8ByteSize then throw .nameTooLong
      else
        match place.here.lookup name with
        | some (.directory _) => return .directory
        | some (.file text) => return .file place name text
        | none => return .free place name

/-- The text of a file. -/
def read (tree : FileTree) (path : String) : Except FileError String := do
  Path.accept path
  if path.isEmpty then throw .notFound
  let p := Path.ofText path
  match ← tree.target p.isAbsolute p.parts with
  | .directory => throw .isDirectory
  | .free _ _ => throw .notFound
  | .file _ _ text => if p.endsInSlash then throw .notDirectory else return text

/-- A tree, changed by what succeeds. -/
abbrev Change (α : Type) := ExceptT FileError (StateM FileTree) α

/-- An answer about the tree as it is. -/
def ask {α : Type} (question : FileTree → Except FileError α) : Change α := do
  ExceptT.mk (pure (question (← get)))

/-- Gives a name in some directory a new meaning. -/
def put (place : Place) (name : String) (entry : DirectoryEntry) : Change Unit :=
  modify fun tree =>
    { tree with root := { place with here := place.here.put name entry }.root }

/-- Stores a text in a file, a new one if need be. A path that ends in a slash
can only mean a directory. -/
def writeFile (path text : String) : Change Unit := do
  ask fun _ => Path.accept path
  if path.isEmpty then throw .notFound
  let p := Path.ofText path
  discard (ask fun tree => (tree.start p.isAbsolute).walk p.parts.dropLast)
  if p.endsInSlash then throw .isDirectory
  match ← ask (·.target p.isAbsolute p.parts) with
  | .directory => throw .isDirectory
  | .file place name _ => put place name (.file text)
  | .free place name => put place name (.file text)

/-- Makes one directory, whose parent has to be there. -/
def makeDirectory (isAbsolute : Bool) (parts : List String) : Change Unit := do
  match ← ask (·.target isAbsolute parts) with
  | .directory => throw .alreadyExists
  | .file _ _ _ => throw .alreadyExists
  | .free place name => put place name (.directory [])

/-- Whether parts lead to a directory. -/
def isDirectory (tree : FileTree) (isAbsolute : Bool) (parts : List String) : Bool :=
  match tree.target isAbsolute parts with
  | .ok .directory => true
  | _ => false

/-- Makes a directory together with all that lack on the way to it, whose names
are given from the last one on. What is there already is left as it is. -/
def makeDirectories (isAbsolute : Bool) : List String → Change Unit
  | [] => return ()
  | name :: before => do
      let parts := (name :: before).reverse
      let unlessThere (error : FileError) : Change Unit := do
        if (← get).isDirectory isAbsolute parts then return () else throw error
      tryCatch (makeDirectory isAbsolute parts) fun error => do
        if error = .notFound then
          makeDirectories isAbsolute before
          tryCatch (makeDirectory isAbsolute parts) unlessThere
        else unlessThere error

/-- Stores an artifact under a root, making directories as needed. -/
def writeArtifact (root name text : String) : Change Unit := do
  let path := Path.join root name
  let parent := Path.parent path
  ask fun _ => Path.accept parent
  let p := Path.ofText parent
  makeDirectories p.isAbsolute (Path.significant p.parts).reverse
  writeFile path text

/-- The tree in which a program runs beside these files. -/
def ofFiles (files : List (String × String)) : FileTree :=
  files.foldl (fun tree (path, text) => ((writeArtifact "" path text).run tree).2) empty

end FileTree

mutual

/-- The files that an entry stands for, with their paths. -/
def DirectoryEntry.files (path : String) : DirectoryEntry → List (String × String)
  | .file text => [(path, text)]
  | .directory entries => filesIn (path ++ "/") entries

/-- The files of a directory whose path starts like this. -/
def filesIn (lead : String) : List (String × DirectoryEntry) → List (String × String)
  | [] => []
  | (name, entry) :: rest => entry.files (lead ++ name) ++ filesIn lead rest

end

/-- The files in and below the directory that a program runs in. -/
def FileTree.toList (tree : FileTree) : List (String × String) :=
  filesIn "" (tree.start false).here

end ClassScript.Output
