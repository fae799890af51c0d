/-!
Failures of reading and writing files, with the texts that the operating system
gives them.
-/

namespace ClassScript.Output

inductive FileError where
  | notFound
  | isDirectory
  | alreadyExists
  | notDirectory
  | nameTooLong
  | nulByte
  | other (text : String)
  deriving DecidableEq

def FileError.message : FileError → String
  | .notFound => "No such file or directory (os error 2)"
  | .isDirectory => "Is a directory (os error 21)"
  | .alreadyExists => "File exists (os error 17)"
  | .notDirectory => "Not a directory (os error 20)"
  | .nameTooLong => "File name too long (os error 36)"
  | .nulByte => "file name contained an unexpected NUL byte"
  | .other text => text

end ClassScript.Output
