import Bundler.Path
import Bundler.Text.Utf8

/-!
# File faults

Why an operation on files failed. A store in memory names the path in its
message; a disk gives the system's wording for its error number.
-/

namespace Bundler

/-- An error number of the operating system. -/
inductive SystemError where
  | noEntry
  | exists
  | notDirectory
  | isDirectory
  | nameTooLong
  deriving DecidableEq, Repr

def SystemError.message : SystemError → String
  | .noEntry => "No such file or directory (os error 2)"
  | .exists => "File exists (os error 17)"
  | .notDirectory => "Not a directory (os error 20)"
  | .isDirectory => "Is a directory (os error 21)"
  | .nameTooLong => "File name too long (os error 36)"

/-- The cause of a failed file operation. -/
inductive FileFault where
  | missing (path : Path)
  | exists (path : Path)
  | notDirectory (path : Path)
  | isDirectory (path : Path)
  | writeRefused (path : Path)
  | illFormed (fault : Text.Utf8Fault)
  | notText
  | nulInPath
  | system (error : SystemError)
  | other (text : String)
  deriving DecidableEq, Repr

/-- What callers tell faults apart by. -/
inductive FaultKind where
  | notFound
  | alreadyExists
  | notADirectory
  | isADirectory
  | permissionDenied
  | invalidData
  | invalidInput
  | invalidFilename
  | other
  deriving DecidableEq, Repr

namespace FileFault

def kind : FileFault → FaultKind
  | missing _ => .notFound
  | .exists _ => .alreadyExists
  | notDirectory _ => .notADirectory
  | isDirectory _ => .isADirectory
  | writeRefused _ => .permissionDenied
  | illFormed _ => .invalidData
  | notText => .invalidData
  | nulInPath => .invalidInput
  | system .noEntry => .notFound
  | system .exists => .alreadyExists
  | system .notDirectory => .notADirectory
  | system .isDirectory => .isADirectory
  | system .nameTooLong => .invalidFilename
  | other _ => .other

def message : FileFault → String
  | missing path => "no such file or directory: " ++ path.text
  | .exists path => "file exists: " ++ path.text
  | notDirectory path => "not a directory: " ++ path.text
  | isDirectory path => "is a directory: " ++ path.text
  | writeRefused path => "write refused: " ++ path.text
  | illFormed fault => fault.message
  | notText => "stream did not contain valid UTF-8"
  | nulInPath => "file name contained an unexpected NUL byte"
  | system error => error.message
  | other text => text

end FileFault

end Bundler
