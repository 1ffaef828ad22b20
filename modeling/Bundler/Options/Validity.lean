import Bundler.Ignore
import Bundler.Options.Basic
import Bundler.Storage.Fault
import Bundler.Text.CharClass

/-!
# Valid options

The conditions that options must meet, and the first one that fails. Entries are
checked first and in the order of their names, then the output, the ignored
patterns and the name.
-/

namespace Bundler

/-- Why options are refused. -/
inductive InvalidOptions where
  | noEntries
  | emptyEntryName
  | emptyRequest (entry : String)
  | emptyFilename
  | filenameOutside (filename : String)
  | filenameShared (filename : String)
  | badPattern (reason : String)
  | emptyName
  deriving DecidableEq, Repr

def InvalidOptions.message : InvalidOptions → String
  | .noEntries =>
    "config must contain at least one entry (`entry = \"./src/index.js\"` or an [entry] table)"
  | .emptyEntryName => "entry names must not be empty"
  | .emptyRequest entry => "entry '" ++ entry ++ "' has an empty request"
  | .emptyFilename => "[output].filename must not be empty"
  | .filenameOutside filename =>
    "[output].filename must be a relative path inside the output directory (got '" ++
      filename ++ "')"
  | .filenameShared filename =>
    "[output].filename '" ++ filename ++
      "' must contain [name] when there are several entries"
  | .badPattern reason => "[watch_options].ignored: " ++ reason
  | .emptyName => "`name` must not be empty"

/-- Why a configuration cannot be used. -/
inductive ConfigError where
  | invalid (cause : InvalidOptions)
  | io (fault : FileFault)
  /-- The file is not well-formed TOML. -/
  | syntaxError
  /-- The file is TOML of another shape. -/
  | shape (reason : String)
  deriving DecidableEq, Repr

/-- A text of white space only. -/
def isBlankText (text : String) : Bool := text.toList.all Text.isBlank

namespace Options

def checkEntry (entry : String × String) : Except InvalidOptions Unit :=
  if isBlankText entry.1 then .error .emptyEntryName
  else if isBlankText entry.2 then .error (.emptyRequest entry.1)
  else .ok ()

def checkEntries (options : Options) : Except InvalidOptions Unit :=
  if options.entry.isEmpty then .error .noEntries
  else options.entry.entries.forM checkEntry

/-- A path that cannot lead out of the directory it is joined to. -/
def staysInside (path : Path) : Bool :=
  !path.isAbsolute && path.components.all fun component =>
    match component with
    | .root | .up => false
    | _ => true

def checkOutput (options : Options) : Except InvalidOptions Unit :=
  let filename := options.output.filename
  if isBlankText filename then .error .emptyFilename
  else if !staysInside (.of filename) then .error (.filenameOutside filename)
  else if 1 < options.entry.size && !Text.contains filename placeholder then
    .error (.filenameShared filename)
  else .ok ()

def checkWatch (options : Options) : Except InvalidOptions Unit :=
  options.watch.ignored.forM fun pattern =>
    match checkPattern pattern with
    | .ok _ => .ok ()
    | .error reason => .error (.badPattern reason)

def checkName (options : Options) : Except InvalidOptions Unit :=
  match options.name with
  | some name => if isBlankText name then .error .emptyName else .ok ()
  | none => .ok ()

/-- The first condition that options fail. -/
def validate (options : Options) : Except InvalidOptions Unit := do
  checkEntries options
  checkOutput options
  checkWatch options
  checkName options

end Options

end Bundler
