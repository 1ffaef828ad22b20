import Bundler.Path
import Bundler.Text.Replace

/-!
# Options

What a compiler is told to do. `FileOptions` is what a configuration file says,
with paths as they are written; `Options` is what a compiler works with.
-/

namespace Bundler

inductive Mode where
  | production
  | development
  | none
  deriving DecidableEq, Repr, Inhabited

/-- Entries as they are written: one request, or requests by name. -/
inductive EntrySpec where
  | single (request : String)
  | named (entries : Table String String)
  deriving DecidableEq

/-- Requests by entry name. A single request is named `main`. -/
def EntrySpec.toTable : EntrySpec → Table String String
  | .single request => Table.empty.insert "main" request
  | .named entries => entries

/-- Where output goes and how files are named. -/
structure OutputOptions where
  path : Path := .of "dist"
  /-- A template; `[name]` stands for the name of the chunk. -/
  filename : String := "[name].js"
  deriving DecidableEq, Repr

def placeholder : String := "[name]"

def OutputOptions.filenameFor (output : OutputOptions) (chunk : String) : String :=
  Text.replaceAll output.filename placeholder chunk

structure WatchOptions where
  /-- How long a burst of changes is collected, in milliseconds. -/
  aggregateTimeout : Nat := 200
  /-- Patterns of paths whose changes do not matter. -/
  ignored : List String := []
  deriving DecidableEq, Repr

/-- The options that a configuration file gives. -/
structure FileOptions where
  mode : Mode := .production
  context : Path := .of "."
  name : Option String := Option.none
  bail : Bool := false
  cache : Bool := true
  entry : EntrySpec := .named Table.empty
  output : OutputOptions := {}
  noEmitOnErrors : Option Bool := Option.none
  watch : WatchOptions := {}
  deriving DecidableEq

/-- The options of a compiler. -/
structure Options where
  mode : Mode := .production
  /-- The directory that requests of entries start from. -/
  context : Path
  name : Option String := Option.none
  bail : Bool := false
  /-- Keep artifacts from run to run. -/
  cache : Bool := true
  /-- Requests by entry name. -/
  entry : Table String String := Table.empty
  output : OutputOptions
  /-- Write nothing for a compilation with errors. -/
  noEmitOnErrors : Bool
  watch : WatchOptions := {}
  deriving DecidableEq

/-- Only production suppresses output on errors by itself. -/
def Mode.noEmitOnErrors : Mode → Bool
  | .production => true
  | _ => false

def FileOptions.toOptions (file : FileOptions) : Options where
  mode := file.mode
  context := file.context
  name := file.name
  bail := file.bail
  cache := file.cache
  entry := file.entry.toTable
  output := file.output
  noEmitOnErrors := file.noEmitOnErrors.getD file.mode.noEmitOnErrors
  watch := file.watch

/-- The options for a context without entries. -/
def Options.forContext (context : Path) : Options where
  context := context
  output := { path := context.join (.of "dist") }
  noEmitOnErrors := Mode.production.noEmitOnErrors

/-- A path seen from a directory, folded. -/
def Path.absolutize (base path : Path) : Path :=
  (if path.isAbsolute then path else base.join path).normalize

/-- Options with the context seen from the directory of their file and the output
path seen from the context. -/
def Options.rebase (options : Options) (directory : Path) : Options :=
  let context := directory.absolutize options.context
  { options with
    context
    output := { options.output with path := context.absolutize options.output.path } }

end Bundler
