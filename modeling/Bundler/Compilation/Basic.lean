import Bundler.Compilation.Diagnostic
import Bundler.Fingerprint
import Bundler.Text.Quoted

/-!
# Compilations

A compilation records the modules, chunks, assets, diagnostics and watched paths
of one unit of work, and the child compilations that were attached to it. The
first content given to an asset name stays; another one is a conflict. A child's
assets and paths join those of its parent when it is attached.
-/

namespace Bundler

/-- A module that was read and rendered. -/
structure Module where
  id : String
  path : Path
  /-- The modules that it requires, in source order. -/
  dependencies : List String
  fingerprint : Fingerprint
  artifact : String
  /-- The artifact came from the cache. -/
  cached : Bool
  deriving DecidableEq

def Module.size (module : Module) : Nat := module.artifact.utf8ByteSize

/-- Modules that are written out together. -/
structure Chunk where
  name : String
  entry : String
  modules : List String
  files : List String
  deriving DecidableEq, Repr

/-- An output file. -/
structure Asset where
  content : ByteArray
  /-- It has been written. -/
  emitted : Bool := false
  deriving DecidableEq

/-- What a compilation holds apart from its children. -/
structure CompilationRecord where
  id : Nat
  name : Option String := none
  /-- Make the first error fatal. -/
  bail : Bool := false
  modules : Table String Module := Table.empty
  chunks : List Chunk := []
  assets : Table String Asset := Table.empty
  errors : List Diagnostic := []
  warnings : List Diagnostic := []
  /-- The files that were read. -/
  files : PathSet := Table.empty
  /-- The paths that were asked for and were no files. -/
  missing : PathSet := Table.empty
  deriving DecidableEq, Inhabited

structure Compilation extends CompilationRecord where
  children : List Compilation := []
  deriving Inhabited

namespace Compilation

def addModule (compilation : Compilation) (module : Module) : Compilation :=
  { compilation with modules := compilation.modules.insert module.id module }

def addChunk (compilation : Compilation) (chunk : Chunk) : Compilation :=
  { compilation with chunks := compilation.chunks ++ [chunk] }

def pushError (compilation : Compilation) (diagnostic : Diagnostic) : Compilation :=
  { compilation with errors := compilation.errors ++ [diagnostic] }

def pushWarning (compilation : Compilation) (diagnostic : Diagnostic) : Compilation :=
  { compilation with warnings := compilation.warnings ++ [diagnostic] }

def addFile (compilation : Compilation) (path : Path) : Compilation :=
  { compilation with files := compilation.files.add path }

def addMissing (compilation : Compilation) (path : Path) : Compilation :=
  { compilation with missing := compilation.missing.add path }

def addMissingPaths (compilation : Compilation) (paths : List Path) : Compilation :=
  { compilation with missing := compilation.missing.addAll paths }

/-- Give a name a content. The first one stays; a different one is an error. -/
def emitAsset (compilation : Compilation) (name : String) (content : ByteArray) : Compilation :=
  match compilation.assets.get? name with
  | none => { compilation with assets := compilation.assets.insert name ⟨content, false⟩ }
  | some held =>
    if held.content = content then compilation
    else compilation.pushError (.assetConflict name)

/-- Replace the content of an asset that is there. -/
def updateAsset (compilation : Compilation) (name : String) (content : ByteArray) :
    Bool × Compilation :=
  if compilation.assets.contains name then
    (true, { compilation with
      assets := compilation.assets.modify name fun _ => ⟨content, false⟩ })
  else (false, compilation)

def deleteAsset (compilation : Compilation) (name : String) : Option Asset × Compilation :=
  (compilation.assets.get? name,
    { compilation with assets := compilation.assets.erase name })

def markEmitted (compilation : Compilation) (name : String) : Compilation :=
  { compilation with
    assets := compilation.assets.modify name fun asset => { asset with emitted := true } }

def assetNames (compilation : Compilation) : List String := compilation.assets.keys

/-- Attach a finished child. -/
def addChild (compilation child : Compilation) : Compilation :=
  let joined := child.assets.entries.foldl
    (fun compilation entry => compilation.emitAsset entry.1 entry.2.content) compilation
  { joined with
    files := joined.files.addAll child.files.keys
    missing := joined.missing.addAll child.missing.keys
    children := joined.children ++ [child] }

/-! ## Views of the whole tree -/

mutual

/-- The compilation and all those below it, parents first. -/
def tree : Compilation → List CompilationRecord
  | ⟨record, children⟩ => record :: treeOfAll children

def treeOfAll : List Compilation → List CompilationRecord
  | [] => []
  | child :: rest => tree child ++ treeOfAll rest

end

def hasErrors (compilation : Compilation) : Bool :=
  compilation.tree.any fun record => !record.errors.isEmpty

def hasWarnings (compilation : Compilation) : Bool :=
  compilation.tree.any fun record => !record.warnings.isEmpty

/-- The first error, parents before their children. -/
def firstError? (compilation : Compilation) : Option Diagnostic :=
  compilation.tree.findSome? fun record => record.errors.head?

/-- The identifiers of all modules in the tree. -/
def moduleIds (compilation : Compilation) : List String :=
  compilation.tree.flatMap fun record => record.modules.keys

/-! ## Edits -/

/-- A change that an observer or a builder may make. -/
inductive Edit where
  | emitAsset (name : String) (content : ByteArray)
  | updateAsset (name : String) (content : ByteArray)
  | deleteAsset (name : String)
  /-- Emit an asset that lists the names of all assets. -/
  | emitNames (name : String)
  | pushError (diagnostic : Diagnostic)
  | pushWarning (diagnostic : Diagnostic)
  | setBail (value : Bool)
  | addFile (path : Path)
  | addMissing (path : Path)
  | addChunk (chunk : Chunk)
  | addModule (module : Module)
  | addChild (child : Compilation)

/-- What an edit answers. -/
inductive EditResult where
  | none
  | flag (value : Bool)
  | asset (value : Option Asset)

def edit (compilation : Compilation) : Edit → EditResult × Compilation
  | .emitAsset name content => (.none, compilation.emitAsset name content)
  | .updateAsset name content =>
    let (found, compilation) := compilation.updateAsset name content
    (.flag found, compilation)
  | .deleteAsset name =>
    let (asset, compilation) := compilation.deleteAsset name
    (.asset asset, compilation)
  | .emitNames name =>
    (.none, compilation.emitAsset name (",".intercalate compilation.assetNames).toUTF8)
  | .pushError diagnostic => (.none, compilation.pushError diagnostic)
  | .pushWarning diagnostic => (.none, compilation.pushWarning diagnostic)
  | .setBail value => (.none, { compilation with bail := value })
  | .addFile path => (.none, compilation.addFile path)
  | .addMissing path => (.none, compilation.addMissing path)
  | .addChunk chunk => (.none, compilation.addChunk chunk)
  | .addModule module => (.flag true, compilation.addModule module)
  | .addChild child => (.none, compilation.addChild child)

/-! ## Texts -/

/-- The compilation as a listing shows it. -/
def listing (compilation : Compilation) : String :=
  "Compilation \x7b id: " ++ toString compilation.id ++
    ", name: " ++ Text.quotedOption compilation.name ++
    ", bail: " ++ toString compilation.bail ++
    ", modules: " ++ toString compilation.modules.size ++
    ", assets: " ++ Text.quotedList compilation.assetNames ++
    ", errors: " ++ toString compilation.errors.length ++
    ", warnings: " ++ toString compilation.warnings.length ++ ", .. \x7d"

/-- The summary that is printed after a run; `elapsed` is its time in
milliseconds. -/
def summary (compilation : Compilation) (elapsed : String) : String :=
  let cached := compilation.modules.values.countP Module.cached
  compilation.name.getD "compilation" ++ ": " ++ toString compilation.modules.size ++
    " modules (" ++ toString cached ++ " cached), " ++ toString compilation.assets.size ++
    " assets in " ++ elapsed ++ " ms\n" ++
    String.join (compilation.assets.entries.map fun (name, asset) =>
      "  " ++ name ++ "  " ++ toString asset.content.size ++ " bytes " ++
        (if asset.emitted then "[emitted]" else "") ++ "\n") ++
    String.join (compilation.warnings.map fun warning => "WARNING " ++ warning.text ++ "\n") ++
    String.join (compilation.errors.map fun error => "ERROR " ++ error.text ++ "\n")

end Compilation

end Bundler
