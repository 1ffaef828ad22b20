import Bundler.Build.ModuleId
import Bundler.Compilation.Basic
import Bundler.Options.Basic
import Bundler.Resolution
import Bundler.RunError
import Bundler.Source.Call

/-!
# Scanning the module graph

The entries are resolved, and the files that they reach through literal require
calls are read once each, in the order in which they were found. What is found
goes into a compilation: read files, missing paths, diagnostics. The result also
holds the source and the resolved requests of every module.
-/

namespace Bundler.Build

/-- A module as it was read. -/
structure ScannedModule where
  path : Path
  source : String
  /-- Each request with the module that it leads to, in source order. -/
  requests : List (String × Option String)
  deriving DecidableEq

def ScannedModule.dependencies (module : ScannedModule) : List String :=
  module.requests.filterMap Prod.snd

/-- A scan under way. -/
structure Scan where
  compilation : Compilation
  modules : Table String ScannedModule := Table.empty
  /-- Entry names with their modules. -/
  entries : List (String × String) := []
  /-- Paths that were read or are being read. -/
  seen : List Path := []
  /-- Files found so far that are still to be read. -/
  queue : List Path := []
  failure : Option RunError := none

namespace Scan

def knows (scan : Scan) (path : Path) : Bool := scan.seen.any path.same

/-- Note a resolution: a found file is to be read, tried paths are missing and
an error. Gives the module that was found. -/
def note (scan : Scan) (context directory : Path) (request : String) (module : Option String) :
    Resolution → Option String × Scan
  | .found path =>
    (some (moduleId context path), { scan with queue := scan.queue ++ [path] })
  | .notFound tried =>
    (none, { scan with
      compilation := (scan.compilation.addMissingPaths tried).pushError
        (.unresolved request directory module) })

/-- Resolve the entries in the order of their names. -/
def resolveEntries (context : Path) : List (String × String) → Scan → Inquiry Scan
  | [], scan => .done scan
  | (name, request) :: rest, scan => do
    let resolution ← resolve context request
    let (found, scan) := scan.note context context request none resolution
    let scan :=
      match found with
      | some id => { scan with entries := scan.entries ++ [(name, id)] }
      | none => scan
    resolveEntries context rest scan

/-- Resolve the requests of one module in source order. -/
def resolveRequests (context directory : Path) (id : String) :
    List String → List (String × Option String) → Scan →
      Inquiry (List (String × Option String) × Scan)
  | [], resolved, scan => .done (resolved, scan)
  | request :: rest, resolved, scan => do
    let resolution ← resolve directory request
    let (found, scan) := scan.note context directory request (some id) resolution
    resolveRequests context directory id rest (resolved ++ [(request, found)]) scan

/-- The text of a module and the diagnostics about it. -/
def decodeModule (scan : Scan) (id : String) (content : ByteArray) : String × Scan :=
  let decoded := Text.decode content
  let compilation :=
    match decoded.fault with
    | some fault => scan.compilation.pushError (.illFormedModule fault.message id)
    | none => scan.compilation
  let compilation :=
    if Source.hasDynamicCall decoded.text then compilation.pushWarning (.dynamicRequest id)
    else compilation
  (decoded.text, { scan with compilation })

/-- Take in a file that was read. -/
def addFile (scan : Scan) (context path : Path) (content : ByteArray) : Inquiry Scan := do
  let id := moduleId context path
  let scan := { scan with compilation := scan.compilation.addFile path }
  let (source, scan) := scan.decodeModule id content
  let directory := path.parent?.getD context
  let (requests, scan) ←
    resolveRequests context directory id (Source.requests source) [] scan
  return { scan with modules := scan.modules.insert id ⟨path, source, requests⟩ }

/-- Read the files of the queue and those that they lead to, at most `budget`
different ones. -/
def drain (context : Path) (budget : Nat) (scan : Scan) : Inquiry Scan :=
  match budget, scan.queue.dropWhile scan.knows with
  | _, [] => .done { scan with queue := [] }
  | 0, _ :: queue => .done { scan with queue, failure := some .tooManyFiles }
  | budget + 1, path :: queue =>
    .read path fun content =>
      let scan := { scan with seen := path :: scan.seen, queue }
      match content with
      | .error fault => .done { scan with failure := some (.io path fault) }
      | .ok content => do
        let scan ← scan.addFile context path content
        drain context budget scan

/-- Scan everything that the entries reach. -/
def run (options : Options) (budget : Nat) (compilation : Compilation) : Inquiry Scan := do
  let scan ← resolveEntries options.context options.entry.entries { compilation }
  drain options.context budget scan

end Scan

end Bundler.Build
