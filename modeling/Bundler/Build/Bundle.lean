import Bundler.ArtifactCache
import Bundler.Build.Scan
import Bundler.Fingerprint.Graph
import Bundler.Source.Template

/-!
# Building bundles

From a scan to modules, chunks and assets. Every module is rendered or taken
from the artifact cache under its fingerprint; every entry gives a chunk with all
modules that it reaches, and an asset that holds them.
-/

namespace Bundler.Build

/-- The module that a request leads to; of several the last one counts. -/
def ScannedModule.target? (module : ScannedModule) (request : String) : Option String :=
  (module.requests.reverse.findSome? fun (other, id) =>
    if other = request then id else none)

/-- The rendered module: calls of resolved requests name their modules. -/
def ScannedModule.render (module : ScannedModule) (id : String) : String :=
  Source.renderModule id (Source.replaceCalls module.source fun request =>
    (module.target? request).map Source.requireCall)

/-- The graph of the scanned modules in the order of their identifiers. -/
def graphOf (digest : ByteArray → Fingerprint) (modules : Table String ScannedModule) : Graph :=
  ⟨modules.entries.map fun (id, module) =>
    ⟨id, digest module.source.toUTF8, module.dependencies⟩⟩

/-- Modules under way: the compilation and the cache, if there is one. -/
structure Rendering where
  compilation : Compilation
  cache : Option ArtifactCache

/-- Render one module or take it from the cache. -/
def Rendering.add (rendering : Rendering) (id : String) (module : ScannedModule)
    (fingerprint : Fingerprint) : Rendering :=
  let place (fetched : ArtifactCache.Fetched) (cache : Option ArtifactCache) : Rendering :=
    ⟨rendering.compilation.addModule
      ⟨id, module.path, module.dependencies, fingerprint, fetched.artifact, fetched.hit⟩, cache⟩
  match rendering.cache with
  | none => place ⟨module.render id, false⟩ none
  | some cache =>
    let produce (_ : Unit) : Except Empty String := .ok (module.render id)
    match cache.fetch id fingerprint rendering.compilation.id produce with
    | (.ok fetched, cache) => place fetched (some cache)

/-- Render all modules in the order of their identifiers. -/
def renderAll (digest : ByteArray → Fingerprint) (modules : Table String ScannedModule)
    (rendering : Rendering) : Rendering :=
  let fingerprints := (graphOf digest modules).fingerprints digest
  modules.entries.foldl (fun rendering (id, module) =>
    rendering.add id module
      ((fingerprints.get? id).getD (digest module.source.toUTF8))) rendering

/-- Add to `seen` the modules that are reached from those on the stack, at most
`budget` new ones. -/
def reachFrom (dependencies : String → List String) (budget : Nat) (stack : List String)
    (seen : Table String Unit) : Table String Unit :=
  match budget, stack.dropWhile seen.contains with
  | _, [] => seen
  | 0, _ :: _ => seen
  | budget + 1, id :: stack =>
    reachFrom dependencies budget (dependencies id ++ stack) (seen.insert id ())

/-- The modules that an entry reaches, in order. -/
def reachable (modules : Table String ScannedModule) (entry : String) : List String :=
  let dependencies (id : String) : List String :=
    match modules.get? id with
    | some module => module.dependencies
    | none => []
  let known := modules.values.flatMap ScannedModule.dependencies
  (reachFrom dependencies (known.length + 1) [entry] Table.empty).keys

/-- Add the chunk and the asset of one entry. -/
def addEntry (options : Options) (modules : Table String ScannedModule)
    (compilation : Compilation) (name entry : String) : Compilation :=
  let reached := reachable modules entry
  let artifacts : Table String String := ⟨reached.filterMap fun id =>
    (compilation.modules.get? id).map fun module => (id, module.artifact)⟩
  let file := options.output.filenameFor name
  (compilation.emitAsset file (Source.renderChunk entry artifacts).toUTF8).addChunk
    ⟨name, entry, reached, [file]⟩

/-- What a build leaves behind, whether it failed or not. -/
structure Built where
  compilation : Compilation
  cache : Option ArtifactCache
  failure : Option RunError

/-- Render a finished scan. -/
def finish (digest : ByteArray → Fingerprint) (options : Options) (cache : Option ArtifactCache)
    (scan : Scan) : Built :=
  match scan.failure with
  | some failure => ⟨scan.compilation, cache, some failure⟩
  | none =>
    let rendering := renderAll digest scan.modules ⟨scan.compilation, cache⟩
    let compilation := scan.entries.foldl (fun compilation (name, entry) =>
      addEntry options scan.modules compilation name entry) rendering.compilation
    ⟨compilation, rendering.cache, none⟩

end Build

/-- Build the entries of `options` into a compilation, reading at most `budget`
files. -/
def buildBundles (digest : ByteArray → Fingerprint) (options : Options) (budget : Nat)
    (cache : Option ArtifactCache) (compilation : Compilation) : Inquiry Build.Built := do
  let scan ← Build.Scan.run options budget compilation
  return Build.finish digest options cache scan

end Bundler
