import Bundler.Build.Bundle
import Bundler.Compiler.Emission
import Bundler.Compiler.Program

/-!
# Runs

A run makes a compilation, lets observers adjust it, has it built, and writes its
assets if nothing forbids it. The phases of a run end with the compilation or
with the first failure; a failed observer, a failed build and a bail are failures,
diagnostics are not. `Compiler.run` starts a single run, which ends with its
callback and the observers of `after_done`; `Compiler.runAsChild` only compiles.
-/

namespace Bundler.Compiler

variable {S : Setting}

/-- Call one observer of an occasion. -/
def observeOne (compiler : CompilerId) (occasion : Occasion) :
    Watcher S → Prog S (Except String Unit)
  | .outside observer => Prog.invoke (.observe compiler observer occasion)
  | .noEmitOnErrors => return .ok ()

/-- Call the observers of an occasion. -/
def observe (compiler : CompilerId) (occasion : Occasion) : Prog S (Except RunError Unit) := do
  let hook := (← Prog.look compiler).registry.hook occasion.hook
  Hook.observeAll hook.name (observeOne compiler occasion) hook.taps

/-- Call observers whose failure changes nothing. -/
def tell (compiler : CompilerId) (occasion : Occasion) : Prog S Unit := do
  let _ ← observe compiler occasion

/-- Hand a compilation on to one observer. -/
def adjustOne (compiler : CompilerId) (adjustment : Adjustment) :
    Watcher S → Compilation → Prog S (Except String Unit × Compilation)
  | .outside observer, compilation =>
    Prog.invoke (.adjust compiler observer adjustment compilation)
  | .noEmitOnErrors, compilation => return (.ok (), compilation)

/-- Hand a compilation on to the observers of a hook. -/
def adjust (compiler : CompilerId) (adjustment : Adjustment) (compilation : Compilation) :
    Prog S (Except RunError Unit × Compilation) := do
  let hook := (← Prog.look compiler).registry.hook adjustment.hook
  Hook.adjustAll hook.name (adjustOne compiler adjustment) hook.taps compilation

/-- Ask one observer whether output is wanted. -/
def decideOne (compiler : CompilerId) (compilation : Compilation) :
    Watcher S → Prog S (Except String (Option Bool))
  | .outside observer => Prog.invoke (.decide compiler observer compilation)
  | .noEmitOnErrors => return .ok (if compilation.hasErrors then some false else none)

/-- Ask the observers whether output is wanted; it is, unless one of them decides
against it. -/
def wantsOutput (compiler : CompilerId) (compilation : Compilation) :
    Prog S (Except RunError Bool) := do
  let hook := (← Prog.look compiler).registry.hook .shouldEmit
  let decision ← Hook.decideAll hook.name (decideOne compiler compilation) hook.taps
  return decision.map fun decision => decision.getD true

/-- Go on with a value that was changed, unless the change failed. -/
def proceed {α : Type} (step : Prog S (Except RunError Unit × α)) : Phase S α := do
  let (result, value) ← liftM step
  match result with
  | .ok () => return value
  | .error error => throw error

/-- The number of files that one build may read. -/
def fileLimit : Nat := 1 <<< 32

/-- Build the entries of a compiler from an input, through its artifact cache. -/
def bundle (compiler : CompilerId) (input : StorageId) (compilation : Compilation) :
    Prog S (Except RunError Unit × Compilation) := do
  let record ← Prog.look compiler
  let cache ← Prog.perform .lookCache
  let inquiry :=
    buildBundles Fingerprint.of record.options fileLimit cache compilation
  let built ← inquiry.run (fun path => Prog.invoke (.isFile input path))
    (fun path => Prog.invoke (.read input path))
  match built.cache with
  | some cache => Prog.perform (.setCache cache)
  | none => pure ()
  match built.failure with
  | none => return (.ok (), built.compilation)
  | some error => return (.error error, built.compilation)

/-- Make a compilation and fill it. A build keeps the input with which it began.
Only a compiler that is no child drops the artifacts of modules that it no longer
has. -/
def compile (compiler : CompilerId) : Phase S Compilation := do
  let compilation ← (Prog.perform (.newCompilation compiler) : Prog S Compilation)
  let compilation ← proceed (adjust compiler .thisCompilation compilation)
  let compilation ← proceed (adjust compiler .compilation compilation)
  let input := (← (Prog.look compiler : Prog S _)).input
  let compilation ← proceed (Prog.invoke (.build compiler input compilation))
  let record ← (Prog.look compiler : Prog S _)
  if !record.parent.isTruthy then
    (Prog.perform (.retain compilation.moduleIds) : Prog S Unit)
  ExceptT.mk (observe compiler (.afterCompile compilation))
  return compilation

/-- How a compiler writes its output. -/
def emitter (compiler : CompilerId) (output : StorageId) : Emitter (Prog S) where
  mkdir path := Prog.invoke (.mkdir output path)
  write path content := Prog.invoke (.write output path content)
  tell asset := observe compiler (.assetEmitted asset)

/-- Let observers adjust the assets, write them, and tell that it is done. -/
def emit (compiler : CompilerId) (compilation : Compilation) : Phase S Compilation := do
  let compilation ← proceed (adjust compiler .emit compilation)
  let record ← (Prog.look compiler : Prog S _)
  let compilation ←
    proceed ((emitter compiler record.output).emitAll record.options.output.path compilation)
  ExceptT.mk (observe compiler (.afterEmit compilation))
  return compilation

/-- The error that a compilation with bail fails with. -/
def bailError? (compilation : Compilation) : Option RunError :=
  if compilation.bail then compilation.firstError?.map RunError.bail else none

/-- From a filled compilation to a finished one. -/
def conclude (compiler : CompilerId) (compilation : Compilation) : Phase S Compilation := do
  match bailError? compilation with
  | some error => throw error
  | none =>
    let wanted ← ExceptT.mk (wantsOutput compiler compilation)
    let compilation ← if wanted then emit compiler compilation else pure compilation
    ExceptT.mk (observe compiler (.done compilation))
    return compilation

/-- The phases of a single run. -/
def phases (compiler : CompilerId) : Phase S Compilation := do
  ExceptT.mk (observe compiler .beforeRun)
  ExceptT.mk (observe compiler .run)
  let compilation ← compile compiler
  conclude compiler compilation

/-- The phases of a watch run. -/
def watchPhases (compiler : CompilerId) : Phase S Compilation := do
  ExceptT.mk (observe compiler .watchRun)
  let compilation ← compile compiler
  conclude compiler compilation

/-- Tell of a failure, if there is one. -/
def tellFailure (compiler : CompilerId) : RunResult → Prog S Unit
  | .ok _ => pure ()
  | .error error => tell compiler (.failed error)

/-- A single run from its beginning to the end of its last observer. The phases
are a task of their own, so that a panic in them is a failure of the run. -/
def runToEnd (compiler : CompilerId) (callback : S.Callback) : Prog S Unit := do
  Prog.perform (.acquire compiler)
  Prog.perform (.setChanges compiler ChangeSet.empty)
  let task ← Prog.perform (.spawn (.phases compiler))
  let result ← Prog.perform (.join task)
  tellFailure compiler result
  let _ ← Prog.perform (.shift compiler .endRun)
  Prog.invoke (.answer callback result)
  tell compiler (.afterDone result.toOption)
  Prog.perform (.release compiler)

/-- Start a run. While another run or a session has the compiler, the callback is
called at once with an error, and nothing else happens. -/
def run (compiler : CompilerId) (callback : S.Callback) : Prog S Unit := do
  if ← Prog.perform (.shift compiler .beginRun) then
    let _ ← Prog.perform (.spawn (.run compiler callback))
  else
    Prog.invoke (.answer callback (.error .concurrent))

/-- Compile for another compilation; nothing is written. -/
def runAsChild (compiler : CompilerId) : Prog S RunResult := do
  if ← Prog.perform (.shift compiler .beginRun) then
    Prog.perform (.acquire compiler)
    let result ← (compile compiler).run
    tellFailure compiler result
    let _ ← Prog.perform (.shift compiler .endRun)
    Prog.perform (.release compiler)
    return result
  else
    return .error .concurrent

/-! ## Making compilers -/

/-- Register the observers that options ask for. -/
def applyBuiltIns (compiler : CompilerId) (options : Options) : Prog S Unit :=
  if options.noEmitOnErrors then
    Prog.perform (.register compiler .shouldEmit "NoEmitOnErrorsPlugin" .noEmitOnErrors)
  else pure ()

/-- Make a compiler. The plugins register their observers before the built-in
ones. -/
def create (record : CompilerRecord S) (plugins : CompilerId → Prog S Unit) :
    Prog S CompilerId := do
  let compiler ← Prog.perform (.createCompiler record)
  if record.options.cache then Prog.perform (.setCache ArtifactCache.empty)
  plugins compiler
  applyBuiltIns compiler record.options
  return compiler

/-- The record of a compiler that works for a compilation of `parent`. It shares
storages with the parent, and has no observers yet. -/
def childRecord (parent : CompilerRecord S) (compilation : Compilation) (name : String)
    (entry : Option (Table String String)) : CompilerRecord S where
  options := { parent.options with
    name := some (match parent.options.name with
      | some parentName => parentName ++ "/" ++ name
      | none => name)
    entry := entry.getD parent.options.entry }
  parent := .compilation ⟨compilation.id, compilation.name⟩
  input := parent.input
  output := parent.output
  watcher := parent.watcher
  changes := parent.changes

/-- Make a compiler that works for a compilation. It shares the artifact cache of
its parent, and no observer of the parent sees it. -/
def createChild (compiler : CompilerId) (compilation : Compilation) (name : String)
    (entry : Option (Table String String)) (plugins : CompilerId → Prog S Unit) :
    Prog S CompilerId := do
  let parent ← Prog.look compiler
  let child ← Prog.perform (.createCompiler (childRecord parent compilation name entry))
  plugins child
  return child

/-- A compiler as a listing shows it. -/
def listing (record : CompilerRecord S) (cached : Bool) : String :=
  "Compiler \x7b name: " ++ Text.quotedOption record.options.name ++ ", state: " ++
    record.state.listing ++ ", is_child: " ++ toString record.parent.isTruthy ++ ", cache: " ++
    toString cached ++ ", .. \x7d"

end Bundler.Compiler
