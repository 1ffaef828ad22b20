import Bundler.Compilation.Basic
import Bundler.Hook

/-!
# The hooks of a compiler

The points of a run and of a watch session at which observers are called, and
what they are told. Three hooks hand a compilation on that observers may change,
and one asks whether output is wanted; the others only tell.
-/

namespace Bundler

inductive HookName where
  | beforeRun
  | run
  | watchRun
  | thisCompilation
  | compilation
  | afterCompile
  | shouldEmit
  | emit
  | assetEmitted
  | afterEmit
  | done
  | failed
  | afterDone
  | invalid
  | watchClose
  deriving DecidableEq, Repr, Inhabited

namespace HookName

def text : HookName → String
  | beforeRun => "before_run"
  | run => "run"
  | watchRun => "watch_run"
  | thisCompilation => "this_compilation"
  | compilation => "compilation"
  | afterCompile => "after_compile"
  | shouldEmit => "should_emit"
  | emit => "emit"
  | assetEmitted => "asset_emitted"
  | afterEmit => "after_emit"
  | done => "done"
  | failed => "failed"
  | afterDone => "after_done"
  | invalid => "invalid"
  | watchClose => "watch_close"

/-- All hooks in the order in which a run reaches them. -/
def all : List HookName :=
  [beforeRun, run, watchRun, thisCompilation, compilation, afterCompile, shouldEmit, emit,
    assetEmitted, afterEmit, done, failed, afterDone, invalid, watchClose]

/-- Every hook is listed. -/
theorem mem_all (hook : HookName) : hook ∈ all := by cases hook <;> decide

def ofText? (text : String) : Option HookName := all.find? fun hook => hook.text == text

end HookName

/-- An output file that was written. -/
structure EmittedAsset where
  name : String
  path : Path
  size : Nat
  deriving DecidableEq, Repr

/-- What an observer is told. -/
inductive Occasion where
  | beforeRun
  | run
  | watchRun
  | afterCompile (compilation : Compilation)
  | assetEmitted (asset : EmittedAsset)
  | afterEmit (compilation : Compilation)
  | done (compilation : Compilation)
  | failed (error : RunError)
  /-- The finished compilation, if the run did not fail. -/
  | afterDone (compilation : Option Compilation)
  /-- The changed file, or none if the session was told to run again. -/
  | invalid (file : Option Path)
  | watchClose

/-- The hook that tells of an occasion. -/
def Occasion.hook : Occasion → HookName
  | beforeRun => .beforeRun
  | run => .run
  | watchRun => .watchRun
  | afterCompile _ => .afterCompile
  | assetEmitted _ => .assetEmitted
  | afterEmit _ => .afterEmit
  | done _ => .done
  | failed _ => .failed
  | afterDone _ => .afterDone
  | invalid _ => .invalid
  | watchClose => .watchClose

/-- The hooks that hand a compilation on. -/
inductive Adjustment where
  | thisCompilation
  | compilation
  | emit
  deriving DecidableEq, Repr

def Adjustment.hook : Adjustment → HookName
  | thisCompilation => .thisCompilation
  | compilation => .compilation
  | emit => .emit

/-- An observer of one of a compiler's hooks. -/
structure Registration (ω : Type) where
  hook : HookName
  tap : Tap ω
  deriving DecidableEq

/-- All observers of a compiler in the order of their registration. -/
abbrev Registry (ω : Type) := List (Registration ω)

namespace Registry

variable {ω : Type}

/-- One hook with its observers. -/
def hook (registry : Registry ω) (name : HookName) : Hook ω :=
  ⟨name.text, (registry.filter fun entry => entry.hook == name).map Registration.tap⟩

def add (registry : Registry ω) (hook : HookName) (name : String) (observer : ω) : Registry ω :=
  registry ++ [⟨hook, ⟨name, observer⟩⟩]

/-- All hooks as a listing shows them. -/
def listing (registry : Registry ω) : String :=
  "CompilerHooks \x7b " ++
    ", ".intercalate (HookName.all.map fun name =>
      name.text ++ ": " ++ (registry.hook name).listing) ++ " \x7d"

/-- A new observer comes last on its own hook. -/
theorem taps_add_self (registry : Registry ω) (hook : HookName) (name : String) (observer : ω) :
    ((registry.add hook name observer).hook hook).taps =
      (registry.hook hook).taps ++ [⟨name, observer⟩] := by
  simp [add, Registry.hook, List.filter_append]

/-- A new observer leaves the other hooks alone. -/
theorem taps_add_of_ne (registry : Registry ω) {hook other : HookName} (name : String)
    (observer : ω) (different : hook ≠ other) :
    ((registry.add hook name observer).hook other).taps = (registry.hook other).taps := by
  simp [add, Registry.hook, List.filter_append, different]

end Registry

end Bundler
