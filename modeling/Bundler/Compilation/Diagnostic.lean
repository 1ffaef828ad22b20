import Bundler.Path

/-! # Diagnostics: errors and warnings that a compilation carries -/

namespace Bundler

inductive DiagnosticKind where
  | moduleNotFound
  | moduleBuild
  | plugin
  deriving DecidableEq, Repr

def DiagnosticKind.name : DiagnosticKind → String
  | .moduleNotFound => "ModuleNotFoundError"
  | .moduleBuild => "ModuleBuildError"
  | .plugin => "PluginError"

structure Diagnostic where
  kind : DiagnosticKind
  message : String
  /-- The module that raised it, if any. -/
  module : Option String := none
  deriving DecidableEq, Repr

namespace Diagnostic

/-- No candidate of a request is a file. -/
def unresolved (request : String) (directory : Path) (module : Option String) : Diagnostic :=
  ⟨.moduleNotFound,
    "Module not found: Error: Can't resolve '" ++ request ++ "' in '" ++ directory.text ++ "'",
    module⟩

/-- Two assets claim one name with different content. -/
def assetConflict (name : String) : Diagnostic :=
  ⟨.plugin, "Conflict: Multiple assets emit different content to the same filename " ++ name, none⟩

/-- A module's bytes are no text. -/
def illFormedModule (reason module : String) : Diagnostic :=
  ⟨.moduleBuild, "Module build failed: " ++ reason, some module⟩

/-- A module computes a request. -/
def dynamicRequest (module : String) : Diagnostic :=
  ⟨.moduleBuild, "Critical dependency: the request of a dependency is an expression", some module⟩

def text (diagnostic : Diagnostic) : String :=
  diagnostic.kind.name ++ ": " ++ diagnostic.message ++
    match diagnostic.module with
    | some module => " (in " ++ module ++ ")"
    | none => ""

end Diagnostic

end Bundler
