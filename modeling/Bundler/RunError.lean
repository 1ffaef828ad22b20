import Bundler.Compilation.Diagnostic
import Bundler.Storage.Fault
import Bundler.Text.Quoted

/-!
# Run errors

Why a run was refused or ended without a result. Diagnostics of a compilation
are no run errors, unless a bail makes the first of them one.
-/

namespace Bundler

inductive RunError where
  /-- Another run or session has the compiler. -/
  | concurrent
  /-- The first error of a compilation that bails. -/
  | bail (diagnostic : Diagnostic)
  | io (path : Path) (fault : FileFault)
  /-- An observer failed. -/
  | hook (name tap reason : String)
  /-- The builder gave up. -/
  | build (reason : String)
  /-- An observer or the builder panicked. -/
  | panicked
  /-- A builder met more files than it was allowed to read. -/
  | tooManyFiles
  | other (reason : String)
  deriving DecidableEq, Repr

def RunError.message : RunError → String
  | .concurrent =>
    "compiler is already running; a second run or watch cannot start until the first has finished"
  | .bail diagnostic => diagnostic.text
  | .io path fault => "IO error at " ++ Text.quoted path.text ++ ": " ++ fault.message
  | .hook name tap reason => "hook '" ++ name ++ "' failed in tap '" ++ tap ++ "': " ++ reason
  | .build reason => "build error: " ++ reason
  | .panicked => "compiler task panicked"
  | .tooManyFiles => "too many files"
  | .other reason => reason

end Bundler
