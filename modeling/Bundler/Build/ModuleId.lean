import Bundler.Path

/-! # Module identifiers -/

namespace Bundler

def forwardSlashes (text : String) : String := text.map fun c => if c = '\\' then '/' else c

/-- The name of a file inside a bundle: its path below the context, or its whole
path if it lies elsewhere. -/
def moduleId (context path : Path) : String :=
  match path.stripPrefix? context with
  | some rest => "./" ++ forwardSlashes rest.text
  | none => forwardSlashes path.text

end Bundler
