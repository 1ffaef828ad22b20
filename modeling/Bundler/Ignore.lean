import Bundler.Glob.Expression
import Bundler.Path
import Bundler.Text.Quoted

/-!
# Ignored paths

Patterns for paths whose changes do not matter. A pattern is tried on the path
as it is written and, for a path below the context, on what follows the context.
-/

namespace Bundler

/-- Read a pattern, naming it if it is faulty. -/
def checkPattern (pattern : String) : Except String Glob :=
  match Glob.parse pattern with
  | .ok glob => .ok glob
  | .error error =>
    .error ("invalid glob pattern: " ++ pattern ++ ": " ++ error.message pattern)

/-- Patterns as they were written and as they were read. -/
structure IgnoreRules where
  patterns : List String
  globs : List Glob

namespace IgnoreRules

/-- Read all patterns and make them usable. -/
def ofPatterns (patterns : List String) : Except String IgnoreRules :=
  match patterns.mapM checkPattern with
  | .error message => .error ("building ignore globset: " ++ message)
  | .ok globs =>
    match Glob.checkSet globs with
    | .error error => .error ("building ignore globset: " ++ error.message)
    | .ok () => .ok ⟨patterns, globs⟩

/-- A path below a directory, written with forward slashes only. -/
def relativeText? (context path : Path) : Option String :=
  (path.stripPrefix? context).map fun rest => rest.text.map fun c => if c = '\\' then '/' else c

def ignores (rules : IgnoreRules) (context path : Path) : Bool :=
  rules.globs.any (fun glob => glob.selects path.text) ||
    match relativeText? context path with
    | some text => rules.globs.any fun glob => glob.selects text
    | none => false

def listing (rules : IgnoreRules) : String :=
  "IgnoreMatcher \x7b patterns: " ++ Text.quotedList rules.patterns ++ ", .. \x7d"

end IgnoreRules

end Bundler
