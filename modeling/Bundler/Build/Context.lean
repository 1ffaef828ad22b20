import Bundler.ChangeSet
import Bundler.Text.Quoted

/-! # What a build is told: where it works, and what changed since the last one -/

namespace Bundler

/-- Quoted paths in braces. -/
def PathSet.listing (paths : PathSet) : String :=
  "\x7b" ++ ", ".intercalate (paths.keys.map fun path => Text.quoted path.text) ++ "\x7d"

def ChangeSet.listing (changes : ChangeSet) : String :=
  "ChangeSet \x7b changed: " ++ changes.changed.listing ++ ", removed: " ++
    changes.removed.listing ++ " \x7d"

structure BuildContext where
  context : Path
  /-- The build has an artifact cache. -/
  cached : Bool
  changes : ChangeSet
  deriving DecidableEq

def BuildContext.listing (context : BuildContext) : String :=
  "BuildContext \x7b context: " ++ Text.quoted context.context.text ++ ", cached: " ++
    toString context.cached ++ ", changes: " ++ context.changes.listing ++ ", .. \x7d"

end Bundler
