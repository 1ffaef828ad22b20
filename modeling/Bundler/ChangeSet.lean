import Bundler.Path

/-!
# Change sets

The paths that changed and those that were removed since the last notice. In a
merge the later state of a path wins.
-/

namespace Bundler

structure ChangeSet where
  changed : PathSet := Table.empty
  removed : PathSet := Table.empty
  deriving DecidableEq, Inhabited

namespace ChangeSet

def empty : ChangeSet := {}

def ofPaths (changed removed : List Path) : ChangeSet :=
  ⟨PathSet.ofList changed, PathSet.ofList removed⟩

def isEmpty (changes : ChangeSet) : Bool := changes.changed.isEmpty && changes.removed.isEmpty

/-- Count a path as changed, whatever it was. -/
def markChanged (changes : ChangeSet) (path : Path) : ChangeSet :=
  ⟨changes.changed.add path, changes.removed.erase path⟩

/-- Count a path as removed, whatever it was. -/
def markRemoved (changes : ChangeSet) (path : Path) : ChangeSet :=
  ⟨changes.changed.erase path, changes.removed.add path⟩

/-- Fold a later set into an earlier one. A path on both sides of the later set
ends up removed. -/
def merge (earlier later : ChangeSet) : ChangeSet :=
  later.removed.keys.foldl markRemoved (later.changed.keys.foldl markChanged earlier)

/-- All paths of both sides in path order. -/
def paths (changes : ChangeSet) : List Path := (changes.changed.addAll changes.removed.keys).keys

end ChangeSet

end Bundler
