import Bundler.Storage.View

/-!
# Remembered reads

A cache in front of a file view. It remembers the content of files that were
read, and for each path whether it was a file, a directory or missing when it
was first asked about. Failed reads are not remembered. `ReadCache.view` says
what the cache answers at a moment; asking changes the cache so that later
answers stay the same until it is purged.
-/

namespace Bundler

/-- What a path was when it was looked at. -/
inductive PathKind where
  | file
  | directory
  | missing
  deriving DecidableEq, Repr

def FileView.kind (view : FileView) (path : Path) : PathKind :=
  if view.isFile path then .file
  else if view.isDirectory path then .directory
  else .missing

/-- Contents and kinds seen since the last purge. -/
structure ReadCache where
  contents : Table Path ByteArray := Table.empty
  kinds : Table Path PathKind := Table.empty
  deriving DecidableEq, Inhabited

namespace ReadCache

def kind (cache : ReadCache) (inner : FileView) (path : Path) : PathKind :=
  (cache.kinds.get? path).getD (inner.kind path)

/-- What the cache answers in front of `inner`. -/
def view (cache : ReadCache) (inner : FileView) : FileView where
  isFile path := cache.kind inner path == .file
  isDirectory path := cache.kind inner path == .directory
  read path :=
    match cache.contents.get? path with
    | some content => .ok content
    | none => inner.read path

/-- The cache after it saw what kind a path is. -/
def rememberKind (cache : ReadCache) (path : Path) (kind : PathKind) : ReadCache :=
  { cache with kinds := cache.kinds.insert path kind }

/-- The cache after it saw an answer to a read. -/
def rememberRead (cache : ReadCache) (path : Path) : Except FileFault ByteArray → ReadCache
  | .ok content => { cache with contents := cache.contents.insert path content }
  | .error _ => cache

/-- The cache after it was asked for the kind of a path. -/
def noteKind (cache : ReadCache) (inner : FileView) (path : Path) : ReadCache :=
  if cache.kinds.contains path then cache
  else cache.rememberKind path (inner.kind path)

/-- The cache after it was asked to read a path. -/
def noteRead (cache : ReadCache) (inner : FileView) (path : Path) : ReadCache :=
  if cache.contents.contains path then cache
  else cache.rememberRead path (inner.read path)

/-- Forget everything. -/
def purge (_ : ReadCache) : ReadCache := {}

end ReadCache

end Bundler
