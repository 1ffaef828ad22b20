import Bundler.Storage.ReadCache

/-!
# Input storages

The reader of a compiler in front of some files. It may count the calls that
reach the files, and it may remember what it saw until it is purged. Counting
changes no answer; `InputStorage.view` says what the storage answers at a moment.
-/

namespace Bundler

structure InputStorage where
  /-- What was seen since the last purge, if the storage remembers. -/
  cache : Option ReadCache := none
  /-- Reads that reached the files. -/
  reads : Nat := 0
  /-- Purges that reached the files. -/
  purges : Nat := 0
  deriving DecidableEq, Inhabited

namespace InputStorage

/-- What the storage answers in front of `files`. -/
def view (input : InputStorage) (files : FileView) : FileView :=
  match input.cache with
  | some cache => cache.view files
  | none => files

/-- The storage after it was asked to read a path. -/
def noteRead (input : InputStorage) (files : FileView) (path : Path) : InputStorage :=
  match input.cache with
  | none => { input with reads := input.reads + 1 }
  | some cache =>
    if cache.contents.contains path then input
    else { input with cache := some (cache.noteRead files path), reads := input.reads + 1 }

/-- The storage after it was asked for the kind of a path. -/
def noteKind (input : InputStorage) (files : FileView) (path : Path) : InputStorage :=
  { input with cache := input.cache.map fun cache => cache.noteKind files path }

/-- Forget everything that was seen. -/
def purge (input : InputStorage) : InputStorage :=
  { input with cache := input.cache.map ReadCache.purge, purges := input.purges + 1 }

/-- The number of contents that the storage remembers. -/
def remembered (input : InputStorage) : Nat :=
  match input.cache with
  | some cache => cache.contents.size
  | none => 0

/-- Read a path in front of `files`. -/
def readFrom (files : FileView) (path : Path) :
    StateM InputStorage (Except FileFault ByteArray) := fun input =>
  ((input.view files).read path, input.noteRead files path)

def isFileIn (files : FileView) (path : Path) : StateM InputStorage Bool := fun input =>
  ((input.view files).isFile path, input.noteKind files path)

def isDirectoryIn (files : FileView) (path : Path) : StateM InputStorage Bool := fun input =>
  ((input.view files).isDirectory path, input.noteKind files path)

/-- Run an inquiry through the storage; the files do not change meanwhile. -/
def inquire {α : Type} (files : FileView) (inquiry : Inquiry α) : StateM InputStorage α :=
  inquiry.run (isFileIn files) (readFrom files)

end InputStorage

end Bundler
