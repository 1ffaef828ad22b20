import Bundler.Compiler.Program
import Bundler.Ignore

/-!
# Which file events matter

A request to watch names files, and paths that are missing. Directories are what
can be watched, so the directories above those paths are, and a filter keeps of
their events what the request is about.
-/

namespace Bundler

/-- What a subscription is about. -/
structure NoticeFilter where
  context : Path
  files : PathSet
  missing : PathSet
  ignored : IgnoreRules

namespace NoticeFilter

def ofRequest (request : WatchRequest) : Except String NoticeFilter := do
  let ignored ← IgnoreRules.ofPatterns request.options.ignored
  return ⟨request.context, request.files, request.missing, ignored⟩

/-- Events of a path matter if the path was asked for, or if it lies on the way
to a missing one, unless it is ignored. -/
def accepts (filter : NoticeFilter) (path : Path) : Bool :=
  !filter.ignored.ignores filter.context path &&
    (filter.files.contains path || filter.missing.contains path ||
      filter.missing.keys.any fun missing => missing.startsWith path)

/-- Nothing ignored is accepted. -/
theorem accepts_of_ignores {filter : NoticeFilter} {path : Path}
    (ignored : filter.ignored.ignores filter.context path = true) :
    filter.accepts path = false := by
  simp [accepts, ignored]

end NoticeFilter

/-- The nearest directory above a path. -/
def nearestDirectory? (isDirectory : Path → Bool) (path : Path) : Option Path :=
  path.ancestors.tail.find? isDirectory

/-- The directories to watch for a request. -/
def watchedDirectories (isDirectory : Path → Bool) (request : WatchRequest) : PathSet :=
  PathSet.ofList ((request.files.keys ++ request.missing.keys).filterMap
    (nearestDirectory? isDirectory))

end Bundler
