import Bundler.Storage.View

/-!
# Resolution of requests

A request is tried under a list of bases, and each base names three candidate
files. Resolution takes the first candidate that is a file.
`Resolution.candidates` is the list by itself; `resolve` asks about its members
one by one. `answer_resolve` says that the two agree.
-/

namespace Bundler

/-- What became of a request. -/
inductive Resolution where
  | found (path : Path)
  /-- No candidate is a file; all of them in the order of asking. -/
  | notFound (tried : List Path)
  deriving DecidableEq, Repr

namespace Resolution

/-- A request that starts from the directory of its issuer. -/
def isRelative (request : String) : Bool :=
  request == "." || request == ".." || "./".toList.isPrefixOf request.toList ||
    "../".toList.isPrefixOf request.toList

/-- The name of a directory that holds packages. -/
def packageDirectory : String := "node_modules"

/-- Where a request may lie: by itself if it is absolute, next to its issuer if
it is relative, else among the packages of the issuer's directory and of those
above it, nearest first. -/
def bases (directory : Path) (request : String) : List Path :=
  if isRelative request then [directory.join (.of request)]
  else if Path.isAbsolute (.of request) then [.of request]
  else
    (directory.ancestors.filter fun ancestor =>
      ancestor.fileName? != some packageDirectory).map fun ancestor =>
        (ancestor.join (.of packageDirectory)).join (.of request)

/-- The files that one base names: itself, a script, and the index of a directory. -/
def candidatesOf (base : Path) : List Path :=
  let base := base.normalize
  [base, .of (base.text ++ ".js"), base.join (.of "index.js")]

/-- Every file that a request may mean, in the order of asking. -/
def candidates (directory : Path) (request : String) : List Path :=
  (bases directory request).flatMap candidatesOf

/-- The first of some paths that a view shows as a file. -/
def first (view : FileView) (paths : List Path) : Resolution :=
  match paths.find? view.isFile with
  | some path => .found path
  | none => .notFound paths

/-- Ask about paths until one is a file; `tried` holds those that were none,
the latest first. -/
def probe : List Path → List Path → Inquiry Resolution
  | tried, [] => .done (.notFound tried.reverse)
  | tried, path :: rest => .isFile path fun found =>
    if found then .done (.found path) else probe (path :: tried) rest

end Resolution

/-- Resolve a request that a file in `directory` issues. -/
def resolve (directory : Path) (request : String) : Inquiry Resolution :=
  Resolution.probe [] (Resolution.candidates directory request)

namespace Resolution

theorem answer_probe (view : FileView) (tried paths : List Path) :
    (probe tried paths).answer view =
      match paths.find? view.isFile with
      | some path => .found path
      | none => .notFound (tried.reverse ++ paths) := by
  induction paths generalizing tried with
  | nil => simp [probe]
  | cons path rest ih =>
    simp only [probe, Inquiry.answer, List.find?_cons]
    cases found : view.isFile path <;> simp [ih]

/-- Asking one by one finds the first candidate that is a file. -/
theorem answer_resolve (view : FileView) (directory : Path) (request : String) :
    (resolve directory request).answer view = first view (candidates directory request) := by
  simp [resolve, answer_probe, first]

end Resolution

end Bundler
