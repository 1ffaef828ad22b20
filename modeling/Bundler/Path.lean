import Bundler.Table

/-!
# Paths

A path is a text and the sequence of components that it is read as. Several spellings have the
same components; tables of paths compare components and keep a spelling. A
leading `.` of a relative path is a component, any other `.` and an empty
segment are not. `Path.normalize` folds `.` and `..` without looking at files.
-/

namespace Bundler

/-- One step of a path. -/
inductive Component where
  | root
  | here
  | up
  | name (text : String)
  deriving DecidableEq, Repr, Inhabited

namespace Component

/-- Kinds of components in increasing order; names are last. -/
def rank : Component → Nat
  | root => 0
  | here => 1
  | up => 2
  | name _ => 3

def text : Component → String
  | root => "/"
  | here => "."
  | up => ".."
  | name text => text

/-- Components are ordered by kind, names by their text. -/
instance : Ord Component where
  compare left right := (compare left.rank right.rank).then (compare left.text right.text)

def isName : Component → Bool
  | name _ => true
  | _ => false

end Component

/-- What a path starts with, before its segments are read. -/
inductive Lead where
  | root
  | here
  | none
  deriving DecidableEq, Repr

def Lead.components : Lead → List Component
  | .root => [.root]
  | .here => [.here]
  | .none => []

/-- The text of a path cut into its lead and the segments between slashes that follow. -/
structure Cut where
  lead : Lead
  segments : List String

namespace Cut

/-- The pieces of `text` between slashes. -/
def segmentsOf : List Char → List (List Char)
  | [] => [[]]
  | c :: rest =>
    if c = '/' then [] :: segmentsOf rest
    else
      match segmentsOf rest with
      | [] => [[c]]
      | first :: others => (c :: first) :: others

def ofText (text : String) : Cut :=
  match (segmentsOf text.toList).map String.ofList with
  | "" :: next :: rest => ⟨.root, next :: rest⟩
  | "." :: rest => ⟨.here, rest⟩
  | segments => ⟨.none, segments⟩

/-- Segments that are no component: the empty one and an inner `.`. -/
def isIdle (segment : String) : Bool := segment == "" || segment == "."

def componentOf (segment : String) : Component :=
  if segment = ".." then .up else .name segment

def components (cut : Cut) : List Component :=
  cut.lead.components ++ (cut.segments.filter (fun segment => !isIdle segment)).map componentOf

def text (cut : Cut) : String :=
  match cut.lead, cut.segments with
  | .root, segments => "/" ++ "/".intercalate segments
  | .here, [] => "."
  | .here, segments => "./" ++ "/".intercalate segments
  | .none, segments => "/".intercalate segments

/-- Segments without the idle ones at their end. -/
def trimEnd (segments : List String) : List String :=
  (segments.reverse.dropWhile isIdle).reverse

end Cut

/-- A path as it was written, with the components that it is read as. -/
structure Path where
  text : String
  components : List Component
  components_eq : components = (Cut.ofText text).components

namespace Path

/-- The path that a text writes. -/
def of (text : String) : Path := ⟨text, (Cut.ofText text).components, rfl⟩

/-- A path is known by its text. -/
@[ext] theorem ext_text {left right : Path} (same : left.text = right.text) : left = right := by
  obtain ⟨text, components, components_eq⟩ := left
  obtain ⟨other, others, others_eq⟩ := right
  subst same components_eq others_eq
  rfl

@[simp] theorem of_text (path : Path) : of path.text = path := ext_text rfl

instance : DecidableEq Path := fun left right =>
  decidable_of_iff (left.text = right.text) ⟨ext_text, fun same => same ▸ rfl⟩

instance : Inhabited Path := ⟨of ""⟩

instance : Repr Path := ⟨fun path => reprPrec path.text⟩

def cut (path : Path) : Cut := Cut.ofText path.text

/-- The path that a cut writes. -/
def ofCut (cut : Cut) : Path := of cut.text

/-- Paths are ordered component by component. -/
instance : Ord Path where
  compare left right := compare left.components right.components

/-- Two spellings of one path. -/
def same (left right : Path) : Bool := left.components == right.components

def isAbsolute (path : Path) : Bool := path.text.toList.head? == some '/'

def isEmpty (path : Path) : Bool := path.text.isEmpty

/-- The path without its last component. The root and the empty path have none. -/
def parent? (path : Path) : Option Path :=
  let cut := path.cut
  match Cut.trimEnd cut.segments with
  | [] =>
    match cut.lead with
    | .here => some (of "")
    | _ => none
  | segments => some (ofCut ⟨cut.lead, Cut.trimEnd segments.dropLast⟩)

/-- The path and its parents, at most `count` of them, nearest first. -/
def parentChain : Nat → Path → List Path
  | 0, path => [path]
  | count + 1, path =>
    match path.parent? with
    | none => [path]
    | some parent => path :: parentChain count parent

/-- The path and all its parents, nearest first. -/
def ancestors (path : Path) : List Path := parentChain path.components.length path

/-- The last component, if it is a name. -/
def fileName? (path : Path) : Option String :=
  match path.components.getLast? with
  | some (.name text) => some text
  | _ => none

/-- The right path seen from the left one; an absolute right path stands alone. -/
def join (base path : Path) : Path :=
  if path.isAbsolute then path
  else if base.text.isEmpty || base.text.toList.getLast? == some '/' then
    of (base.text ++ path.text)
  else of (base.text ++ "/" ++ path.text)

/-- Drop one segment for each component of `base`, if they agree. -/
def dropComponents : List Component → List String → Option (List String)
  | [], segments => some segments
  | _ :: _, [] => none
  | component :: rest, segment :: segments =>
    if Cut.isIdle segment then dropComponents (component :: rest) segments
    else if Cut.componentOf segment = component then dropComponents rest segments
    else none
termination_by base segments => base.length + segments.length

/-- What follows `base` in `path`, if `path` starts with the components of
`base`. -/
def stripPrefix? (path base : Path) : Option Path :=
  let cut := path.cut
  match base.components with
  | [] => some (ofCut ⟨cut.lead, Cut.trimEnd cut.segments⟩)
  | component :: rest =>
    let wanted :=
      match cut.lead.components with
      | [] => some (component :: rest)
      | lead :: _ => if lead = component then some rest else none
    wanted.bind fun wanted =>
      (dropComponents wanted cut.segments).map fun segments =>
        ofCut ⟨.none, Cut.trimEnd (segments.dropWhile Cut.isIdle)⟩

/-- `path` starts with the components of `base`. -/
def startsWith (path base : Path) : Bool := base.components.isPrefixOf path.components

/-! ## Normal form -/

/-- Add one component to a folded path held in reverse: `.` adds nothing, and
`..` takes back a name, vanishes at the root, and stays where there is nothing
to take back. -/
def foldComponent (folded : List Component) : Component → List Component
  | .here => folded
  | .up =>
    match folded with
    | .name _ :: rest => rest
    | _ => if folded.getLast? = some .root then folded else .up :: folded
  | other => other :: folded

/-- The canonical spelling of a component list. -/
def ofComponents : List Component → Path
  | .root :: rest => of ("/" ++ "/".intercalate (rest.map Component.text))
  | components => of ("/".intercalate (components.map Component.text))

/-- The components of a path with `.` and `..` folded. -/
def folded (path : Path) : List Component :=
  (path.components.foldl foldComponent []).reverse

/-- The path with `.` and `..` folded, spelled canonically; a path that folds
to nothing is `.`. -/
def normalize (path : Path) : Path :=
  match path.folded with
  | [] => of "."
  | components => ofComponents components

/-- A component list in normal form: the single `.`, or no `.` at all and `..`
only at the front of a relative path. -/
def IsNormal (components : List Component) : Prop :=
  components = [.here] ∨
    (∃ names : List Component, (∀ c ∈ names, c.isName = true) ∧ components = .root :: names) ∨
    (∃ ups names : List Component, components = ups ++ names ∧ components ≠ [] ∧
      (∀ c ∈ ups, c = .up) ∧ (∀ c ∈ names, c.isName = true))

end Path

/-- A set of paths in component order, each in one spelling. Adding a path that
is there keeps the spelling. -/
abbrev PathSet := Table Path Unit

namespace PathSet

def add (paths : PathSet) (path : Path) : PathSet := Table.insert paths path ()

/-- The set of the listed paths. Of several spellings of one path the last one
stands. -/
def ofList (paths : List Path) : PathSet :=
  paths.foldr (fun path set => set.add path) Table.empty

/-- Add paths from the first to the last one. -/
def addAll (paths : PathSet) (more : List Path) : PathSet :=
  Table.union paths
    (ofList (more.reverse.mergeSort fun left right => (compare left right).isLE))

end PathSet

end Bundler
