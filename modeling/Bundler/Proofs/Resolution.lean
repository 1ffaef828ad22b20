import Bundler.Proofs.Path.Parents
import Bundler.Resolution
import Bundler.Storage.Memory

/-!
# First matches

`Resolution.Places` says where a request may lie, by what its first component is: next to its
issuer, by itself, or among the packages of the directories of an `Ascent`, which goes from the
issuer's directory to the top, one parent after the other. `resolve_first_match` says that
resolution takes the first meaning of these places that is a file, and asks about no other path
than the meanings up to it.
-/

namespace Bundler

theorem Cut.head?_segmentsOf (text : List Char) :
    (segmentsOf text).head? = some (text.takeWhile fun c => c != '/') := by
  induction text with
  | nil => rfl
  | cons c rest ih =>
    unfold segmentsOf
    by_cases slash : c = '/'
    · simp [slash]
    · cases segments : segmentsOf rest with
      | nil => exact absurd segments (segmentsOf_ne_nil rest)
      | cons first others =>
        rw [segments] at ih
        simpa [slash] using ih

/-! ## Directories above each other -/

namespace Path

/-- A directory with all those above it, nearest first. -/
inductive Ascent : Path → List Path → Prop where
  | top {directory : Path} (top : directory.parent? = none) : Ascent directory [directory]
  | up {directory parent : Path} {above : List Path} (isParent : directory.parent? = some parent)
      (ascent : Ascent parent above) : Ascent directory (directory :: above)

/-- Every parent is read as one component less, so the chain of parents comes to its top. -/
theorem ascent_parentChain {count : Nat} {path : Path} (enough : path.components.length ≤ count) :
    Ascent path (parentChain count path) := by
  induction count generalizing path with
  | zero =>
    have nothing : path.components = [] := List.length_eq_zero_iff.1 (Nat.le_zero.1 enough)
    exact .top (parent?_eq_none_iff.2 (.inl nothing))
  | succ count ih =>
    rw [parentChain]
    split
    · next top => exact .top top
    · next parent isParent =>
      obtain ⟨last, -, shape⟩ := components_parent isParent
      rw [shape, List.length_append, List.length_singleton] at enough
      exact .up isParent (ih (Nat.le_of_succ_le_succ enough))

theorem ascent_ancestors (path : Path) : Ascent path path.ancestors :=
  ascent_parentChain (Nat.le_refl _)

theorem Ascent.unique {directory : Path} {first second : List Path}
    (left : Ascent directory first) (right : Ascent directory second) : first = second := by
  induction left generalizing second with
  | top top =>
    cases right with
    | top => rfl
    | up isParent => cases top.symm.trans isParent
  | up isParent _ ih =>
    cases right with
    | top top => cases top.symm.trans isParent
    | up other ascent =>
      obtain rfl := Option.some.inj (isParent.symm.trans other)
      rw [ih ascent]

/-- A path is read with a dot or two dots first if its first segment is written so. -/
theorem head?_components_dots (path : Path) :
    (path.components.head? = some .here ∨ path.components.head? = some .up) ↔
      path.text.toList.takeWhile (fun c => c != '/') = ['.'] ∨
        path.text.toList.takeWhile (fun c => c != '/') = ['.', '.'] := by
  have head := Cut.head?_segmentsOf path.text.toList
  rw [components_eq_lead_append, lead, steps]
  cases segments : Cut.segmentsOf path.text.toList with
  | nil => exact absurd segments (Cut.segmentsOf_ne_nil _)
  | cons first rest =>
    rw [segments, List.head?_cons] at head
    rw [← Option.some.inj head, List.map_cons]
    have dot : String.ofList first = "." ↔ first = ['.'] := by
      rw [show "." = String.ofList ['.'] from rfl, String.ofList_inj]
    have dots : String.ofList first = ".." ↔ first = ['.', '.'] := by
      rw [show ".." = String.ofList ['.', '.'] from rfl, String.ofList_inj]
    rw [← dot, ← dots]
    generalize String.ofList first = segment
    by_cases blank : segment = ""
    · by_cases alone : rest = [] <;>
        simp [Cut.leadOf, Lead.components, Cut.stepsOf, Cut.isIdle, blank, alone]
    · by_cases here : segment = "."
      · simp [Cut.leadOf, Lead.components, here]
      · have lead : Cut.leadOf (segment :: rest.map String.ofList) = .none := by
          simp [Cut.leadOf, blank, here]
        have idle : Cut.isIdle segment = false := by simp [Cut.isIdle, blank, here]
        have first : Cut.stepsOf (segment :: rest.map String.ofList) =
            Cut.componentOf segment :: Cut.stepsOf (rest.map String.ofList) := by
          simp [Cut.stepsOf, idle]
        rw [lead, first]
        by_cases up : segment = ".." <;> simp [Lead.components, Cut.componentOf, here, up]

end Path

namespace Resolution

/-! ## Where a request may lie -/

private theorem takeWhile_eq_iff {text segment : List Char} (noSlash : '/' ∉ segment) :
    text.takeWhile (fun c => c != '/') = segment ↔
      text = segment ∨ (segment ++ ['/']).isPrefixOf text = true := by
  rw [List.isPrefixOf_iff_prefix]
  induction segment generalizing text with
  | nil =>
    cases text with
    | nil => simp
    | cons c rest => by_cases slash : c = '/' <;> simp [slash, List.cons_prefix_cons, Ne.symm]
  | cons d segment ih =>
    obtain ⟨apart, others⟩ := List.ne_and_not_mem_of_not_mem_cons noSlash
    cases text with
    | nil => simp
    | cons c rest =>
      by_cases same : c = d
      · obtain rfl := same
        have passes : (c != '/') = true := by simpa using Ne.symm apart
        simp [passes, ih others, List.cons_prefix_cons]
      · by_cases slash : c = '/' <;>
          simp [slash, same, List.cons_prefix_cons, Ne.symm same, apart, apart.symm]

/-- A request starts from its issuer if it is read with a dot or two dots first. -/
theorem isRelative_iff (request : String) : isRelative request = true ↔
    (Path.of request).components.head? = some .here ∨
      (Path.of request).components.head? = some .up := by
  have texts : ∀ other : String, request = other ↔ request.toList = other.toList :=
    fun other => String.toList_inj.symm
  rw [Path.head?_components_dots, takeWhile_eq_iff (by simp), takeWhile_eq_iff (by simp)]
  simp only [isRelative, Bool.or_eq_true, beq_iff_eq, texts, Path.of]
  tauto

/-- The places where a request may lie, in the order in which they are tried. -/
inductive Places (directory : Path) (request : String) : List Path → Prop where
  /-- A request that begins with `.` or `..` starts from the directory. -/
  | beside (dots : (Path.of request).components.head? = some .here ∨
        (Path.of request).components.head? = some .up) :
      Places directory request [(directory.join (.of request)).normalize]
  | absolute (root : (Path.of request).components.head? = some .root) :
      Places directory request [(Path.of request).normalize]
  /-- All others lie among the packages of the directory and of those above it; a directory that
  itself holds packages is passed over. -/
  | packages {above : List Path}
      (named : ∀ component, (Path.of request).components.head? = some component →
        component.isName = true)
      (ascent : directory.Ascent above) :
      Places directory request
        ((above.filter fun place => place.fileName? != some "node_modules").map fun place =>
          ((place.join (.of "node_modules")).join (.of request)).normalize)

theorem Places.unique {directory : Path} {request : String} {first second : List Path}
    (left : Places directory request first) (right : Places directory request second) :
    first = second := by
  cases left with
  | beside dots =>
    cases right with
    | beside => rfl
    | absolute root => rcases dots with here | up <;> simp_all
    | packages named => rcases dots with here | up <;> cases named _ ‹_›
  | absolute root =>
    cases right with
    | beside dots => rcases dots with here | up <;> simp_all
    | absolute => rfl
    | packages named => cases named _ root
  | packages named ascent =>
    cases right with
    | beside dots => rcases dots with here | up <;> cases named _ ‹_›
    | absolute root => cases named _ root
    | packages _ other => rw [ascent.unique other]

/-- The bases that are tried are the places where a request may lie. -/
theorem places_bases (directory : Path) (request : String) :
    Places directory request ((bases directory request).map Path.normalize) := by
  rw [bases]
  split
  · next relative => exact .beside ((isRelative_iff request).1 relative)
  · next notRelative =>
    split
    · next absolute => exact .absolute (Path.isAbsolute_iff_head?.1 absolute)
    · next notAbsolute =>
      have named : ∀ component, (Path.of request).components.head? = some component →
          component.isName = true := by
        intro component first
        rw [isRelative_iff] at notRelative
        rw [Path.isAbsolute_iff_head?] at notAbsolute
        cases component with
        | root => exact absurd first notAbsolute
        | here => exact absurd (.inl first) notRelative
        | up => exact absurd (.inr first) notRelative
        | name text => rfl
      rw [List.map_map]
      exact .packages named (Path.ascent_ancestors directory)

/-- What a place may mean: itself, a script, and the index of a directory. -/
def meanings (place : Path) : List Path :=
  [place, .of (place.text ++ ".js"), place.join (.of "index.js")]

theorem candidates_eq (directory : Path) (request : String) :
    candidates directory request =
      ((bases directory request).map Path.normalize).flatMap meanings := by
  rw [candidates, List.flatMap_map]
  rfl

/-! ## The first file -/

theorem first_eq_found_iff {view : FileView} {listed : List Path} {path : Path} :
    first view listed = .found path ↔
      ∃ before after, listed = before ++ path :: after ∧ view.isFile path = true ∧
        ∀ other ∈ before, view.isFile other = false := by
  have found : first view listed = .found path ↔ listed.find? view.isFile = some path := by
    rw [first]
    split <;> simp [*]
  rw [found, List.find?_eq_some_iff_append]
  simp only [Bool.not_eq_true']
  tauto

theorem first_eq_notFound_iff {view : FileView} {listed tried : List Path} :
    first view listed = .notFound tried ↔
      tried = listed ∧ ∀ path ∈ listed, view.isFile path = false := by
  have none : (∀ path ∈ listed, view.isFile path = false) ↔ listed.find? view.isFile = none := by
    simp
  rw [none, first]
  split <;> simp [*, eq_comm]

/-- The paths up to the first that is a file; all of them if none is. -/
def upToFile (view : FileView) (paths : List Path) : List Path :=
  (paths.takeWhile fun path => !view.isFile path) ++ (paths.find? view.isFile).toList

/-- One path after the other is asked about, up to the first that is a file. -/
theorem questions_probe (view : FileView) (tried paths : List Path) :
    (probe tried paths).questions view = (upToFile view paths).map .isFile := by
  induction paths generalizing tried with
  | nil => rfl
  | cons path rest ih =>
    cases found : view.isFile path with
    | true => simp [probe, Inquiry.questions, upToFile, found]
    | false =>
      have later := ih (path :: tried)
      simpa [probe, Inquiry.questions, upToFile, found] using later

/-- Views that agree on the paths up to the first file resolve alike. -/
theorem answer_resolve_congr {directory : Path} {request : String} {left right : FileView}
    (agree : ∀ path ∈ upToFile left (candidates directory request),
      left.isFile path = right.isFile path) :
    (resolve directory request).answer right = (resolve directory request).answer left := by
  refine Inquiry.answer_congr _ fun question asked => ?_
  rw [resolve, questions_probe] at asked
  obtain ⟨path, member, rfl⟩ := List.mem_map.1 asked
  exact agree path member

/-- A request has its places, base by base, and resolution takes the first of their meanings that
is a file. It fails exactly if none is, and then lists all of them in order. It asks whether a path
is a file, in order and up to the first that is, and about nothing else, so views that agree so far
resolve alike. -/
theorem resolve_first_match (directory : Path) (request : String) :
    ∃ places, Places directory request places ∧
      (∀ others, Places directory request others → others = places) ∧
      ∀ view : FileView,
        (∀ path, (resolve directory request).answer view = .found path ↔
          ∃ before after, places.flatMap meanings = before ++ path :: after ∧
            view.isFile path = true ∧ ∀ other ∈ before, view.isFile other = false) ∧
        (∀ tried, (resolve directory request).answer view = .notFound tried ↔
          tried = places.flatMap meanings ∧
            ∀ path ∈ places.flatMap meanings, view.isFile path = false) ∧
        (resolve directory request).questions view =
          (upToFile view (places.flatMap meanings)).map .isFile ∧
        ∀ other : FileView,
          (∀ path ∈ upToFile view (places.flatMap meanings),
            view.isFile path = other.isFile path) →
          (resolve directory request).answer other = (resolve directory request).answer view := by
  refine ⟨_, places_bases directory request, fun others places => places.unique (places_bases _ _),
    fun view => ?_⟩
  rw [← candidates_eq, answer_resolve]
  refine ⟨fun path => first_eq_found_iff, fun tried => first_eq_notFound_iff,
    questions_probe view [] _, fun other agree => ?_⟩
  rw [answer_resolve_congr agree, answer_resolve]

/-- A package is found above the directory that holds packages, and a script before an index. -/
example :
    let files := (MemoryFiles.empty.addFile (.of "/p/node_modules/m/a.js") ByteArray.empty).addFile
      (.of "/p/node_modules/m/a/index.js") ByteArray.empty
    (resolve (.of "/p/node_modules/./n") "m/./b/../a").answer files.view =
      .found (.of "/p/node_modules/m/a.js") := by
  decide +kernel

end Resolution

end Bundler
