import Bundler.Build.Bundle
import Bundler.Proofs.Build.ScanGraph
import Bundler.Proofs.Path.Readback

/-!
# How a scan goes from file to file

What is left of a part of a scan, apart from diagnostics and missing paths, is said by an
equation: entries and requests put what they find at the end of the queue, and a file that is
read becomes a module under its identifier. From these equations `Explored` is kept by the
loop: it says which paths were read so far, what is known of each of them, and that all they
require is read or waits.
-/

namespace Bundler

/-- The file that a request was resolved to. -/
def Resolution.path? : Resolution → Option Path
  | .found path => some path
  | .notFound _ => none

namespace Build

/-- The file that a view shows for a request. -/
def foundBy (view : FileView) (directory : Path) (request : String) : Option Path :=
  ((resolve directory request).answer view).path?

theorem foundBy_eq_some_iff {view : FileView} {directory path : Path} {request : String} :
    foundBy view directory request = some path ↔
      (resolve directory request).answer view = .found path := by
  unfold foundBy
  cases (resolve directory request).answer view <;> simp [Resolution.path?]

/-- What a request finds is a file, written as its components spell it. -/
theorem shape_of_foundBy {view : FileView} {directory path : Path} {request : String}
    (found : foundBy view directory request = some path) :
    view.isFile path = true ∧ ∃ lead steps, Resolution.Shape path lead steps := by
  rw [foundBy_eq_some_iff] at found
  exact ⟨Resolution.isFile_of_answer_found found,
    Resolution.shape_of_mem_candidates (Resolution.mem_candidates_of_answer_found found)⟩

theorem linkOf_eq (view : FileView) (context directory : Path) (request : String) :
    linkOf view context directory request =
      (foundBy view directory request).map (moduleId context) := by
  unfold linkOf foundBy
  cases (resolve directory request).answer view <;> rfl

/-- The directory that the requests of a file start from. -/
def directoryOf (context path : Path) : Path := path.parent?.getD context

/-- The text that a view shows in a file. -/
def textAt (view : FileView) (path : Path) : String :=
  match view.read path with
  | .ok content => (Text.decode content).text
  | .error _ => ""

/-- The files that a file requires, in source order. -/
def requiredBy (view : FileView) (context path : Path) : List Path :=
  (Source.requests (textAt view path)).filterMap (foundBy view (directoryOf context path))

/-- The module that a view shows in a file. -/
def moduleAt (view : FileView) (context path : Path) : ScannedModule where
  path := path
  source := textAt view path
  requests := (Source.requests (textAt view path)).map fun request =>
    (request, linkOf view context (directoryOf context path) request)

theorem dependencies_moduleAt (view : FileView) (context path : Path) :
    (moduleAt view context path).dependencies =
      (requiredBy view context path).map (moduleId context) := by
  simp only [ScannedModule.dependencies, moduleAt, requiredBy, List.filterMap_map,
    List.map_filterMap]
  refine List.filterMap_congr fun request _ => ?_
  exact linkOf_eq view context (directoryOf context path) request

/-- What a build has to read: what its entries lead to, and what is required from there. -/
inductive Needed (view : FileView) (options : Options) : Path → Prop where
  | entry {name request : String} {path : Path}
      (listed : (name, request) ∈ options.entry.entries)
      (found : (resolve options.context request).answer view = .found path) :
      Needed view options path
  | require {issuer path : Path} {content : ByteArray} {request : String}
      (needed : Needed view options issuer) (read : view.read issuer = .ok content)
      (asked : request ∈ Source.requests (Text.decode content).text)
      (found : (resolve (issuer.parent?.getD options.context) request).answer view = .found path) :
      Needed view options path

namespace Scan

variable {view : FileView} {context : Path}

/-! ## The parts of a scan -/

/-- Nothing is changed. -/
theorem eq_with_own (scan : Scan) :
    scan = { scan with compilation := { scan.compilation with
      errors := scan.compilation.errors, missing := scan.compilation.missing } } := by
  obtain ⟨⟨record, children⟩, modules, entries, seen, queue, failure⟩ := scan
  rfl

/-- A request that is resolved puts its file at the end of the queue. -/
theorem note_eq (view : FileView) (context directory shown : Path) (scan : Scan) (request : String)
    (module : Option String) :
    ∃ errors missing,
      scan.note context shown request module ((resolve directory request).answer view) =
        (linkOf view context directory request,
          { scan with
            compilation := { scan.compilation with errors, missing }
            queue := scan.queue ++ (foundBy view directory request).toList }) := by
  unfold linkOf foundBy
  cases (resolve directory request).answer view with
  | found path =>
    refine ⟨scan.compilation.errors, scan.compilation.missing, ?_⟩
    exact congrArg (fun same : Scan => (some (moduleId context path),
      { same with queue := scan.queue ++ [path] })) (eq_with_own scan)
  | notFound tried =>
    refine ⟨scan.compilation.errors ++ [.unresolved request shown module],
      scan.compilation.missing.addAll tried, ?_⟩
    simp only [note, Resolution.path?, Option.toList_none, List.append_nil]
    rfl

theorem resolveEntries_eq (view : FileView) (context : Path) (entries : List (String × String))
    (scan : Scan) :
    ∃ errors missing,
      (resolveEntries context entries scan).answer view =
        { scan with
          compilation := { scan.compilation with errors, missing }
          queue := scan.queue ++ entries.filterMap fun entry => foundBy view context entry.2
          entries := scan.entries ++ entries.filterMap fun entry =>
            (linkOf view context context entry.2).map (entry.1, ·) } := by
  induction entries generalizing scan with
  | nil =>
    refine ⟨scan.compilation.errors, scan.compilation.missing, ?_⟩
    simp only [resolveEntries, Inquiry.answer_done, List.filterMap_nil, List.append_nil]
    exact eq_with_own scan
  | cons entry rest ih =>
    obtain ⟨name, request⟩ := entry
    obtain ⟨errors, missing, noted⟩ := note_eq view context context context scan request none
    simp only [resolveEntries, Inquiry.answer_bind, noted]
    cases link : linkOf view context context request with
    | none =>
      obtain ⟨errors, missing, later⟩ := ih
        { scan with compilation := { scan.compilation with errors, missing },
                    queue := scan.queue ++ (foundBy view context request).toList }
      refine ⟨errors, missing, later.trans ?_⟩
      cases found : foundBy view context request <;> simp [found, link]
    | some id =>
      obtain ⟨errors, missing, later⟩ := ih
        { scan with compilation := { scan.compilation with errors, missing },
                    queue := scan.queue ++ (foundBy view context request).toList,
                    entries := scan.entries ++ [(name, id)] }
      refine ⟨errors, missing, later.trans ?_⟩
      cases found : foundBy view context request <;> simp [found, link]

theorem resolveRequests_eq (view : FileView) (context directory : Path) (id : String)
    (requests : List String) (resolved : List (String × Option String)) (scan : Scan) :
    ∃ errors missing,
      (resolveRequests context directory id requests resolved scan).answer view =
        (resolved ++ requests.map fun request => (request, linkOf view context directory request),
          { scan with
            compilation := { scan.compilation with errors, missing }
            queue := scan.queue ++ requests.filterMap (foundBy view directory) }) := by
  induction requests generalizing resolved scan with
  | nil =>
    refine ⟨scan.compilation.errors, scan.compilation.missing, ?_⟩
    simp only [resolveRequests, Inquiry.answer_done, List.map_nil, List.filterMap_nil, List.append_nil]
    exact congrArg (resolved, ·) (eq_with_own scan)
  | cons request rest ih =>
    obtain ⟨errors, missing, noted⟩ :=
      note_eq view context directory directory scan request (some id)
    simp only [resolveRequests, Inquiry.answer_bind, noted]
    obtain ⟨errors, missing, later⟩ := ih
      (resolved ++ [(request, linkOf view context directory request)])
      { scan with compilation := { scan.compilation with errors, missing },
                  queue := scan.queue ++ (foundBy view directory request).toList }
    refine ⟨errors, missing, later.trans ?_⟩
    cases found : foundBy view directory request <;> simp [found]

/-- A file that is taken in becomes a module, and what it requires waits at the end of the
queue. -/
theorem addFile_eq (context : Path) (scan : Scan) {path : Path} {content : ByteArray}
    (read : view.read path = .ok content) :
    ∃ errors warnings missing,
      (scan.addFile context path content).answer view =
        { scan with
          compilation := { scan.compilation with
            errors, warnings, missing, files := scan.compilation.files.add path }
          queue := scan.queue ++ requiredBy view context path
          modules := scan.modules.insert (moduleId context path) (moduleAt view context path) } := by
  have text : (Text.decode content).text = textAt view path := by
    rw [textAt, read]
  have source : ∀ before : Scan, (before.decodeModule (moduleId context path) content).1 =
      textAt view path := fun _ => text
  obtain ⟨errors, warnings, decoded⟩ := decodeModule_eq
    { scan with compilation := scan.compilation.addFile path } (moduleId context path) content
  simp only [addFile, Inquiry.answer_bind, Inquiry.answer_pure, decoded, source]
  obtain ⟨errors, missing, shape⟩ := resolveRequests_eq view context
    (path.parent?.getD context) (moduleId context path) (Source.requests (textAt view path)) []
    { scan with compilation := { scan.compilation.addFile path with errors, warnings } }
  rw [shape]
  exact ⟨errors, warnings, missing, by rw [List.nil_append]; rfl⟩

/-! ## The loop -/

variable {options : Options} {initial : Compilation}

/-- What is known of a scan under way. Of the paths in `seen` the latest comes first: files and
modules were added from the last one to the first. -/
structure Explored (view : FileView) (options : Options) (initial : Compilation) (scan : Scan) :
    Prop where
  shaped : ∀ path ∈ scan.queue ++ scan.seen, ∃ lead steps, Resolution.Shape path lead steps
  isFile : ∀ path ∈ scan.queue ++ scan.seen, view.isFile path = true
  needed : ∀ path ∈ scan.queue ++ scan.seen, Needed view options path
  distinct : scan.seen.Nodup
  readable : ∀ path ∈ scan.seen, ∃ content, view.read path = .ok content
  entered : ∀ entry ∈ options.entry.entries, ∀ path,
    foundBy view options.context entry.2 = some path → path ∈ scan.queue ++ scan.seen
  followed : ∀ path ∈ scan.seen, ∀ found ∈ requiredBy view options.context path,
    found ∈ scan.queue ++ scan.seen
  outcome : scan.compilation.modules = initial.modules ∧ scan.compilation.chunks = initial.chunks
  files : scan.compilation.files = scan.seen.foldr (fun path files => files.add path) initial.files
  modules : scan.modules = scan.seen.foldr (fun path modules =>
    modules.insert (moduleId options.context path) (moduleAt view options.context path)) Table.empty
  entries : scan.entries = options.entry.entries.filterMap fun entry =>
    (linkOf view options.context options.context entry.2).map (entry.1, ·)

/-- The start of a scan: the files of the entries wait. -/
theorem explored_resolveEntries (view : FileView) (options : Options) (initial : Compilation) :
    Explored view options initial
      ((resolveEntries options.context options.entry.entries { compilation := initial }).answer
        view) := by
  obtain ⟨errors, missing, shape⟩ := resolveEntries_eq view options.context
    options.entry.entries { compilation := initial }
  rw [shape]
  have found : ∀ path ∈ options.entry.entries.filterMap fun entry =>
      foundBy view options.context entry.2,
      ∃ entry ∈ options.entry.entries, foundBy view options.context entry.2 = some path :=
    fun path member => List.mem_filterMap.1 member
  simp only [List.nil_append]
  refine ⟨fun path member => ?_, fun path member => ?_, fun path member => ?_, List.nodup_nil,
    by simp, fun entry listed path same => ?_, by simp, ⟨rfl, rfl⟩, rfl, rfl, rfl⟩
  · obtain ⟨entry, -, same⟩ := found path (by simpa using member)
    exact (shape_of_foundBy same).2
  · obtain ⟨entry, -, same⟩ := found path (by simpa using member)
    exact (shape_of_foundBy same).1
  · obtain ⟨entry, listed, same⟩ := found path (by simpa using member)
    exact .entry listed (foundBy_eq_some_iff.1 same)
  · exact List.mem_append_left _ (List.mem_filterMap.2 ⟨entry, listed, same⟩)

/-- A known path was read, or waits to be read. -/
theorem Explored.seen_or_waits {scan : Scan} (explored : Explored view options initial scan)
    {path : Path} (known : path ∈ scan.queue ++ scan.seen) :
    path ∈ scan.seen ∨ path ∈ scan.queue.dropWhile scan.knows := by
  rcases List.mem_append.1 known with queued | visited
  · rcases Scan.seen_or_waits queued with ⟨spelling, visited, same⟩ | waits
    · obtain ⟨_, _, shape⟩ := explored.shaped path known
      obtain ⟨_, _, other⟩ := explored.shaped spelling (List.mem_append_right _ visited)
      have equal := shape.spelled.eq_of_components_eq other.spelled same
      exact .inl (equal ▸ visited)
    · exact .inr waits
  · exact .inl visited

/-- The next path of a scan has not been read under any spelling. -/
theorem components_ne_of_next {scan : Scan} {path earlier : Path} {rest : List Path}
    (next : scan.queue.dropWhile scan.knows = path :: rest) (visited : earlier ∈ scan.seen) :
    path.components ≠ earlier.components := by
  intro same
  have head := List.head?_dropWhile_not scan.knows scan.queue
  rw [next] at head
  simp only [List.head?_cons, knows, List.any_eq_false] at head
  exact head earlier visited ((Path.same_iff path earlier).2 same)

/-- Reading the next file keeps what is known. -/
theorem Explored.addFile {scan : Scan} {path : Path} {rest : List Path}
    (explored : Explored view options initial scan)
    (next : scan.queue.dropWhile scan.knows = path :: rest) {content : ByteArray}
    (read : view.read path = .ok content) :
    Explored view options initial
      ((({ scan with seen := path :: scan.seen, queue := rest } : Scan).addFile options.context path
        content).answer view) := by
  obtain ⟨errors, warnings, missing, shape⟩ := addFile_eq options.context
    { scan with seen := path :: scan.seen, queue := rest } read
  rw [shape]
  have waiting : ∀ other ∈ path :: rest, other ∈ scan.queue ++ scan.seen := fun other member =>
    List.mem_append_left _ ((List.dropWhile_sublist _).subset (next ▸ member))
  have own := waiting path List.mem_cons_self
  have required : ∀ other ∈ requiredBy view options.context path,
      ∃ request ∈ Source.requests (textAt view path),
        foundBy view (directoryOf options.context path) request = some other :=
    fun other member => List.mem_filterMap.1 member
  -- What is known was known before, or is required by the file that was read.
  have known : ∀ other ∈ (rest ++ requiredBy view options.context path) ++ path :: scan.seen,
      other ∈ scan.queue ++ scan.seen ∨ other ∈ requiredBy view options.context path := by
    intro other member
    simp only [List.mem_append, List.mem_cons] at member
    rcases member with (later | new) | rfl | visited
    · exact .inl (waiting other (List.mem_cons_of_mem _ later))
    · exact .inr new
    · exact .inl own
    · exact .inl (List.mem_append_right _ visited)
  have kept : ∀ other ∈ scan.queue ++ scan.seen,
      other ∈ (rest ++ requiredBy view options.context path) ++ path :: scan.seen := by
    intro other member
    rcases explored.seen_or_waits member with visited | waits
    · simp [visited]
    · rw [next] at waits
      rcases List.mem_cons.1 waits with rfl | later
      · simp
      · simp [later]
  refine ⟨fun other member => ?_, fun other member => ?_, fun other member => ?_,
    List.nodup_cons.2 ⟨fun twice => components_ne_of_next next twice rfl, explored.distinct⟩, fun other member => ?_,
    fun entry listed other same => kept other (explored.entered entry listed other same),
    fun other visited found member => ?_, explored.outcome, ?_, ?_, explored.entries⟩
  · rcases known other member with old | new
    · exact explored.shaped other old
    · obtain ⟨request, -, same⟩ := required other new
      exact (shape_of_foundBy same).2
  · rcases known other member with old | new
    · exact explored.isFile other old
    · obtain ⟨request, -, same⟩ := required other new
      exact (shape_of_foundBy same).1
  · rcases known other member with old | new
    · exact explored.needed other old
    · obtain ⟨request, asked, same⟩ := required other new
      rw [textAt, read] at asked
      exact .require (explored.needed path own) read asked (foundBy_eq_some_iff.1 same)
  · rcases List.mem_cons.1 member with rfl | visited
    · exact ⟨content, read⟩
    · exact explored.readable other visited
  · rcases List.mem_cons.1 visited with rfl | earlier
    · simp [member]
    · exact kept found (explored.followed other earlier found member)
  · dsimp only
    rw [explored.files]
    rfl
  · dsimp only
    rw [explored.modules]
    rfl

/-- With nothing left to read, all that is known was read. -/
theorem Explored.settled {scan : Scan} (explored : Explored view options initial scan)
    (nothing : scan.queue.dropWhile scan.knows = []) :
    Explored view options initial { scan with queue := [] } := by
  have visited : ∀ path ∈ scan.queue ++ scan.seen, path ∈ [] ++ scan.seen := by
    intro path known
    rcases explored.seen_or_waits known with visited | waits
    · exact visited
    · rw [nothing] at waits
      cases waits
  have known : ∀ path ∈ [] ++ scan.seen, path ∈ scan.queue ++ scan.seen := fun path member =>
    List.mem_append_right _ member
  exact
    { shaped := fun path member => explored.shaped path (known path member)
      isFile := fun path member => explored.isFile path (known path member)
      needed := fun path member => explored.needed path (known path member)
      distinct := explored.distinct
      readable := explored.readable
      entered := fun entry listed path same => visited path (explored.entered entry listed path same)
      followed := fun path member found required =>
        visited found (explored.followed path member found required)
      outcome := explored.outcome
      files := explored.files
      modules := explored.modules
      entries := explored.entries }

/-- A scan that did not fail has explored all that it knows. -/
theorem Explored.drain {scan : Scan} (explored : Explored view options initial scan) (budget : Nat)
    (success : ((drain options.context budget scan).answer view).failure = none) :
    Explored view options initial ((drain options.context budget scan).answer view) ∧
      ((drain options.context budget scan).answer view).queue = [] := by
  induction budget generalizing scan with
  | zero =>
    cases next : scan.queue.dropWhile scan.knows with
    | nil =>
      rw [drain_of_nil options.context 0 next]
      exact ⟨explored.settled next, rfl⟩
    | cons path rest =>
      unfold Scan.drain at success
      simp [next] at success
  | succ budget ih =>
    cases next : scan.queue.dropWhile scan.knows with
    | nil =>
      rw [drain_of_nil options.context (budget + 1) next]
      exact ⟨explored.settled next, rfl⟩
    | cons path rest =>
      rw [drain_of_cons options.context budget next, Inquiry.answer] at success ⊢
      cases read : view.read path with
      | error fault => simp [read] at success
      | ok content =>
        simp only [read, Inquiry.answer_bind] at success ⊢
        exact ih (explored.addFile next read) success

theorem Explored.sorted {scan : Scan} (explored : Explored view options initial scan) :
    scan.modules.Sorted := by
  rw [explored.modules]
  exact Table.sorted_empty.foldr_insert _ _ _

/-- Under an identifier a scan holds the latest of the files that have it. -/
theorem Explored.get?_modules {scan : Scan} (explored : Explored view options initial scan)
    (id : String) : scan.modules.get? id =
      (scan.seen.find? fun path => moduleId options.context path == id).map
        (moduleAt view options.context) := by
  rw [explored.modules, Table.get?_foldr_insert, Table.get?_empty, Option.or_none]
  congr 2
  funext path
  rw [Bool.eq_iff_iff, beq_iff_eq, beq_iff_eq, Std.LawfulEqCmp.compare_eq_iff_eq, eq_comm]

/-- What a scan that did not fail has explored. -/
theorem explored_run {budget : Nat}
    (success : ((run options budget initial).answer view).failure = none) :
    Explored view options initial ((run options budget initial).answer view) ∧
      ((run options budget initial).answer view).queue = [] := by
  simp only [run, Inquiry.answer_bind] at success ⊢
  exact (explored_resolveEntries view options initial).drain budget success

end Scan

end Build

end Bundler
