import Bundler.Proofs.Build.ModuleNames
import Bundler.Proofs.Build.ScanRecords

/-!
# What a scan finds

The modules of a scan that did not fail are described by `Scanned`: each is a
file under its identifier, its requests are resolved as the view resolves them,
and the modules that they lead to were scanned too. `scanned_run` proves this for
absolute contexts, by an invariant of the loop in which the queue stands for
what is still to be scanned.
-/

namespace Bundler.Build

/-- The module that a view resolves a request to. -/
def linkOf (view : FileView) (context directory : Path) (request : String) : Option String :=
  match (resolve directory request).answer view with
  | .found path => some (moduleId context path)
  | .notFound _ => none

/-- The directory that the requests of a module start from. -/
def ScannedModule.directory (module : ScannedModule) (context : Path) : Path :=
  module.path.parent?.getD context

/-- A module that is as the view has it. -/
structure ScannedModule.Faithful (view : FileView) (context : Path) (id : String)
    (module : ScannedModule) : Prop where
  canonical : module.path.Canonical
  isFile : view.isFile module.path = true
  id_eq : id = moduleId context module.path
  requests_eq : module.requests = (Source.requests module.source).map fun request =>
    (request, linkOf view context (module.directory context) request)

/-- Modules that are as the view has them, with all that they require. -/
structure Scanned (view : FileView) (context : Path) (modules : Table String ScannedModule) :
    Prop where
  sorted : modules.Sorted
  faithful : ∀ id module, (id, module) ∈ modules.entries → module.Faithful view context id
  closed : ∀ id module, (id, module) ∈ modules.entries → ∀ dependency ∈ module.dependencies,
    ∃ target, (dependency, target) ∈ modules.entries

namespace Scan

variable {view : FileView} {context : Path}

/-- The loop's invariant. -/
structure Linked (view : FileView) (context : Path) (scan : Scan) : Prop where
  sorted : scan.modules.Sorted
  files : ∀ path ∈ scan.queue ++ scan.seen, path.Canonical ∧ view.isFile path = true
  held : ∀ path ∈ scan.seen, ∃ module, (moduleId context path, module) ∈ scan.modules.entries
  faithful : ∀ id module, (id, module) ∈ scan.modules.entries → module.Faithful view context id
  closed : ∀ id module, (id, module) ∈ scan.modules.entries →
    ∀ dependency ∈ module.dependencies,
      ∃ path ∈ scan.queue ++ scan.seen, dependency = moduleId context path

/-- A part of a scan that only queues files. -/
structure Queues (view : FileView) (before after : Scan) : Prop where
  modules : after.modules = before.modules
  seen : after.seen = before.seen
  kept : ∀ path ∈ before.queue, path ∈ after.queue
  files : ∀ path ∈ after.queue, path ∈ before.queue ∨ path.Canonical ∧ view.isFile path = true

theorem Queues.refl (scan : Scan) : Queues view scan scan :=
  ⟨rfl, rfl, fun _ member => member, fun _ member => .inl member⟩

theorem Queues.trans {before middle after : Scan} (first : Queues view before middle)
    (second : Queues view middle after) : Queues view before after where
  modules := second.modules.trans first.modules
  seen := second.seen.trans first.seen
  kept path member := second.kept path (first.kept path member)
  files path member := (second.files path member).elim (first.files path) .inr

/-- What is noted for a request is the module that the view resolves it to. -/
theorem queues_note (view : FileView) (context : Path) {directory : Path}
    (absolute : directory.isAbsolute = true) (shown : Path) (scan : Scan) (request : String) (module : Option String) :
    let noted := scan.note context shown request module ((resolve directory request).answer view)
    noted.1 = linkOf view context directory request ∧ Queues view scan noted.2 ∧
      ∀ id, noted.1 = some id → ∃ path ∈ noted.2.queue, id = moduleId context path := by
  intro noted
  cases answered : (resolve directory request).answer view with
  | found path =>
    have isFile := Resolution.isFile_of_answer_found answered
    have canonical := Resolution.canonical_of_mem_candidates absolute
      (Resolution.mem_candidates_of_answer_found answered)
    have shape : noted = scan.note context shown request module (.found path) := by
      rw [← answered]
    rw [shape, linkOf, answered]
    refine ⟨rfl, ⟨rfl, rfl, fun other member => List.mem_append_left _ member, ?_⟩, ?_⟩
    · intro other member
      rcases List.mem_append.1 member with old | new
      · exact .inl old
      · obtain rfl := List.mem_singleton.1 new
        exact .inr ⟨canonical, isFile⟩
    · intro id same
      exact ⟨path, by simp [note], (Option.some.inj same).symm⟩
  | notFound tried =>
    have shape : noted = scan.note context shown request module (.notFound tried) := by
      rw [← answered]
    rw [shape, linkOf, answered]
    refine ⟨rfl, ⟨rfl, rfl, fun _ member => member, fun _ member => .inl member⟩, ?_⟩
    intro id same
    cases same

theorem queues_resolveEntries (view : FileView) (absolute : context.isAbsolute = true)
    (entries : List (String × String)) (scan : Scan) :
    Queues view scan ((resolveEntries context entries scan).answer view) := by
  induction entries generalizing scan with
  | nil => exact .refl scan
  | cons entry rest ih =>
    obtain ⟨name, request⟩ := entry
    simp only [resolveEntries, Inquiry.answer_bind]
    obtain ⟨-, queues, -⟩ := queues_note view context absolute context scan request none
    refine queues.trans ?_
    generalize scan.note context context request none _ = noted
    obtain ⟨found, noted⟩ := noted
    cases found with
    | none => exact ih noted
    | some id =>
      have later := ih { noted with entries := noted.entries ++ [(name, id)] }
      exact ⟨later.modules, later.seen, later.kept, later.files⟩

theorem queues_resolveRequests (view : FileView) (context : Path) {directory : Path}
    (absolute : directory.isAbsolute = true) (id : String) (requests : List String)
    (resolved : List (String × Option String)) (scan : Scan) :
    let result := (resolveRequests context directory id requests resolved scan).answer view
    result.1 = resolved ++ requests.map (fun request =>
        (request, linkOf view context directory request)) ∧
      Queues view scan result.2 ∧
      ∀ request ∈ requests, ∀ target, linkOf view context directory request = some target →
        ∃ path ∈ result.2.queue, target = moduleId context path := by
  induction requests generalizing resolved scan with
  | nil => exact ⟨by simp [resolveRequests], .refl scan, by simp⟩
  | cons request rest ih =>
    simp only [resolveRequests, Inquiry.answer_bind]
    obtain ⟨found, queues, leads⟩ := queues_note view context absolute directory scan request
      (some id)
    obtain ⟨results, later, others⟩ := ih (resolved ++ [(request,
      (scan.note context directory request (some id) ((resolve directory request).answer view)).1)])
      (scan.note context directory request (some id) ((resolve directory request).answer view)).2
    refine ⟨?_, queues.trans later, fun other member target same => ?_⟩
    · rw [results, found]
      simp
    · rcases List.mem_cons.1 member with rfl | member
      · obtain ⟨path, queued, equal⟩ := leads target (found.trans same)
        exact ⟨path, later.kept path queued, equal⟩
      · exact others other member target same

/-- A queued file was scanned under the same spelling, or waits to be read. -/
theorem Linked.seen_or_waits {scan : Scan} (linked : Linked view context scan) {path : Path}
    (known : path ∈ scan.queue ++ scan.seen) :
    path ∈ scan.seen ∨ path ∈ scan.queue.dropWhile scan.knows := by
  rcases List.mem_append.1 known with queued | visited
  · rcases Scan.seen_or_waits queued with ⟨spelling, visited, same⟩ | waits
    · have equal := (linked.files path known).1.eq_of_components_eq
        (linked.files spelling (List.mem_append_right _ visited)).1 same
      exact .inl (equal ▸ visited)
    · exact .inr waits
  · exact .inl visited

/-- Taking in a file keeps the invariant; the file itself has just been seen. -/
theorem Linked.addFile {scan : Scan} {path : Path} {rest : List Path}
    (linked : Linked view context scan) (absolute : context.isAbsolute = true)
    (next : scan.queue.dropWhile scan.knows = path :: rest) (content : ByteArray) :
    Linked view context
      ((({ scan with seen := path :: scan.seen, queue := rest } : Scan).addFile context path
        content).answer view) := by
  have waiting : ∀ other ∈ path :: rest, other ∈ scan.queue := by
    intro other member
    exact (List.dropWhile_sublist _).subset (next ▸ member)
  have isFile := linked.files path (List.mem_append_left _ (waiting path List.mem_cons_self))
  have directoryAbsolute : (path.parent?.getD context).isAbsolute = true := by
    cases parent : path.parent? with
    | none => exact absolute
    | some above => exact Path.isAbsolute_parent isFile.1.isAbsolute parent
  simp only [Scan.addFile, Inquiry.answer_bind, Inquiry.answer_pure]
  have source : ∀ before : Scan, (before.decodeModule (moduleId context path) content).1 =
      (Text.decode content).text := fun _ => rfl
  obtain ⟨errors, warnings, decoded⟩ := decodeModule_eq
    ({ scan with seen := path :: scan.seen, queue := rest,
                 compilation := scan.compilation.addFile path } : Scan)
    (moduleId context path) content
  rw [decoded, source]
  generalize (Text.decode content).text = source
  obtain ⟨results, queues, leads⟩ := queues_resolveRequests view context directoryAbsolute
    (moduleId context path) (Source.requests source) []
    ({ scan with seen := path :: scan.seen, queue := rest,
                 compilation := { scan.compilation.addFile path with errors, warnings } } : Scan)
  generalize (resolveRequests context (path.parent?.getD context) (moduleId context path)
    (Source.requests source) [] _).answer view = result at results queues leads ⊢
  obtain ⟨requests, after⟩ := result
  obtain ⟨modules, seen, kept, files⟩ := queues
  dsimp only at results modules seen kept files leads ⊢
  have insertion := Table.mem_entries_insert linked.sorted (moduleId context path)
    (⟨path, source, requests⟩ : ScannedModule)
  rw [modules]
  refine ⟨linked.sorted.insert _ _, ?_, ?_, ?_, ?_⟩
  · intro other member
    rw [seen] at member
    rcases List.mem_append.1 member with queued | visited
    · rcases files other queued with old | new
      · exact linked.files other (List.mem_append_left _ (waiting other (List.mem_cons_of_mem _ old)))
      · exact new
    · rcases List.mem_cons.1 visited with rfl | visited
      · exact isFile
      · exact linked.files other (List.mem_append_right _ visited)
  · intro other visited
    rw [seen] at visited
    by_cases same : moduleId context other = moduleId context path
    · exact ⟨_, (insertion _).2 (.inl (Prod.ext same rfl))⟩
    · rcases List.mem_cons.1 visited with rfl | visited
      · exact absurd rfl same
      · obtain ⟨module, held⟩ := linked.held other visited
        exact ⟨module, (insertion _).2 (.inr ⟨held, same⟩)⟩
  · intro id module member
    rcases (insertion _).1 member with new | ⟨old, -⟩
    · obtain ⟨rfl, rfl⟩ := Prod.mk.inj new
      exact ⟨isFile.1, isFile.2, rfl, results⟩
    · exact linked.faithful id module old
  · intro id module member dependency depends
    rcases (insertion _).1 member with new | ⟨old, -⟩
    · obtain ⟨rfl, rfl⟩ := Prod.mk.inj new
      obtain ⟨⟨request, target⟩, inside, same⟩ := List.mem_filterMap.1 depends
      rw [results, List.nil_append] at inside
      obtain ⟨request', asked, shape⟩ := List.mem_map.1 inside
      obtain ⟨rfl, linkTarget⟩ := Prod.mk.inj shape
      obtain ⟨found, queued, equal⟩ := leads request' asked dependency (linkTarget.trans same)
      exact ⟨found, List.mem_append_left _ queued, equal⟩
    · obtain ⟨found, known, equal⟩ := linked.closed id module old dependency depends
      refine ⟨found, ?_, equal⟩
      rw [seen]
      rcases linked.seen_or_waits known with visited | waits
      · exact List.mem_append_right _ (List.mem_cons_of_mem _ visited)
      · rw [next] at waits
        rcases List.mem_cons.1 waits with rfl | later
        · exact List.mem_append_right _ List.mem_cons_self
        · exact List.mem_append_left _ (kept found later)

/-- With nothing left to read, all that is required was scanned. -/
theorem Linked.scanned {scan : Scan} (linked : Linked view context scan)
    (nothing : scan.queue.dropWhile scan.knows = []) : Scanned view context scan.modules where
  sorted := linked.sorted
  faithful := linked.faithful
  closed id module member dependency depends := by
    obtain ⟨path, known, rfl⟩ := linked.closed id module member dependency depends
    rcases linked.seen_or_waits known with visited | waits
    · exact linked.held path visited
    · rw [nothing] at waits
      cases waits

/-- What a scan that did not fail has found. -/
theorem Linked.drain {scan : Scan} (linked : Linked view context scan)
    (absolute : context.isAbsolute = true) (budget : Nat)
    (success : ((drain context budget scan).answer view).failure = none) :
    Scanned view context ((drain context budget scan).answer view).modules := by
  induction budget generalizing scan with
  | zero =>
    cases next : scan.queue.dropWhile scan.knows with
    | nil =>
      rw [drain_of_nil context 0 next]
      exact linked.scanned next
    | cons path rest =>
      unfold Scan.drain at success
      simp [next] at success
  | succ budget ih =>
    cases next : scan.queue.dropWhile scan.knows with
    | nil =>
      rw [drain_of_nil context (budget + 1) next]
      exact linked.scanned next
    | cons path rest =>
      rw [drain_of_cons context budget next] at success ⊢
      simp only [Inquiry.answer] at success ⊢
      cases held : view.read path with
      | error fault => simp [held] at success
      | ok content =>
        simp only [held, Inquiry.answer_bind] at success ⊢
        exact ih (linked.addFile absolute next content) success

theorem scanned_run {options : Options} {budget : Nat} {compilation : Compilation}
    (absolute : options.context.isAbsolute = true)
    (success : ((run options budget compilation).answer view).failure = none) :
    Scanned view options.context ((run options budget compilation).answer view).modules := by
  simp only [run, Inquiry.answer_bind] at success ⊢
  refine Linked.drain ?_ absolute budget success
  have queues := queues_resolveEntries view absolute options.entry.entries { compilation }
  have modules := queues.modules
  have seen := queues.seen
  generalize (resolveEntries options.context options.entry.entries { compilation }).answer view =
    scan at queues modules seen
  refine ⟨?_, fun path member => ?_, fun path visited => ?_, fun id module member => ?_,
    fun id module member => ?_⟩
  · rw [modules]
    exact Table.sorted_empty
  · rw [seen, List.append_nil] at member
    rcases queues.files path member with old | new
    · cases old
    · exact new
  · rw [seen] at visited
    cases visited
  · rw [modules] at member
    cases member
  · rw [modules] at member
    cases member

end Scan

end Bundler.Build
