import Bundler.Proofs.Build.BuiltModules
import Bundler.Proofs.Build.CacheTransparency
import Bundler.Proofs.Build.NeededFiles
import Mathlib.Logic.Relation

/-!
# Chunks are closed

The search behind a chunk has budget enough to find all that its entry leads to
(`mem_reachable_iff`). All of it was scanned and became modules of the compilation, and what is
written into an artifact for a request is a dependency of its module. `chunks_closed` puts this
together for builds with a cache that earlier builds of the same files have filled.
-/

namespace Bundler

namespace Build

/-! ## The search for the modules of a chunk -/

section Search

/-- One module leads to another over dependencies. -/
def Leads (dependencies : String → List String) : String → String → Prop :=
  Relation.ReflTransGen fun module dependency => dependency ∈ dependencies module

variable {dependencies : String → List String} {stack : List String} {seen : Table String Unit}

/-- What is led to depends on the dependencies of what is led to only. -/
theorem leads_congr {others : String → List String} {start : String}
    (agree : ∀ id, Leads dependencies start id → dependencies id = others id) (id : String) :
    Leads dependencies start id ↔ Leads others start id := by
  constructor
  · intro leads
    induction leads with
    | refl => exact .refl
    | tail before step ih => exact ih.tail (agree _ before ▸ step)
  · intro leads
    induction leads with
    | refl => exact .refl
    | tail _ step ih => exact ih.tail ((agree _ ih).symm ▸ step)

variable (seen) in
/-- What is on a stack was seen before, or is left when what was seen is dropped. -/
theorem seen_or_left {id : String} (member : id ∈ stack) :
    seen.contains id = true ∨ id ∈ stack.dropWhile seen.contains := by
  rw [← List.takeWhile_append_dropWhile (p := seen.contains) (l := stack)] at member
  rcases List.mem_append.1 member with dropped | left
  · exact .inl (List.mem_takeWhile_imp dropped)
  · exact .inr left

/-- All dependencies of seen modules were seen or wait. -/
def Followed (dependencies : String → List String) (stack : List String) (seen : Table String Unit) :
    Prop :=
  ∀ id, seen.contains id = true → ∀ dependency ∈ dependencies id,
    seen.contains dependency = true ∨ dependency ∈ stack

theorem Followed.leads (followed : Followed dependencies stack seen) {start target : String}
    (known : seen.contains start = true ∨ start ∈ stack) (leads : Leads dependencies start target) :
    seen.contains target = true ∨ ∃ waiting ∈ stack, Leads dependencies waiting target := by
  induction leads using Relation.ReflTransGen.head_induction_on with
  | refl => exact known.imp_right fun waits => ⟨_, waits, .refl⟩
  | head step rest ih =>
    rcases known with visited | waits
    · exact ih (followed _ visited _ step)
    · exact .inr ⟨_, waits, .head step rest⟩

/-- Taking the next module off the stack. -/
theorem Followed.step (followed : Followed dependencies stack seen) {id : String} {rest : List String}
    (next : stack.dropWhile seen.contains = id :: rest) :
    Followed dependencies (dependencies id ++ rest) (seen.insert id ()) := by
  intro module visited dependency depends
  rw [Table.contains_insert, Bool.or_eq_true, beq_iff_eq, Std.LawfulEqCmp.compare_eq_iff_eq] at visited
  rcases visited with rfl | visited
  · exact .inr (List.mem_append_left _ depends)
  · have known : seen.contains dependency = true ∨ dependency ∈ id :: rest := by
      rcases followed module visited dependency depends with before | waits
      · exact .inl before
      · exact next ▸ seen_or_left _ waits
    rcases known with before | waits
    · exact .inl (by rw [Table.contains_insert, before, Bool.or_true])
    · rcases List.mem_cons.1 waits with rfl | later
      · exact .inl (by simp)
      · exact .inr (List.mem_append_right _ later)

/-- With nothing left on the stack all that it leads to was seen. -/
theorem Followed.contains_iff (followed : Followed dependencies stack seen)
    (none : stack.dropWhile seen.contains = []) (id : String) :
    seen.contains id = true ↔
      seen.contains id = true ∨ ∃ start ∈ stack, Leads dependencies start id := by
  have visited : ∀ module ∈ stack, seen.contains module = true := by
    intro module waits
    rcases seen_or_left seen waits with before | left
    · exact before
    · rw [none] at left
      cases left
  have emptied : Followed dependencies [] seen := fun module before dependency depends =>
    .inl ((followed module before dependency depends).elim (fun known => known) (visited _))
  refine ⟨.inl, fun found => found.elim (fun before => before) ?_⟩
  rintro ⟨start, waits, leads⟩
  rcases emptied.leads (.inl (visited start waits)) leads with before | ⟨_, nothing, -⟩
  · exact before
  · cases nothing

theorem notMem_of_next {id : String} {rest : List String}
    (next : stack.dropWhile seen.contains = id :: rest) : seen.contains id = false := by
  have head := List.head?_dropWhile_not seen.contains stack
  rw [next] at head
  simpa using head

/-- The search finds what it has seen and what the stack leads to, if its budget suffices for
all modules that there are. -/
theorem contains_reachFrom {all : List String} (closed : ∀ id, dependencies id ⊆ all)
    {budget : Nat} (inside : stack ⊆ all) (followed : Followed dependencies stack seen)
    (enough : (all.filter fun id => !seen.contains id).length ≤ budget) (id : String) :
    (reachFrom dependencies budget stack seen).contains id = true ↔
      seen.contains id = true ∨ ∃ start ∈ stack, Leads dependencies start id := by
  induction budget generalizing stack seen with
  | zero =>
    unfold reachFrom
    cases next : stack.dropWhile seen.contains with
    | nil => exact followed.contains_iff next id
    | cons first rest =>
      have waits : first ∈ stack := (List.dropWhile_sublist _).subset (next ▸ List.mem_cons_self)
      have unseen : first ∈ all.filter fun id => !seen.contains id :=
        List.mem_filter.2 ⟨inside waits, by simp [notMem_of_next next]⟩
      rw [List.length_eq_zero_iff.1 (Nat.le_zero.1 enough)] at unseen
      cases unseen
  | succ budget ih =>
    unfold reachFrom
    cases next : stack.dropWhile seen.contains with
    | nil => exact followed.contains_iff next id
    | cons first rest =>
      have waits : ∀ module ∈ first :: rest, module ∈ stack := fun module member =>
        (List.dropWhile_sublist _).subset (next ▸ member)
      have insideNext : dependencies first ++ rest ⊆ all := by
        refine List.append_subset.2 ⟨closed first, fun module member => ?_⟩
        exact inside (waits module (List.mem_cons_of_mem _ member))
      have seenNext : ∀ module, (seen.insert first ()).contains module = true ↔
          module = first ∨ seen.contains module = true := by
        intro module
        rw [Table.contains_insert, Bool.or_eq_true, beq_iff_eq, Std.LawfulEqCmp.compare_eq_iff_eq]
      -- The first module is no longer among the unseen ones.
      have fewer : (all.filter fun id => !(seen.insert first ()).contains id).length ≤ budget := by
        have split : (all.filter fun id => !(seen.insert first ()).contains id) =
            (all.filter fun id => !seen.contains id).filter (· ≠ first) := by
          rw [List.filter_filter]
          refine List.filter_congr fun module _ => ?_
          rw [Bool.eq_iff_iff, Bool.not_eq_true', ← Bool.not_eq_true, seenNext]
          simp
        have unseen : first ∈ all.filter fun id => !seen.contains id :=
          List.mem_filter.2 ⟨inside (waits first List.mem_cons_self), by simp [notMem_of_next next]⟩
        have less := List.length_filter_lt_length_iff_exists.2
          (⟨first, unseen, by simp⟩ : ∃ module ∈ all.filter fun id => !seen.contains id,
            ¬ decide (module ≠ first) = true)
        rw [split]
        omega
      dsimp only
      rw [ih insideNext (followed.step next) fewer, seenNext]
      constructor
      · rintro ((rfl | before) | ⟨start, member, leads⟩)
        · exact .inr ⟨id, waits id List.mem_cons_self, .refl⟩
        · exact .inl before
        · rcases List.mem_append.1 member with depends | later
          · exact .inr ⟨first, waits first List.mem_cons_self, .head depends leads⟩
          · exact .inr ⟨start, waits start (List.mem_cons_of_mem _ later), leads⟩
      · rintro (before | ⟨start, member, leads⟩)
        · exact .inl (.inr before)
        · rw [← seenNext]
          refine (followed.step next).leads ?_ leads
          rcases seen_or_left seen member with before | left
          · exact .inl ((seenNext start).2 (.inr before))
          · rw [next] at left
            rcases List.mem_cons.1 left with rfl | later
            · exact .inl ((seenNext start).2 (.inl rfl))
            · exact .inr (List.mem_append_right _ later)

end Search

/-- What scanned modules depend on. -/
def dependenciesIn (modules : Table String ScannedModule) (id : String) : List String :=
  match modules.get? id with
  | some module => module.dependencies
  | none => []

theorem dependenciesIn_subset (modules : Table String ScannedModule) (id : String) :
    dependenciesIn modules id ⊆ modules.values.flatMap ScannedModule.dependencies := by
  intro dependency depends
  unfold dependenciesIn at depends
  split at depends
  · next module found =>
    refine List.mem_flatMap.2 ⟨module, ?_, depends⟩
    exact List.mem_map.2 ⟨(id, module), Table.mem_entries_of_get? found, rfl⟩
  · cases depends

/-- The modules of a chunk are those that its entry leads to. -/
theorem mem_reachable_iff (modules : Table String ScannedModule) (entry id : String) :
    id ∈ reachable modules entry ↔ Leads (dependenciesIn modules) entry id := by
  have found := @contains_reachFrom (dependenciesIn modules) [entry] Table.empty
    (entry :: modules.values.flatMap ScannedModule.dependencies)
    (fun id => List.subset_cons_of_subset _ (dependenciesIn_subset modules id)) ((modules.values.flatMap ScannedModule.dependencies).length + 1) (by simp)
    (fun _ visited => by simp at visited) (List.length_filter_le _ _) id
  change id ∈ (reachFrom (dependenciesIn modules) _ [entry] Table.empty).keys ↔ _
  rw [Table.mem_keys_iff, found]
  simp

/-! ## What is written for a request -/

theorem findSome?_listed {α : Type} (requests : List String) (request : String)
    (link : String → Option α) :
    (requests.findSome? fun other => if other = request then link other else none) =
      if request ∈ requests then link request else none := by
  induction requests with
  | nil => rfl
  | cons first rest ih =>
    rw [List.findSome?_cons, ih]
    by_cases same : first = request
    · subst same
      cases link first <;> simp
    · simp [same, Ne.symm same]

/-- A module as it is read leads each of its requests to where the view resolves it. -/
theorem target?_moduleAt {view : FileView} {context path : Path} {request : String}
    (asked : request ∈ Source.requests (textAt view path)) :
    (moduleAt view context path).target? request =
      linkOf view context (directoryOf context path) request := by
  unfold ScannedModule.target? moduleAt
  dsimp only
  rw [← List.map_reverse, List.findSome?_map]
  refine (findSome?_listed _ request _).trans (if_pos ?_)
  exact List.mem_reverse.2 asked

end Build

namespace Source

/-- Only what is said for the requests of a source matters to it. -/
theorem replaceCalls_congr {source : String} {first second : String → Option String}
    (same : ∀ request ∈ requests source, first request = second request) :
    replaceCalls source first = replaceCalls source second := by
  unfold replaceCalls
  congr 1
  refine List.flatMap_congr fun piece member => ?_
  cases piece with
  | plain c => rfl
  | call text request =>
    dsimp only
    rw [same _ (List.mem_filterMap.2 ⟨_, member, rfl⟩)]

end Source

namespace Build

/-! ## Builds of the same files -/

namespace Scan

variable {view : FileView} {options : Options}

/-- Two scans that have found the same, whatever their compilations. -/
structure SameFinds (left right : Scan) : Prop where
  modules : left.modules = right.modules
  entries : left.entries = right.entries
  seen : left.seen = right.seen
  queue : left.queue = right.queue
  failure : left.failure = right.failure

theorem SameFinds.drain {left right : Scan} (same : SameFinds left right) (context : Path)
    (budget : Nat) :
    SameFinds ((Scan.drain context budget left).answer view)
      ((Scan.drain context budget right).answer view) := by
  induction budget generalizing left right with
  | zero =>
    have waiting : right.queue.dropWhile right.knows = left.queue.dropWhile left.knows := by
      rw [← same.queue]
      unfold knows
      rw [same.seen]
    unfold Scan.drain
    rw [waiting]
    cases left.queue.dropWhile left.knows with
    | nil => exact ⟨same.modules, same.entries, same.seen, rfl, same.failure⟩
    | cons path rest => exact ⟨same.modules, same.entries, same.seen, rfl, rfl⟩
  | succ budget ih =>
    have waiting : right.queue.dropWhile right.knows = left.queue.dropWhile left.knows := by
      rw [← same.queue]
      unfold knows
      rw [same.seen]
    cases next : left.queue.dropWhile left.knows with
    | nil =>
      rw [drain_of_nil context _ next, drain_of_nil context _ (waiting.trans next)]
      exact ⟨same.modules, same.entries, same.seen, rfl, same.failure⟩
    | cons path rest =>
      rw [drain_of_cons context budget next, drain_of_cons context budget (waiting.trans next),
        Inquiry.answer, Inquiry.answer]
      cases read : view.read path with
      | error fault =>
        exact ⟨same.modules, same.entries, congrArg (path :: ·) same.seen, rfl, rfl⟩
      | ok content =>
        simp only [Inquiry.answer_bind]
        obtain ⟨_, _, _, leftShape⟩ := addFile_eq context
          { left with seen := path :: left.seen, queue := rest } read
        obtain ⟨_, _, _, rightShape⟩ := addFile_eq context
          { right with seen := path :: right.seen, queue := rest } read
        rw [leftShape, rightShape]
        refine ih ⟨?_, same.entries, congrArg (path :: ·) same.seen, rfl, same.failure⟩
        exact congrArg (Table.insert · _ _) same.modules

/-- Scans of the same files find the same modules, if they do not fail. -/
theorem modules_run_eq {budget other : Nat} {initial before : Compilation}
    (success : ((run options budget initial).answer view).failure = none)
    (succeeds : ((run options other before).answer view).failure = none) :
    ((run options budget initial).answer view).modules =
      ((run options other before).answer view).modules := by
  simp only [run, Inquiry.answer_bind] at success succeeds ⊢
  obtain ⟨_, _, leftShape⟩ := resolveEntries_eq view options.context options.entry.entries
    { compilation := initial }
  obtain ⟨_, _, rightShape⟩ := resolveEntries_eq view options.context options.entry.entries
    { compilation := before }
  have same : SameFinds
      ((resolveEntries options.context options.entry.entries { compilation := initial }).answer view)
      ((resolveEntries options.context options.entry.entries { compilation := before }).answer view) := by
    rw [leftShape, rightShape]
    exact ⟨rfl, rfl, rfl, rfl, rfl⟩
  rw [← answer_drain_of_le (Nat.le_max_left budget other) _ (by rw [success]; simp),
    ← answer_drain_of_le (Nat.le_max_right budget other) _ (by rw [succeeds]; simp)]
  exact (same.drain options.context (max budget other)).modules

end Scan

/-- The artifact of an identifier is that of the module scanned under it. -/
def Rendered (modules : Table String ScannedModule) (id artifact : String) : Prop :=
  ∃ module, (id, module) ∈ modules.entries ∧ artifact = module.render id

/-- A cache that only builds of the same files have filled serves what they render. -/
theorem serves_cacheAfter (digest : ByteArray → Fingerprint) {view : FileView} {options : Options}
    {modules : Table String ScannedModule}
    (scanned : ∀ budget initial, ((Scan.run options budget initial).answer view).failure = none →
      ((Scan.run options budget initial).answer view).modules = modules)
    {earlier : List CacheUse}
    (sameState : ∀ call ∈ callsOf earlier, call.view = view ∧ call.options = options) :
    (cacheAfter digest earlier).Serves (Rendered modules) := by
  induction earlier using List.reverseRecOn with
  | nil =>
    intro id entry member
    cases member
  | append_singleton before use ih =>
    rw [callsOf, List.filterMap_append] at sameState
    have serves := ih fun call member => sameState call (List.mem_append_left _ member)
    rw [cacheAfter, List.foldl_append, List.foldl_cons, List.foldl_nil]
    change (CacheUse.apply digest (cacheAfter digest before) use).Serves _
    cases use with
    | retain ids => exact serves.of_subset fun _ member => (List.mem_filter.1 member).1
    | clear =>
      intro id entry member
      cases member
    | build call =>
      obtain ⟨view, options, budget, compilation⟩ := call
      obtain ⟨rfl, rfl⟩ := sameState _ (List.mem_append_right _ List.mem_cons_self)
      simp only [CacheUse.apply, BuildCall.result_eq]
      cases failed : BuildCall.scan ⟨view, options, budget, compilation⟩ |>.failure with
      | some failure =>
        unfold finish
        rw [failed]
        exact serves
      | none =>
        have same := scanned budget compilation failed
        obtain ⟨-, -, -, -, kept⟩ := @renderAll_eq (Rendered modules) digest modules
          (fun id module held => ⟨module, held, rfl⟩)
          ⟨(BuildCall.scan ⟨view, options, budget, compilation⟩).compilation,
            some (cacheAfter digest before)⟩ fun cache own => Option.some.inj own ▸ serves
        rw [(finish_eq digest options _ failed).2.2]
        change ((renderAll digest ((Scan.run options budget compilation).answer view).modules _).cache.getD
          _).Serves _
        rw [same]
        cases after : (renderAll digest modules ⟨(BuildCall.scan
            ⟨view, options, budget, compilation⟩).compilation,
            some (cacheAfter digest before)⟩).cache with
        | none => exact serves
        | some cache => exact kept cache after

/-! ## Closed chunks -/

namespace Scan.Explored

variable {view : FileView} {options : Options} {initial : Compilation} {scan : Scan}

/-- What was scanned under an identifier is a file of that identifier, as the view shows it. -/
theorem exists_path (explored : Explored view options initial scan) {id : String}
    {module : ScannedModule} (held : scan.modules.get? id = some module) :
    ∃ path ∈ scan.seen, moduleId options.context path = id ∧
      module = moduleAt view options.context path := by
  rw [explored.get?_modules, Option.map_eq_some_iff] at held
  obtain ⟨path, search, rfl⟩ := held
  have same := List.find?_some search
  exact ⟨path, List.mem_of_find?_eq_some search, beq_iff_eq.1 same, rfl⟩

theorem isSome_of_seen (explored : Explored view options initial scan) {path : Path}
    (visited : path ∈ scan.seen) :
    (scan.modules.get? (moduleId options.context path)).isSome = true := by
  rw [explored.get?_modules, Option.isSome_map, List.find?_isSome]
  exact ⟨path, visited, beq_self_eq_true _⟩

/-- A request of a scanned module that is resolved leads to a scanned module. -/
theorem isSome_of_link (explored : Explored view options initial scan) (nothing : scan.queue = [])
    {path : Path} (visited : path ∈ scan.seen) {request : String}
    (asked : request ∈ Source.requests (textAt view path)) {target : String}
    (link : linkOf view options.context (directoryOf options.context path) request = some target) :
    (scan.modules.get? target).isSome = true := by
  rw [linkOf_eq, Option.map_eq_some_iff] at link
  obtain ⟨found, resolved, rfl⟩ := link
  have required : found ∈ requiredBy view options.context path :=
    List.mem_filterMap.2 ⟨request, asked, resolved⟩
  have known := explored.followed path visited found required
  rw [nothing] at known
  exact explored.isSome_of_seen known

/-- All that an entry leads to was scanned. -/
theorem isSome_of_leads (explored : Explored view options initial scan) (nothing : scan.queue = [])
    {entry : String × String} (listed : entry ∈ scan.entries) {id : String}
    (leads : Leads (dependenciesIn scan.modules) entry.2 id) :
    (scan.modules.get? id).isSome = true := by
  induction leads with
  | refl =>
    rw [explored.entries] at listed
    obtain ⟨source, isEntry, shape⟩ := List.mem_filterMap.1 listed
    obtain ⟨target, link, rfl⟩ := Option.map_eq_some_iff.1 shape
    rw [linkOf_eq, Option.map_eq_some_iff] at link
    obtain ⟨found, resolved, rfl⟩ := link
    have known := explored.entered source isEntry found resolved
    rw [nothing] at known
    exact explored.isSome_of_seen known
  | @tail module dependency _ depends _ =>
    unfold dependenciesIn at depends
    cases held : scan.modules.get? module with
    | none => simp [held] at depends
    | some scanned =>
      obtain ⟨path, visited, -, rfl⟩ := explored.exists_path held
      simp only [held, ScannedModule.dependencies, moduleAt, List.mem_filterMap, List.mem_map] at depends
      obtain ⟨_, ⟨request, asked, rfl⟩, link⟩ := depends
      exact explored.isSome_of_link nothing visited asked link

end Scan.Explored

/-- What the modules of a compilation depend on. -/
def dependenciesOf (compilation : Compilation) (id : String) : List String :=
  match compilation.modules.get? id with
  | some module => module.dependencies
  | none => []

/-- A build that did not fail, without a cache or with one that only builds of the same files and
options have filled, adds a chunk for every entry that was resolved. The modules of a chunk are
what its entry leads to over the dependencies of the compilation's modules; each is a module of
the compilation, rendered from its file with every resolved request naming its target; and these
targets are in the same chunk. -/
theorem chunks_closed {digest : ByteArray → Fingerprint} {view : FileView} {options : Options}
    {budget : Nat} {cache : Option ArtifactCache} {compilation : Compilation}
    (filled : ∀ held, cache = some held → ∃ earlier : List CacheUse,
      (∀ call ∈ callsOf earlier, call.view = view ∧ call.options = options) ∧
        held = cacheAfter digest earlier)
    (success : ((buildBundles digest options budget cache compilation).answer view).failure = none) :
    let built := ((buildBundles digest options budget cache compilation).answer view).compilation
    ∃ chunks, built.chunks = compilation.chunks ++ chunks ∧
      (chunks.map fun chunk => (chunk.name, chunk.entry)) = options.entry.entries.filterMap
        (fun entry => (linkOf view options.context options.context entry.2).map (entry.1, ·)) ∧
      ∀ chunk ∈ chunks,
        (∀ id, id ∈ chunk.modules ↔ Leads (dependenciesOf built) chunk.entry id) ∧
        ∀ id ∈ chunk.modules, ∃ module content, built.modules.get? id = some module ∧
          view.read module.path = .ok content ∧
          let source := (Text.decode content).text
          let link := linkOf view options.context (directoryOf options.context module.path)
          module.artifact = Source.renderModule id (Source.replaceCalls source fun request =>
              (link request).map Source.requireCall) ∧
            ∀ request ∈ Source.requests source, ∀ target, link request = some target →
              target ∈ chunk.modules := by
  simp only [buildBundles, Inquiry.answer_bind, Inquiry.answer_pure, failure_finish] at success ⊢
  obtain ⟨explored, nothing⟩ := Scan.explored_run success
  have scanned : ∀ other before,
      ((Scan.run options other before).answer view).failure = none →
      ((Scan.run options other before).answer view).modules =
        ((Scan.run options budget compilation).answer view).modules :=
    fun other before succeeds => Scan.modules_run_eq succeeds success
  have serves : ∀ held, cache = some held →
      held.Serves (Rendered ((Scan.run options budget compilation).answer view).modules) := by
    intro held own
    obtain ⟨earlier, sameState, rfl⟩ := filled held own
    exact serves_cacheAfter digest scanned sameState
  generalize (Scan.run options budget compilation).answer view = scan
    at success explored nothing serves ⊢
  have rendered := @get?_renderAll (Rendered scan.modules) digest _ explored.sorted
    (fun id module held => ⟨module, held, rfl⟩) ⟨scan.compilation, cache⟩ serves
  obtain ⟨modules, chunks, -⟩ := finish_eq digest options cache success
  rw [← modules] at rendered
  generalize (finish digest options cache scan).compilation = built at rendered chunks ⊢
  rw [explored.outcome.2] at chunks
  refine ⟨_, chunks, ?_, ?_⟩
  · rw [List.map_map, ← explored.entries]
    exact List.map_id _
  intro chunk member
  obtain ⟨entry, listed, rfl⟩ := List.mem_map.1 member
  -- Whatever the entry leads to was scanned, and became a module with the same dependencies.
  have made : ∀ id, Leads (dependenciesIn scan.modules) entry.2 id →
      ∃ scanned module, scan.modules.get? id = some scanned ∧ built.modules.get? id = some module ∧
        MadeOf (Rendered scan.modules) (id, scanned) module := by
    intro id leads
    obtain ⟨scanned, held⟩ := Option.isSome_iff_exists.1 (explored.isSome_of_leads nothing listed leads)
    obtain ⟨module, isMade, found⟩ := (rendered id).1 scanned held
    exact ⟨scanned, module, held, found, isMade⟩
  refine ⟨fun id => ?_, fun id inside => ?_⟩
  · refine (mem_reachable_iff scan.modules entry.2 id).trans (leads_congr (fun other leads => ?_) id)
    obtain ⟨scanned, module, held, found, isMade⟩ := made other leads
    unfold dependenciesIn dependenciesOf
    rw [held, found]
    exact isMade.dependencies.symm
  · have leads := (mem_reachable_iff scan.modules entry.2 id).1 inside
    obtain ⟨scanned, module, held, found, isMade⟩ := made id leads
    obtain ⟨path, visited, same, rfl⟩ := explored.exists_path held
    obtain ⟨content, read⟩ := explored.readable path visited
    obtain ⟨other, otherHeld, artifact⟩ := isMade.artifact
    obtain rfl := Option.some.inj
      (((explored.sorted.get?_eq_some_iff id other).2 otherHeld).symm.trans held)
    have resource : module.path = path := isMade.path
    have text : (Text.decode content).text = textAt view path := by
      rw [textAt, read]
    refine ⟨module, content, found, resource ▸ read, ?_⟩
    rw [resource, text]
    refine ⟨?_, fun request asked target link => ?_⟩
    · rw [artifact, ScannedModule.render]
      refine congrArg (Source.renderModule id) (Source.replaceCalls_congr fun request asked => ?_)
      rw [target?_moduleAt asked]
    · refine (mem_reachable_iff scan.modules entry.2 target).2 (leads.tail ?_)
      unfold dependenciesIn
      rw [held]
      refine List.mem_filterMap.2 ⟨(request, some target), ?_, rfl⟩
      exact List.mem_map.2 ⟨request, asked, by rw [link]⟩

/-- A build of two files that require each other, into a compilation with the number `id`. -/
def cycleCall (id : Nat) : BuildCall := ⟨.holding cycleFiles, cycleOptions, 2, { id }⟩

/-- A second build of a cycle, with the cache that the first one has filled. -/
theorem cycle_closed :
    let warm := (cycleCall 2).result Fingerprint.of
      (some (cacheAfter Fingerprint.of [.build (cycleCall 1)]))
    warm.failure = none ∧
      (warm.compilation.chunks.map fun chunk => (chunk.name, chunk.entry)) = [("main", "./a.js")] ∧
      ∀ chunk ∈ warm.compilation.chunks, ∀ id, id ∈ chunk.modules ↔
        Leads (dependenciesOf warm.compilation) chunk.entry id := by
  intro warm
  have success : warm.failure = none := by decide +kernel
  obtain ⟨chunks, added, names, closed⟩ := @chunks_closed Fingerprint.of (.holding cycleFiles)
    cycleOptions 2 _ { id := 2 }
    (fun held same => ⟨[.build (cycleCall 1)], by simp [callsOf, CacheUse.call?, cycleCall],
      (Option.some.inj same).symm⟩) success
  change warm.compilation.chunks = [] ++ chunks at added
  rw [added]
  refine ⟨success, names.trans (by decide +kernel), fun chunk member => (closed chunk member).1⟩

end Build

end Bundler
