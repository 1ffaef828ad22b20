import Bundler.Proofs.ArtifactCache
import Bundler.Proofs.Build.ChunkClosure
import Bundler.Proofs.Build.EntryAssets
import Bundler.Proofs.Fingerprint.Presentation

/-!
# How much a rebuild renders

A build leaves every module that it has in the cache, under the fingerprint that it had
(`finish_served`). So the next build, if it finds the same requests, takes a module from the cache
exactly if the fingerprint stayed, and `fingerprintOf_eq_iff` says when that is: if hashing does
not collide, when no source was edited among the modules that it leads to. Chunks without an
edited module are then written as before.
-/

namespace Bundler

namespace Build

/-! ## What a build takes from the cache and leaves there -/

/-- A module as a build makes it that has a cache. -/
def servedModule (cache : ArtifactCache) (id : String) (module : ScannedModule)
    (fingerprint : Fingerprint) : Module :=
  ⟨id, module.path, module.dependencies, fingerprint,
    (cache.served id fingerprint).getD (module.render id), (cache.served id fingerprint).isSome⟩

theorem Rendering.add_served (compilation : Compilation) (cache : ArtifactCache) (id : String)
    (module : ScannedModule) (fingerprint : Fingerprint) :
    ∃ after, Rendering.add ⟨compilation, some cache⟩ id module fingerprint =
        ⟨compilation.addModule (servedModule cache id module fingerprint), some after⟩ ∧
      after.Holds id fingerprint (servedModule cache id module fingerprint).artifact ∧
      ∀ other, other ≠ id → after.entries.get? other = cache.entries.get? other := by
  obtain ⟨after, fetched, holds, others⟩ :=
    cache.fetch_eq id (module.render id) fingerprint compilation.id
  refine ⟨after, ?_, holds, others⟩
  simp only [Rendering.add, fetched]
  rfl

/-- Modules with different identifiers are served by the cache as it was at the beginning. -/
theorem foldl_add_served (fingerprints : String → ScannedModule → Fingerprint)
    (entries : List (String × ScannedModule)) (distinct : (entries.map Prod.fst).Nodup)
    (compilation : Compilation) (cache : ArtifactCache) :
    let rendered : Rendering := entries.foldl (fun rendering (id, module) =>
      rendering.add id module (fingerprints id module)) ⟨compilation, some cache⟩
    ∃ after : ArtifactCache, rendered.cache = some after ∧
      (∀ id module, (id, module) ∈ entries →
        rendered.compilation.modules.get? id =
            some (servedModule cache id module (fingerprints id module)) ∧
          after.Holds id (fingerprints id module)
            (servedModule cache id module (fingerprints id module)).artifact) ∧
      ∀ id, id ∉ entries.map Prod.fst →
        rendered.compilation.modules.get? id = compilation.modules.get? id ∧
          after.entries.get? id = cache.entries.get? id := by
  induction entries generalizing compilation cache with
  | nil =>
    refine ⟨cache, rfl, fun _ _ member => ?_, fun _ _ => ⟨rfl, rfl⟩⟩
    cases member
  | cons entry rest ih =>
    obtain ⟨first, module⟩ := entry
    obtain ⟨apart, distinct⟩ := List.nodup_cons.1 distinct
    obtain ⟨next, added, holds, others⟩ :=
      Rendering.add_served compilation cache first module (fingerprints first module)
    obtain ⟨after, kept, served, untouched⟩ := ih distinct
      (compilation.addModule (servedModule cache first module (fingerprints first module))) next
    simp only [List.foldl_cons, added]
    refine ⟨after, kept, fun id scanned member => ?_, fun id absent => ?_⟩
    · rcases List.mem_cons.1 member with same | later
      · obtain ⟨rfl, rfl⟩ := Prod.mk.inj same
        obtain ⟨modules, entries⟩ := untouched id apart
        refine ⟨modules.trans (Table.get?_insert_self ..), holds.of_same entries⟩
      · have different : id ≠ first := by
          rintro rfl
          exact apart (List.mem_map.2 ⟨_, later, rfl⟩)
        have same : servedModule next id scanned (fingerprints id scanned) =
            servedModule cache id scanned (fingerprints id scanned) := by
          simp only [servedModule, ArtifactCache.served, others id different]
        exact same ▸ served id scanned later
    · obtain ⟨different, absent⟩ := not_or.1 (mt List.mem_cons.2 absent)
      obtain ⟨modules, entries⟩ := untouched id absent
      refine ⟨modules.trans (Table.get?_insert_of_ne _ _ ?_), entries.trans (others id different)⟩
      simpa [servedModule] using different

/-- A build with a cache takes from it what is there under the fingerprints of its modules, and
leaves all modules there. -/
theorem finish_served (digest : ByteArray → Fingerprint) (options : Options) (cache : ArtifactCache)
    {scan : Scan} (sorted : scan.modules.Sorted) (success : scan.failure = none) :
    let built := finish digest options (some cache) scan
    ∃ after, built.cache = some after ∧ ∀ id module, (id, module) ∈ scan.modules.entries →
      built.compilation.modules.get? id =
          some (servedModule cache id module (fingerprintOf digest scan.modules id module)) ∧
        after.Holds id (fingerprintOf digest scan.modules id module)
          (servedModule cache id module (fingerprintOf digest scan.modules id module)).artifact := by
  obtain ⟨after, kept, served, -⟩ := foldl_add_served (fingerprintOf digest scan.modules)
    scan.modules.entries sorted.nodup_keys scan.compilation cache
  obtain ⟨modules, -, caches⟩ := finish_eq digest options (some cache) success
  refine ⟨after, caches.trans kept, fun id module held => ?_⟩
  obtain ⟨found, holds⟩ := served id module held
  refine ⟨?_, holds⟩
  rw [modules]
  exact found

/-! ## Edits of sources -/

/-- Tables of modules with the same requests, which lead to the same modules. -/
def SameRequests (first second : Table String ScannedModule) : Prop :=
  (first.map fun _ module => module.requests) = second.map fun _ module => module.requests

/-- A module that has another source in the second table. -/
def Edited (first second : Table String ScannedModule) (id : String) : Prop :=
  ∃ old new, first.get? id = some old ∧ second.get? id = some new ∧ old.source ≠ new.source

section SameRequests

variable {first second : Table String ScannedModule} (same : SameRequests first second)

include same

theorem SameRequests.symm : SameRequests second first := Eq.symm same

theorem SameRequests.exists_twin {id : String} {old : ScannedModule} (held : first.get? id = some old) :
    ∃ new, second.get? id = some new ∧ new.dependencies = old.dependencies := by
  have requests := congrArg (Table.get? · id) same
  simp only [Table.get?_map, held] at requests
  obtain ⟨new, found, equal⟩ := Option.map_eq_some_iff.1 requests.symm
  exact ⟨new, found, congrArg (List.filterMap Prod.snd) equal⟩

theorem SameRequests.dependenciesIn_eq : dependenciesIn first = dependenciesIn second := by
  funext id
  unfold dependenciesIn
  cases held : first.get? id with
  | some old =>
    obtain ⟨new, found, equal⟩ := same.exists_twin held
    rw [found]
    exact equal.symm
  | none =>
    cases found : second.get? id with
    | none => rfl
    | some new =>
      obtain ⟨old, other, -⟩ := same.symm.exists_twin found
      cases held.symm.trans other

theorem SameRequests.reachable_eq (entry : String) : reachable first entry = reachable second entry := by
  have known : first.values.flatMap ScannedModule.dependencies =
      second.values.flatMap ScannedModule.dependencies := by
    have listed : ∀ modules : Table String ScannedModule,
        modules.values.flatMap ScannedModule.dependencies =
          (modules.map fun _ module => module.requests).values.flatMap (List.filterMap Prod.snd) := by
      intro modules
      simp only [Table.values, Table.map, List.flatMap_map]
      rfl
    rw [listed first, listed second, same]
  change (reachFrom (dependenciesIn first) _ _ _).keys = (reachFrom (dependenciesIn second) _ _ _).keys
  rw [same.dependenciesIn_eq, known]

end SameRequests

/-! ## Fingerprints after an edit -/

section Fingerprints

variable {digest : ByteArray → Fingerprint} {modules : Table String ScannedModule}

/-- The node of a scanned module. -/
def nodeOf (digest : ByteArray → Fingerprint) (id : String) (module : ScannedModule) : GraphNode :=
  ⟨id, digest module.source.toUTF8, module.dependencies⟩

theorem ids_graphOf (digest : ByteArray → Fingerprint) (modules : Table String ScannedModule) :
    (graphOf digest modules).nodes.map GraphNode.id = modules.keys := by
  rw [graphOf, List.map_map]
  rfl

theorem dependenciesIn_of_get? {id : String} {module : ScannedModule}
    (held : modules.get? id = some module) : dependenciesIn modules id = module.dependencies := by
  rw [dependenciesIn, held]

variable (sorted : modules.Sorted)

include sorted

theorem mem_nodes_iff {node : GraphNode} : node ∈ (graphOf digest modules).nodes ↔
    ∃ id module, modules.get? id = some module ∧ node = nodeOf digest id module := by
  simp only [mem_nodes_graphOf, sorted.get?_eq_some_iff, nodeOf]

theorem leads_of_reaches {node target : GraphNode}
    (way : Relation.ReflTransGen (graphOf digest modules).Depends node target) :
    Leads (dependenciesIn modules) node.id target.id := by
  induction way with
  | refl => exact .refl
  | tail _ step ih =>
    obtain ⟨isSource, -, depends⟩ := step
    obtain ⟨id, module, held, rfl⟩ := (mem_nodes_iff sorted).1 isSource
    refine ih.tail ?_
    change _ ∈ dependenciesIn modules id
    rwa [dependenciesIn_of_get? held]

theorem reaches_of_leads {id other : String} {module target : ScannedModule}
    (leads : Leads (dependenciesIn modules) id other) (held : modules.get? id = some module)
    (found : modules.get? other = some target) : Relation.ReflTransGen (graphOf digest modules).Depends
      (nodeOf digest id module) (nodeOf digest other target) := by
  induction leads generalizing target with
  | refl =>
    obtain rfl := Option.some.inj (held.symm.trans found)
    exact .refl
  | @tail middle last _ depends ih =>
    cases between : modules.get? middle with
    | none => simp [dependenciesIn, between] at depends
    | some source =>
      rw [dependenciesIn_of_get? between] at depends
      exact (ih between).tail ⟨(mem_nodes_iff sorted).2 ⟨middle, source, between, rfl⟩,
        (mem_nodes_iff sorted).2 ⟨last, target, found, rfl⟩, depends⟩

end Fingerprints

section TwoTables

variable {digest : ByteArray → Fingerprint} {first second : Table String ScannedModule}
  (firstSorted : first.Sorted) (secondSorted : second.Sorted) (same : SameRequests first second)

include firstSorted secondSorted same

theorem sameShape_graphOf (digest : ByteArray → Fingerprint) :
    Graph.SameShape (graphOf digest first) (graphOf digest second) where
  ids id := by
    have keys : first.keys = second.keys := by
      have listed : ∀ modules : Table String ScannedModule,
          modules.keys = (modules.map fun _ module => module.requests).keys := by
        intro modules
        simp only [Table.keys, Table.map, List.map_map]
        rfl
      rw [listed first, listed second, same]
    rw [ids_graphOf, ids_graphOf, keys]
  dependencies node isNode twin isTwin sameId id _ := by
    obtain ⟨own, old, held, rfl⟩ := (mem_nodes_iff firstSorted).1 isNode
    obtain ⟨other, new, found, rfl⟩ := (mem_nodes_iff secondSorted).1 isTwin
    obtain rfl : other = own := sameId
    have equal := congrFun same.dependenciesIn_eq other
    rw [dependenciesIn_of_get? held, dependenciesIn_of_get? found] at equal
    change id ∈ old.dependencies ↔ id ∈ new.dependencies
    rw [equal]

variable {size : Nat} (digestSize : ∀ content, (digest content).bytes.size = size)
  (apart : ∀ left ∈ hashedFor digest first, ∀ right ∈ hashedFor digest second,
    digest left = digest right → left = right)
  {id : String} {old new : ScannedModule} (held : first.get? id = some old)
  (found : second.get? id = some new)

include digestSize apart held found

/-- If hashing does not collide, a module has its fingerprint still if it leads to no edited
source. -/
theorem fingerprintOf_eq_iff : fingerprintOf digest first id old = fingerprintOf digest second id new ↔
    ∀ other, Leads (dependenciesIn first) id other → ¬ Edited first second other := by
  have shape := sameShape_graphOf firstSorted secondSorted same digest
  have firstDistinct := (ids_graphOf digest first).symm ▸ firstSorted.nodup_keys
  have secondDistinct := (ids_graphOf digest second).symm ▸ secondSorted.nodup_keys
  have order := Graph.unitOrder_units (graphOf digest second)
  have sized : ∀ {modules : Table String ScannedModule}, modules.Sorted →
      ∀ node ∈ (graphOf digest modules).nodes, node.content.bytes.size = size := by
    intro modules sorted node isNode
    obtain ⟨_, module, _, rfl⟩ := (mem_nodes_iff sorted).1 isNode
    exact digestSize _
  have isNode := (@mem_nodes_iff digest _ firstSorted _).2 ⟨id, old, held, rfl⟩
  obtain ⟨before, unit, here⟩ :=
    Graph.exists_placed firstDistinct (Graph.unitOrder_units (graphOf digest first)) isNode
  obtain ⟨_, _, there⟩ :=
    Graph.exists_placed secondDistinct order ((mem_nodes_iff secondSorted).2 ⟨id, new, found, rfl⟩)
  -- Both modules have fingerprints in their tables, which are what is compared.
  have look : fingerprintOf digest first id old = fingerprintOf digest second id new ↔
      (Graph.fingerprintsAlong digest (graphOf digest first) (graphOf digest first).units).get? id =
        (Graph.fingerprintsAlong digest (graphOf digest second) (graphOf digest second).units).get? id := by
    have oldFound := here.get?_eq digest
    have newFound := there.get?_eq digest
    simp only [nodeOf] at oldFound newFound
    change ((Graph.fingerprintsAlong digest _ _).get? id).getD _ =
      ((Graph.fingerprintsAlong digest _ _).get? id).getD _ ↔ _
    rw [oldFound, newFound, Option.getD_some, Option.getD_some, Option.some.injEq]
  rw [look]
  constructor
  · rintro equal other leads ⟨oldOther, newOther, oldHeld, newHeld, differ⟩
    have contents := Graph.contentsBelow_eq_of_get?_eq shape secondDistinct order digestSize
      (sized firstSorted) (sized secondSorted) (fun left inLeft right inRight => apart left
        (List.mem_append_right _ inLeft) right (List.mem_append_right _ inRight)) here equal
    have member : (other, digest oldOther.source.toUTF8) ∈ (graphOf digest first).contentsBelow id :=
      ⟨_, ⟨_, isNode, rfl, reaches_of_leads firstSorted leads held oldHeld⟩, rfl⟩
    change (graphOf digest first).contentsBelow id = (graphOf digest second).contentsBelow id at contents
    rw [contents] at member
    obtain ⟨node, below, pair⟩ := member
    obtain ⟨otherId, twin, twinHeld, rfl⟩ := (mem_nodes_iff secondSorted).1 below.mem
    obtain ⟨rfl, sameContent⟩ := Prod.mk.inj pair
    obtain rfl := Option.some.inj (newHeld.symm.trans twinHeld)
    refine differ (toUTF8_inj (apart _ (List.mem_append_left _ ?_) _ (List.mem_append_left _ ?_)
      sameContent))
    · exact List.mem_map.2
        ⟨oldOther, List.mem_map.2 ⟨_, (firstSorted.get?_eq_some_iff ..).1 oldHeld, rfl⟩, rfl⟩
    · exact List.mem_map.2
        ⟨newOther, List.mem_map.2 ⟨_, (secondSorted.get?_eq_some_iff ..).1 newHeld, rfl⟩, rfl⟩
  · intro unedited
    refine Graph.get?_eq_of_agree shape secondDistinct order digest ?_ here ⟨_, isNode, rfl, .refl⟩
    rintro node ⟨start, isStart, sameStart, way⟩ twin isTwin sameId
    obtain ⟨other, oldOther, oldHeld, rfl⟩ := (mem_nodes_iff firstSorted).1 (Graph.Below.mem
      ⟨start, isStart, sameStart, way⟩)
    obtain ⟨_, newOther, newHeld, rfl⟩ := (mem_nodes_iff secondSorted).1 isTwin
    obtain rfl := sameId
    have leads := leads_of_reaches firstSorted way
    rw [sameStart] at leads
    by_contra differ
    refine unedited _ leads ⟨oldOther, newOther, oldHeld, newHeld, fun equal => differ ?_⟩
    exact congrArg (fun source : String => digest source.toUTF8) equal.symm

end TwoTables

/-! ## Assets of chunks -/

theorem get?_emitAsset (compilation : Compilation) (name : String) (content : ByteArray) (file : String) :
    (compilation.emitAsset name content).assets.get? file =
      (compilation.assets.get? file).or (if name = file then some ⟨content, false⟩ else none) := by
  unfold Compilation.emitAsset
  by_cases same : name = file
  · subst same
    cases held : compilation.assets.get? name with
    | none => simp [Table.get?_insert_self]
    | some asset => by_cases equal : asset.content = content <;> simp [equal, held, Compilation.pushError]
  · rw [if_neg same, Option.or_none]
    cases compilation.assets.get? name with
    | none => exact Table.get?_insert_of_ne _ _ (by simpa using Ne.symm same)
    | some asset => by_cases equal : asset.content = content <;> simp [equal, Compilation.pushError]

/-- What is written for a chunk. -/
def chunkContent (modules : Table String Module) (chunk : Chunk) : ByteArray :=
  (Source.renderChunk chunk.entry ⟨chunk.modules.filterMap fun id =>
    (modules.get? id).map fun module => (id, module.artifact)⟩).toUTF8

theorem chunkContent_congr {first second : Table String Module} {chunk : Chunk}
    (agree : ∀ id ∈ chunk.modules,
      (first.get? id).map Module.artifact = (second.get? id).map Module.artifact) :
    chunkContent first chunk = chunkContent second chunk := by
  have artifacts : ∀ id ∈ chunk.modules,
      ((first.get? id).map fun module => (id, module.artifact)) =
        (second.get? id).map fun module => (id, module.artifact) := by
    intro id inside
    have paired : ∀ modules : Table String Module,
        ((modules.get? id).map fun module => (id, module.artifact)) =
          ((modules.get? id).map Module.artifact).map (id, ·) := fun modules =>
      (Option.map_map ..).symm
    rw [paired first, paired second, agree id inside]
  rw [chunkContent, chunkContent, List.filterMap_congr artifacts]

/-- The entry that names a file first. -/
def entryOf? (options : Options) (entries : List (String × String)) (file : String) :
    Option (String × String) :=
  entries.find? fun entry => options.output.filenameFor entry.1 == file

/-- An asset that is there stays, and one that is not is made for the first entry that names it. -/
theorem get?_addEntries (options : Options) (modules : Table String ScannedModule)
    (entries : List (String × String)) (compilation : Compilation) (file : String) :
    (entries.foldl (fun compilation (name, entry) =>
        addEntry options modules compilation name entry) compilation).assets.get? file =
      (compilation.assets.get? file).or ((entryOf? options entries file).map fun entry =>
        ⟨chunkContent compilation.modules (chunkOf options modules entry), false⟩) := by
  induction entries generalizing compilation with
  | nil => simp [entryOf?]
  | cons entry rest ih =>
    obtain ⟨name, id⟩ := entry
    obtain ⟨kept, -⟩ := addEntry_eq options modules compilation name id
    have added : (addEntry options modules compilation name id).assets.get? file =
        (compilation.assets.get? file).or (if options.output.filenameFor name = file then
          some ⟨chunkContent compilation.modules (chunkOf options modules (name, id)), false⟩
          else none) :=
      get?_emitAsset ..
    rw [List.foldl_cons, ih, added, kept, entryOf?, entryOf?, List.find?_cons]
    by_cases named : options.output.filenameFor name = file
    · cases compilation.assets.get? file <;> simp [named]
    · rw [if_neg named, Option.or_none, beq_eq_false_iff_ne.2 named]

/-- The assets of a build that did not fail: those that were there, and one for each entry that names
a new file. -/
theorem get?_assets_finish (digest : ByteArray → Fingerprint) (options : Options)
    (cache : Option ArtifactCache) {scan : Scan} (success : scan.failure = none) (file : String) :
    let built := (finish digest options cache scan).compilation
    built.assets.get? file = (scan.compilation.assets.get? file).or
      ((entryOf? options scan.entries file).map fun entry =>
        ⟨chunkContent built.modules (chunkOf options scan.modules entry), false⟩) := by
  intro built
  obtain ⟨assets, -⟩ := renderAll_assets digest scan.modules ⟨scan.compilation, cache⟩
  rw [(finish_eq digest options cache success).1]
  unfold built finish
  rw [success]
  exact (get?_addEntries options scan.modules scan.entries _ file).trans (by rw [assets])

/-! ## A build after another one -/

/-- All scanned modules are in a cache as they are in a compilation. -/
def Stocked (digest : ByteArray → Fingerprint) (modules : Table String ScannedModule)
    (compilation : Compilation) (cache : ArtifactCache) : Prop :=
  ∀ id module, modules.get? id = some module → ∃ made, compilation.modules.get? id = some made ∧
    cache.Holds id (fingerprintOf digest modules id module) made.artifact

theorem Stocked.retain {digest : ByteArray → Fingerprint} {modules : Table String ScannedModule}
    {compilation : Compilation} {cache : ArtifactCache}
    (stocked : Stocked digest modules compilation cache) :
    Stocked digest modules compilation (cache.retain compilation.moduleIds).2 := by
  intro id module held
  obtain ⟨made, found, holds⟩ := stocked id module held
  refine ⟨made, found, holds.of_same ((cache.get?_retain ..).trans (if_pos ?_))⟩
  obtain ⟨record, children⟩ := compilation
  rw [Compilation.moduleIds, Compilation.tree, List.flatMap_cons]
  refine List.mem_append_left _ ((Table.mem_keys_iff ..).2 ?_)
  rw [Table.contains_eq_isSome_get?]
  exact Option.isSome_of_eq_some found

section After

variable {digest : ByteArray → Fingerprint} {size : Nat}
  (digestSize : ∀ content, (digest content).bytes.size = size) {options : Options}
  {old : Compilation} {first second : Scan} (firstSorted : first.modules.Sorted)
  (secondSorted : second.modules.Sorted) (success : second.failure = none)
  (same : SameRequests first.modules second.modules)
  (apart : ∀ left ∈ hashedFor digest first.modules, ∀ right ∈ hashedFor digest second.modules,
    digest left = digest right → left = right) {cache : ArtifactCache}
  (stocked : Stocked digest first.modules old cache)

include digestSize firstSorted secondSorted success same apart stocked

/-- A build after another one takes from the cache what leads to no edited source, and nothing
else. -/
theorem rebuilt_module (options : Options) {id : String} {module : ScannedModule}
    (found : second.modules.get? id = some module) :
    ∃ before after, old.modules.get? id = some before ∧
      (finish digest options (some cache) second).compilation.modules.get? id = some after ∧
      (after.cached = true ↔ ∀ other, Leads (dependenciesIn second.modules) id other →
        ¬ Edited first.modules second.modules other) ∧
      (after.cached = true → after.artifact = before.artifact) := by
  obtain ⟨_, -, served⟩ := finish_served digest options cache secondSorted success
  obtain ⟨scanned, held, -⟩ := same.symm.exists_twin found
  obtain ⟨made, earlier, holds⟩ := stocked id scanned held
  refine ⟨made, _, earlier, (served id module ((secondSorted.get?_eq_some_iff ..).1 found)).1, ?_, ?_⟩
  · rw [← same.dependenciesIn_eq, ← fingerprintOf_eq_iff firstSorted secondSorted same digestSize apart
      held found]
    simp [servedModule, holds.served_eq]
  · simp only [servedModule, holds.served_eq]
    split <;> simp

/-- A build after another one writes a chunk without edited sources as it was. -/
theorem rebuilt_chunk {entry : String × String}
    (scanned : ∀ id ∈ (chunkOf options second.modules entry).modules,
      (second.modules.get? id).isSome = true)
    (stable : ∀ id ∈ (chunkOf options second.modules entry).modules,
      ¬ Edited first.modules second.modules id) :
    chunkContent old.modules (chunkOf options first.modules entry) =
      chunkContent (finish digest options (some cache) second).compilation.modules
        (chunkOf options second.modules entry) := by
  have chunk : chunkOf options first.modules entry = chunkOf options second.modules entry := by
    rw [chunkOf, chunkOf, same.reachable_eq]
  rw [chunk]
  refine chunkContent_congr fun id inside => ?_
  obtain ⟨module, found⟩ := Option.isSome_iff_exists.1 (scanned id inside)
  obtain ⟨before, after, earlier, later, exact_, kept⟩ := rebuilt_module digestSize firstSorted
    secondSorted success same apart stocked options found
  -- What the module leads to is in the chunk as well.
  have cached : after.cached = true := exact_.2 fun other leads => stable other <|
    (mem_reachable_iff ..).2 (((mem_reachable_iff ..).1 inside).trans leads)
  rw [earlier, later, Option.map_some, Option.map_some, kept cached]

end After

end Build

end Bundler
