import Bundler.Build.Bundle
import Bundler.Proofs.Table

/-!
# What a build makes of its scan

Every scanned module becomes a module of the compilation, whose artifact was rendered or comes
from the cache; every entry adds one chunk. Of artifacts no more is said here than that they
have a property which the rendered ones and those in the cache have (`ArtifactCache.Serves`).
-/

namespace Bundler

/-- All artifacts of a cache have a property that may depend on their identifier. -/
def ArtifactCache.Serves (cache : ArtifactCache) (good : String → String → Prop) : Prop :=
  ∀ id entry, (id, entry) ∈ cache.entries.entries → good id entry.artifact

namespace ArtifactCache.Serves

variable {cache : ArtifactCache} {good : String → String → Prop}

theorem of_subset {smaller : ArtifactCache} (serves : cache.Serves good)
    (subset : ∀ entry ∈ smaller.entries.entries, entry ∈ cache.entries.entries) :
    smaller.Serves good :=
  fun id entry member => serves id entry (subset (id, entry) member)

theorem get (serves : cache.Serves good) (id : String) (fingerprint : Fingerprint) :
    (cache.get id fingerprint).2.Serves good ∧
      ∀ artifact, (cache.get id fingerprint).1 = some artifact → good id artifact := by
  unfold ArtifactCache.get
  cases found : cache.entries.get? id with
  | none => exact ⟨serves, fun _ answer => by cases answer⟩
  | some entry =>
    by_cases same : entry.fingerprint = fingerprint
    · simp only [same, if_true]
      refine ⟨serves, fun artifact answer => ?_⟩
      rw [← Option.some.inj answer]
      exact serves id entry (Table.mem_entries_of_get? found)
    · simp only [same, if_false]
      refine ⟨serves.of_subset fun _ member => (List.mem_filter.1 member).1, ?_⟩
      rintro artifact answer
      cases answer

theorem store (serves : cache.Serves good) {id : String} {entry : CachedArtifact}
    (made : good id entry.artifact) : (cache.store id entry).Serves good := by
  intro other held member
  rcases Table.mem_entries_of_mem_insert member with new | old
  · obtain ⟨rfl, rfl⟩ := Prod.mk.inj new
    exact made
  · exact serves other held old

/-- What is read through a cache is good if what would be made is. -/
theorem fetch (serves : cache.Serves good) {id text : String} (made : good id text)
    (fingerprint : Fingerprint) (storedIn : Nat) :
    ∃ artifact hit after, cache.fetch id fingerprint storedIn
        (fun _ => (.ok text : Except Empty String)) = (.ok ⟨artifact, hit⟩, after) ∧
      good id artifact ∧ after.Serves good := by
  obtain ⟨kept, hits⟩ := serves.get id fingerprint
  unfold ArtifactCache.fetch
  cases answer : cache.get id fingerprint with
  | mk artifact after =>
    rw [answer] at kept hits
    cases artifact with
    | none => exact ⟨text, false, _, rfl, made, kept.store made⟩
    | some artifact => exact ⟨artifact, true, after, rfl, hits artifact rfl, kept⟩

end ArtifactCache.Serves

namespace Build

variable {good : String → String → Prop}

/-- A module that was made of a scanned one. -/
structure MadeOf (good : String → String → Prop) (entry : String × ScannedModule)
    (module : Module) : Prop where
  id : module.id = entry.1
  path : module.path = entry.2.path
  dependencies : module.dependencies = entry.2.dependencies
  artifact : good entry.1 module.artifact

/-- One scanned module is added to the compilation. -/
theorem Rendering.add_eq (rendering : Rendering)
    (serves : ∀ cache, rendering.cache = some cache → cache.Serves good) (id : String)
    {module : ScannedModule} (made : good id (module.render id)) (fingerprint : Fingerprint) :
    ∃ added, MadeOf good (id, module) added ∧
      (rendering.add id module fingerprint).compilation = rendering.compilation.addModule added ∧
      ∀ cache, (rendering.add id module fingerprint).cache = some cache → cache.Serves good := by
  obtain ⟨compilation, cache⟩ := rendering
  cases cache with
  | none => exact ⟨_, ⟨rfl, rfl, rfl, made⟩, rfl, fun _ same => by cases same⟩
  | some cache =>
    obtain ⟨artifact, hit, after, fetched, isGood, kept⟩ :=
      (serves cache rfl).fetch made fingerprint compilation.id
    simp only [Rendering.add, fetched]
    refine ⟨_, ⟨rfl, rfl, rfl, isGood⟩, rfl, fun cache same => ?_⟩
    obtain rfl := Option.some.inj same
    exact kept

/-- For every scanned module one is added to the compilation, and nothing else. -/
theorem renderAll_eq (digest : ByteArray → Fingerprint) {modules : Table String ScannedModule}
    (made : ∀ id module, (id, module) ∈ modules.entries → good id (module.render id))
    (rendering : Rendering)
    (serves : ∀ cache, rendering.cache = some cache → cache.Serves good) :
    ∃ added : List Module,
      (∀ entry ∈ modules.entries, ∃ module ∈ added, MadeOf good entry module) ∧
      (∀ module ∈ added, ∃ entry ∈ modules.entries, MadeOf good entry module) ∧
      (renderAll digest modules rendering).compilation =
        added.foldl Compilation.addModule rendering.compilation ∧
      ∀ cache, (renderAll digest modules rendering).cache = some cache → cache.Serves good := by
  unfold renderAll
  dsimp only
  generalize (graphOf digest modules).fingerprints digest = fingerprints
  obtain ⟨entries⟩ := modules
  dsimp only at made ⊢
  induction entries generalizing rendering with
  | nil => exact ⟨[], by simp, by simp, rfl, serves⟩
  | cons entry rest ih =>
    obtain ⟨id, scanned⟩ := entry
    obtain ⟨first, isFirst, compilation, kept⟩ := rendering.add_eq serves id
      (made id scanned List.mem_cons_self)
      ((fingerprints.get? id).getD (digest scanned.source.toUTF8))
    obtain ⟨added, all, only, shape, later⟩ := ih _ kept
      fun other module member => made other module (List.mem_cons_of_mem _ member)
    rw [compilation] at shape
    refine ⟨first :: added, fun entry member => ?_, fun module member => ?_, shape, later⟩
    · rcases List.mem_cons.1 member with rfl | member
      · exact ⟨first, List.mem_cons_self, isFirst⟩
      · obtain ⟨module, inside, isMade⟩ := all entry member
        exact ⟨module, List.mem_cons_of_mem _ inside, isMade⟩
    · rcases List.mem_cons.1 member with rfl | member
      · exact ⟨(id, scanned), List.mem_cons_self, isFirst⟩
      · obtain ⟨entry, inside, isMade⟩ := only module member
        exact ⟨entry, List.mem_cons_of_mem _ inside, isMade⟩

/-- The modules of a compilation after others were added. -/
theorem modules_foldl_addModule (added : List Module) (compilation : Compilation) :
    (added.foldl Compilation.addModule compilation).modules =
        added.reverse.foldr (fun module modules => modules.insert module.id module)
          compilation.modules ∧
      (added.foldl Compilation.addModule compilation).chunks = compilation.chunks := by
  induction added generalizing compilation with
  | nil => exact ⟨rfl, rfl⟩
  | cons module rest ih =>
    obtain ⟨modules, chunks⟩ := ih (compilation.addModule module)
    refine ⟨modules.trans ?_, chunks⟩
    rw [List.reverse_cons, List.foldr_append]
    rfl

/-- The modules of a compilation after rendering: those of the scan, and under other identifiers
those that it had. -/
theorem get?_renderAll (digest : ByteArray → Fingerprint) {modules : Table String ScannedModule}
    (sorted : modules.Sorted)
    (made : ∀ id module, (id, module) ∈ modules.entries → good id (module.render id))
    (rendering : Rendering)
    (serves : ∀ cache, rendering.cache = some cache → cache.Serves good) (id : String) :
    (∀ scanned, modules.get? id = some scanned → ∃ module, MadeOf good (id, scanned) module ∧
      (renderAll digest modules rendering).compilation.modules.get? id = some module) ∧
    (modules.get? id = none → (renderAll digest modules rendering).compilation.modules.get? id =
      rendering.compilation.modules.get? id) := by
  obtain ⟨added, all, only, shape, -⟩ := renderAll_eq digest made rendering serves
  rw [shape, (modules_foldl_addModule _ _).1, Table.get?_foldr_insert]
  simp only [Option.map_id']
  -- A module that was added under an identifier was made of the one scanned under it.
  have found : ∀ module, (added.reverse.find? fun other => compare id other.id == .eq) =
      some module → ∃ scanned, modules.get? id = some scanned ∧ MadeOf good (id, scanned) module := by
    intro module search
    obtain ⟨⟨other, scanned⟩, held, isMade⟩ :=
      only module (List.mem_reverse.1 (List.mem_of_find?_eq_some search))
    have same : id = module.id := by simpa using List.find?_some search
    obtain rfl : id = other := same.trans isMade.id
    exact ⟨scanned, (sorted.get?_eq_some_iff id scanned).2 held, isMade⟩
  constructor
  · intro scanned held
    cases search : added.reverse.find? fun other => compare id other.id == .eq with
    | none =>
      obtain ⟨module, inside, isMade⟩ := all _ ((sorted.get?_eq_some_iff id scanned).1 held)
      have apart := List.find?_eq_none.1 search module (List.mem_reverse.2 inside)
      rw [isMade.id] at apart
      simp at apart
    | some module =>
      obtain ⟨other, otherHeld, isMade⟩ := found module search
      obtain rfl := Option.some.inj (otherHeld.symm.trans held)
      exact ⟨module, isMade, rfl⟩
  · intro absent
    cases search : added.reverse.find? fun other => compare id other.id == .eq with
    | none => rfl
    | some module =>
      obtain ⟨scanned, held, -⟩ := found module search
      cases absent.symm.trans held

theorem sorted_renderAll (digest : ByteArray → Fingerprint) (modules : Table String ScannedModule)
    {rendering : Rendering} (sorted : rendering.compilation.modules.Sorted) :
    (renderAll digest modules rendering).compilation.modules.Sorted := by
  obtain ⟨added, -, -, shape, -⟩ := @renderAll_eq (fun _ _ => True) digest
    modules (fun _ _ _ => trivial) rendering fun _ _ _ _ _ => trivial
  rw [shape, (modules_foldl_addModule _ _).1]
  exact sorted.foldr_insert _ _ _

/-! ## Chunks -/

/-- The chunk of an entry. -/
def chunkOf (options : Options) (modules : Table String ScannedModule) (entry : String × String) :
    Chunk :=
  ⟨entry.1, entry.2, reachable modules entry.2, [options.output.filenameFor entry.1]⟩

theorem addEntry_eq (options : Options) (modules : Table String ScannedModule)
    (compilation : Compilation) (name entry : String) :
    (addEntry options modules compilation name entry).modules = compilation.modules ∧
      (addEntry options modules compilation name entry).chunks =
        compilation.chunks ++ [chunkOf options modules (name, entry)] := by
  simp only [addEntry, Compilation.emitAsset]
  split
  · exact ⟨rfl, rfl⟩
  · split <;> exact ⟨rfl, rfl⟩

theorem addEntries_eq (options : Options) (modules : Table String ScannedModule)
    (entries : List (String × String)) (compilation : Compilation) :
    let after := entries.foldl (fun compilation (name, entry) =>
      addEntry options modules compilation name entry) compilation
    after.modules = compilation.modules ∧
      after.chunks = compilation.chunks ++ entries.map (chunkOf options modules) := by
  induction entries generalizing compilation with
  | nil => exact ⟨rfl, (List.append_nil _).symm⟩
  | cons entry rest ih =>
    obtain ⟨modules, chunks⟩ := addEntry_eq options modules compilation entry.1 entry.2
    obtain ⟨same, later⟩ := ih (addEntry options _ compilation entry.1 entry.2)
    refine ⟨same.trans modules, later.trans ?_⟩
    rw [chunks, List.append_assoc]
    rfl

/-- What a build that did not fail makes of its scan. -/
theorem finish_eq (digest : ByteArray → Fingerprint) (options : Options)
    (cache : Option ArtifactCache) {scan : Scan} (success : scan.failure = none) :
    let built := finish digest options cache scan
    built.compilation.modules =
        (renderAll digest scan.modules ⟨scan.compilation, cache⟩).compilation.modules ∧
      built.compilation.chunks =
        scan.compilation.chunks ++ scan.entries.map (chunkOf options scan.modules) ∧
      built.cache = (renderAll digest scan.modules ⟨scan.compilation, cache⟩).cache := by
  obtain ⟨added, -, -, shape, -⟩ := @renderAll_eq (fun _ _ => True) digest
    scan.modules (fun _ _ _ => trivial) ⟨scan.compilation, cache⟩
    fun _ _ _ _ _ => trivial
  obtain ⟨modules, chunks⟩ := addEntries_eq options scan.modules scan.entries
    (renderAll digest scan.modules ⟨scan.compilation, cache⟩).compilation
  have own : (renderAll digest scan.modules ⟨scan.compilation, cache⟩).compilation.chunks =
      scan.compilation.chunks := by
    rw [shape, (modules_foldl_addModule _ _).2]
  rw [own] at chunks
  unfold finish
  rw [success]
  exact ⟨modules, chunks, rfl⟩

end Build

end Bundler
