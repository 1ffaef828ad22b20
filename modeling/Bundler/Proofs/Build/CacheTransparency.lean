import Bundler.Proofs.Build.ArtifactIdentity
import Bundler.Proofs.Build.WatchedSet

/-!
# Builds through a cache

A cache is used by builds and pruned in between. `Honest` says that each of its
entries is an artifact that one of these builds rendered, kept under the
fingerprint of that build. With equal fingerprints giving equal artifacts, an
honest cache never answers with a stale one: `result_eq_cold` says that every
build of a sequence ends as it does without a cache.
-/

namespace Bundler

namespace Compilation

/-- The compilation as it is when nothing is said about where artifacts came
from. -/
def forgetCached (compilation : Compilation) : Compilation :=
  { compilation with
    modules := compilation.modules.map fun _ module => { module with cached := false } }

theorem forgetCached_addModule (compilation : Compilation) (module : Module) :
    (compilation.addModule module).forgetCached =
      compilation.forgetCached.addModule { module with cached := false } := by
  simp only [forgetCached, addModule, Table.map_insert]

/-- Whether artifacts were cached does not matter to assets. -/
theorem forgetCached_emitAsset (compilation : Compilation) (name : String) (content : ByteArray) :
    (compilation.emitAsset name content).forgetCached =
      compilation.forgetCached.emitAsset name content := by
  have assets : compilation.forgetCached.assets = compilation.assets := rfl
  unfold emitAsset
  rw [assets]
  cases compilation.assets.get? name with
  | none => rfl
  | some held =>
    by_cases same : held.content = content
    · simp only [same, if_true]
    · simp only [same, if_false]
      rfl

end Compilation

namespace Build

theorem forgetCached_addEntry (options : Options) (modules : Table String ScannedModule)
    (compilation : Compilation) (name entry : String) :
    (addEntry options modules compilation name entry).forgetCached =
      addEntry options modules compilation.forgetCached name entry := by
  have artifacts : ∀ id, (compilation.forgetCached.modules.get? id).map
      (fun module => (id, module.artifact)) =
      (compilation.modules.get? id).map fun module => (id, module.artifact) := by
    intro id
    rw [Compilation.forgetCached, Table.get?_map, Option.map_map]
    rfl
  simp only [addEntry, artifacts]
  rw [← Compilation.forgetCached_emitAsset]
  rfl

/-! ## Honest caches -/

/-- Every entry of a cache was rendered from one of some scanned modules. -/
def Honest (digest : ByteArray → Fingerprint) (tables : List (Table String ScannedModule))
    (cache : ArtifactCache) : Prop :=
  ∀ id entry, (id, entry) ∈ cache.entries.entries → ∃ modules ∈ tables, ∃ module,
    (id, module) ∈ modules.entries ∧ entry.fingerprint = fingerprintOf digest modules id module ∧
      entry.artifact = module.render id

variable {digest : ByteArray → Fingerprint} {tables : List (Table String ScannedModule)}

theorem Honest.of_subset {cache smaller : ArtifactCache} (honest : Honest digest tables cache)
    (subset : ∀ entry ∈ smaller.entries.entries, entry ∈ cache.entries.entries) :
    Honest digest tables smaller :=
  fun id entry member => honest id entry (subset (id, entry) member)

theorem Honest.more {cache : ArtifactCache} (honest : Honest digest tables cache)
    {others : List (Table String ScannedModule)} (subset : ∀ modules ∈ tables, modules ∈ others) :
    Honest digest others cache := by
  intro id entry member
  obtain ⟨modules, inside, made⟩ := honest id entry member
  exact ⟨modules, subset modules inside, made⟩

theorem honest_empty : Honest digest tables ArtifactCache.empty := by
  intro id entry member
  cases member

theorem Honest.retain {cache : ArtifactCache} (honest : Honest digest tables cache)
    (ids : List String) : Honest digest tables (cache.retain ids).2 :=
  honest.of_subset fun _ member => (List.mem_filter.1 member).1

theorem Honest.clear {cache : ArtifactCache} : Honest digest tables cache.clear := by
  intro id entry member
  cases member

theorem Honest.store {cache : ArtifactCache} (honest : Honest digest tables cache)
    {modules : Table String ScannedModule} (known : modules ∈ tables) {id : String}
    {module : ScannedModule} (held : (id, module) ∈ modules.entries) (storedIn : Nat) :
    Honest digest tables
      (cache.store id ⟨fingerprintOf digest modules id module, module.render id, storedIn⟩) := by
  intro other entry member
  rcases Table.mem_entries_of_mem_insert member with new | old
  · obtain ⟨rfl, rfl⟩ := Prod.mk.inj new
    exact ⟨modules, known, module, held, rfl, rfl⟩
  · exact honest other entry old

/-- A look-up keeps a cache honest and finds what was rendered under the
fingerprint that it asks for. -/
theorem Honest.get {cache : ArtifactCache} (honest : Honest digest tables cache) (id : String)
    (fingerprint : Fingerprint) :
    Honest digest tables (cache.get id fingerprint).2 ∧
      ∀ artifact, (cache.get id fingerprint).1 = some artifact → ∃ modules ∈ tables, ∃ module,
        (id, module) ∈ modules.entries ∧ fingerprint = fingerprintOf digest modules id module ∧
          artifact = module.render id := by
  unfold ArtifactCache.get
  cases found : cache.entries.get? id with
  | none => exact ⟨honest, fun _ answer => by cases answer⟩
  | some entry =>
    by_cases same : entry.fingerprint = fingerprint
    · simp only [same, if_true]
      refine ⟨honest, fun artifact answer => ?_⟩
      obtain ⟨modules, known, module, held, made, rendered⟩ :=
        honest id entry (Table.mem_entries_of_get? found)
      exact ⟨modules, known, module, held, same.symm.trans made,
        (Option.some.inj answer).symm.trans rendered⟩
    · simp only [same, if_false]
      refine ⟨honest.of_subset fun _ member => (List.mem_filter.1 member).1, ?_⟩
      rintro artifact answer
      cases answer

/-- Modules that were scanned in one context and whose hashing does not collide. -/
structure Comparable (digest : ByteArray → Fingerprint) (context : Path)
    (tables : List (Table String ScannedModule)) : Prop where
  scanned : ∀ modules ∈ tables, ∃ view, PlainFiles view ∧ Scanned view context modules
  apart : ∀ left ∈ tables, ∀ right ∈ tables, ∀ first ∈ hashedFor digest left,
    ∀ second ∈ hashedFor digest right, digest first = digest second → first = second

/-- A module as it is rendered without a cache. -/
def freshModule (digest : ByteArray → Fingerprint) (modules : Table String ScannedModule)
    (id : String) (module : ScannedModule) : Module :=
  ⟨id, module.path, module.dependencies, fingerprintOf digest modules id module,
    module.render id, false⟩

section Rendering

variable {size : Nat} {context : Path}
  (digestSize : ∀ content, (digest content).bytes.size = size)
  (absolute : context.isAbsolute = true) (comparable : Comparable digest context tables)
  {modules : Table String ScannedModule} (known : modules ∈ tables)

include digestSize absolute comparable known

/-- What a read through an honest cache gives is what would be rendered. -/
theorem Honest.fetch {cache : ArtifactCache} (honest : Honest digest tables cache) {id : String}
    {module : ScannedModule} (held : (id, module) ∈ modules.entries) (storedIn : Nat) :
    ∃ hit after, cache.fetch id (fingerprintOf digest modules id module) storedIn
        (fun _ => (.ok (module.render id) : Except Empty String)) =
      (.ok ⟨module.render id, hit⟩, after) ∧ Honest digest tables after := by
  obtain ⟨kept, hits⟩ := honest.get id (fingerprintOf digest modules id module)
  unfold ArtifactCache.fetch
  cases answer : cache.get id (fingerprintOf digest modules id module) with
  | mk artifact after =>
    rw [answer] at kept hits
    cases artifact with
    | none => exact ⟨false, _, rfl, kept.store known held storedIn⟩
    | some artifact =>
      obtain ⟨others, otherKnown, other, otherHeld, sameFingerprint, rfl⟩ := hits artifact rfl
      obtain ⟨view, plain, scanned⟩ := comparable.scanned modules known
      obtain ⟨otherView, otherPlain, otherScanned⟩ := comparable.scanned others otherKnown
      have same := render_eq_of_fingerprint_eq digestSize absolute otherPlain plain otherScanned
        scanned (comparable.apart others otherKnown modules known) otherHeld held
        sameFingerprint.symm
      exact ⟨true, after, by rw [same], kept⟩

/-- One module, rendered or taken from an honest cache. -/
theorem forgetCached_add {rendering : Rendering}
    (honest : ∀ cache, rendering.cache = some cache → Honest digest tables cache) {id : String}
    {module : ScannedModule} (held : (id, module) ∈ modules.entries) :
    (rendering.add id module (fingerprintOf digest modules id module)).compilation.forgetCached =
        rendering.compilation.forgetCached.addModule (freshModule digest modules id module) ∧
      ∀ cache, (rendering.add id module (fingerprintOf digest modules id module)).cache =
        some cache → Honest digest tables cache := by
  obtain ⟨compilation, cache⟩ := rendering
  cases cache with
  | none => exact ⟨Compilation.forgetCached_addModule _ _, fun _ same => by cases same⟩
  | some cache =>
    obtain ⟨hit, after, fetched, kept⟩ :=
      (honest cache rfl).fetch digestSize absolute comparable known held compilation.id
    simp only [Rendering.add, fetched]
    refine ⟨Compilation.forgetCached_addModule _ _, fun cache same => ?_⟩
    obtain rfl := Option.some.inj same
    exact kept

/-- All modules, rendered or taken from an honest cache. -/
theorem forgetCached_renderAll (rendering : Rendering)
    (honest : ∀ cache, rendering.cache = some cache → Honest digest tables cache) :
    (renderAll digest modules rendering).compilation.forgetCached =
        modules.entries.foldl (fun compilation (id, module) =>
          compilation.addModule (freshModule digest modules id module))
          rendering.compilation.forgetCached ∧
      ∀ cache, (renderAll digest modules rendering).cache = some cache →
        Honest digest tables cache := by
  have fold : ∀ (entries : List (String × ScannedModule)) (rendering : Rendering),
      (∀ entry ∈ entries, entry ∈ modules.entries) →
      (∀ cache, rendering.cache = some cache → Honest digest tables cache) →
      let rendered := entries.foldl (fun rendering (id, module) =>
        rendering.add id module (fingerprintOf digest modules id module)) rendering
      rendered.compilation.forgetCached = entries.foldl (fun compilation (id, module) =>
          compilation.addModule (freshModule digest modules id module))
          rendering.compilation.forgetCached ∧
        ∀ cache, rendered.cache = some cache → Honest digest tables cache := by
    intro entries
    induction entries with
    | nil => exact fun rendering _ honest => ⟨rfl, honest⟩
    | cons entry rest ih =>
      intro rendering inside honest
      obtain ⟨added, kept⟩ := forgetCached_add digestSize absolute comparable known honest
        (inside entry List.mem_cons_self)
      have later := ih _ (fun other member => inside other (List.mem_cons_of_mem _ member)) kept
      rw [added] at later
      exact later
  exact fold modules.entries rendering (fun _ member => member) honest

end Rendering

/-- The chunks and assets of a build do not depend on where artifacts came from. -/
theorem forgetCached_foldl_addEntry (options : Options) (modules : Table String ScannedModule)
    (entries : List (String × String)) (compilation : Compilation) :
    (entries.foldl (fun compilation (name, entry) =>
        addEntry options modules compilation name entry) compilation).forgetCached =
      entries.foldl (fun compilation (name, entry) =>
        addEntry options modules compilation name entry) compilation.forgetCached := by
  induction entries generalizing compilation with
  | nil => rfl
  | cons entry rest ih => rw [List.foldl_cons, ih, forgetCached_addEntry, List.foldl_cons]

/-- The modules of a scan that did not fail. -/
def tablesOf (scan : Scan) : List (Table String ScannedModule) :=
  match scan.failure with
  | none => [scan.modules]
  | some _ => []

/-- A scan that is rendered through an honest cache ends as it does without a
cache, and leaves an honest cache. -/
theorem forgetCached_finish {size : Nat} {context : Path}
    (digestSize : ∀ content, (digest content).bytes.size = size)
    (absolute : context.isAbsolute = true) (comparable : Comparable digest context tables)
    (options : Options) {scan : Scan} (known : ∀ modules ∈ tablesOf scan, modules ∈ tables)
    {cache : ArtifactCache} (honest : Honest digest tables cache) :
    let warm := finish digest options (some cache) scan
    let cold := finish digest options none scan
    warm.failure = cold.failure ∧ warm.compilation.forgetCached = cold.compilation.forgetCached ∧
      ∀ after, warm.cache = some after → Honest digest tables after := by
  unfold tablesOf at known
  unfold finish
  cases failed : scan.failure with
  | some failure =>
    refine ⟨rfl, rfl, fun after same => ?_⟩
    obtain rfl := Option.some.inj same
    exact honest
  | none =>
    rw [failed] at known
    have member := known scan.modules List.mem_cons_self
    obtain ⟨warm, kept⟩ := forgetCached_renderAll digestSize absolute comparable member
      ⟨scan.compilation, some cache⟩ fun other same => Option.some.inj same ▸ honest
    obtain ⟨cold, -⟩ := forgetCached_renderAll digestSize absolute comparable member
      ⟨scan.compilation, none⟩ fun other same => by cases same
    refine ⟨rfl, ?_, kept⟩
    rw [forgetCached_foldl_addEntry, forgetCached_foldl_addEntry, warm, cold]

/-! ## Sequences of builds -/

/-- One build: the files as they are, what is asked for, and where the results
go. -/
structure BuildCall where
  view : FileView
  options : Options
  budget : Nat
  compilation : Compilation

namespace BuildCall

def scan (call : BuildCall) : Scan :=
  (Scan.run call.options call.budget call.compilation).answer call.view

def result (digest : ByteArray → Fingerprint) (cache : Option ArtifactCache) (call : BuildCall) :
    Built :=
  (buildBundles digest call.options call.budget cache call.compilation).answer call.view

theorem result_eq (digest : ByteArray → Fingerprint) (cache : Option ArtifactCache)
    (call : BuildCall) :
    call.result digest cache = finish digest call.options cache call.scan := by
  simp [result, buildBundles, scan]

/-- The byte strings that are hashed in a build. -/
def hashed (digest : ByteArray → Fingerprint) (call : BuildCall) : List ByteArray :=
  (tablesOf call.scan).flatMap (hashedFor digest)

end BuildCall

/-- What may be done with a cache that builds share. -/
inductive CacheUse where
  | build (call : BuildCall)
  | retain (ids : List String)
  | clear

namespace CacheUse

def call? : CacheUse → Option BuildCall
  | build call => some call
  | _ => none

/-- The cache after it was used. -/
def apply (digest : ByteArray → Fingerprint) (cache : ArtifactCache) : CacheUse → ArtifactCache
  | build call => (call.result digest (some cache)).cache.getD cache
  | retain ids => (cache.retain ids).2
  | clear => cache.clear

end CacheUse

/-- The builds among some uses of a cache, in order. -/
def callsOf (uses : List CacheUse) : List BuildCall := uses.filterMap CacheUse.call?

/-- A fresh cache after some uses. -/
def cacheAfter (digest : ByteArray → Fingerprint) (uses : List CacheUse) : ArtifactCache :=
  uses.foldl (CacheUse.apply digest) ArtifactCache.empty

/-- Whatever a cache was used for, its entries were rendered by one of the builds. -/
theorem honest_cacheAfter {size : Nat} {context : Path}
    (digestSize : ∀ content, (digest content).bytes.size = size)
    (absolute : context.isAbsolute = true) (comparable : Comparable digest context tables)
    {uses : List CacheUse}
    (known : ∀ call ∈ callsOf uses, ∀ modules ∈ tablesOf call.scan, modules ∈ tables) :
    Honest digest tables (cacheAfter digest uses) := by
  induction uses using List.reverseRecOn with
  | nil => exact honest_empty
  | append_singleton before use ih =>
    rw [callsOf, List.filterMap_append] at known
    have honest := ih fun call member => known call (List.mem_append_left _ member)
    rw [cacheAfter, List.foldl_append, List.foldl_cons, List.foldl_nil]
    change Honest digest tables (CacheUse.apply digest (cacheAfter digest before) use)
    cases use with
    | build call =>
      have own : call ∈ List.filterMap CacheUse.call? [.build call] := List.mem_cons_self
      obtain ⟨-, -, kept⟩ := forgetCached_finish digestSize absolute comparable call.options
        (known call (List.mem_append_right _ own)) honest
      rw [← call.result_eq] at kept
      simp only [CacheUse.apply]
      cases after : (call.result digest (some (cacheAfter digest before))).cache with
      | none => exact honest
      | some cache => exact kept cache after
    | retain ids => exact honest.retain ids
    | clear => exact Honest.clear

/-- Builds in one absolute context, of files with plain paths, whose hashing does not collide. -/
theorem comparable_of_apart {context : Path} (absolute : context.isAbsolute = true)
    {calls : List BuildCall} (oneContext : ∀ call ∈ calls, call.options.context = context)
    (plain : ∀ call ∈ calls, PlainFiles call.view)
    (apart : ∀ first ∈ calls.flatMap (BuildCall.hashed Fingerprint.of),
      ∀ second ∈ calls.flatMap (BuildCall.hashed Fingerprint.of),
        Fingerprint.of first = Fingerprint.of second → first = second) :
    Comparable Fingerprint.of context (calls.flatMap fun call => tablesOf call.scan) := by
  have hashedIn : ∀ call ∈ calls, ∀ modules ∈ tablesOf call.scan,
      ∀ content ∈ hashedFor Fingerprint.of modules,
        content ∈ calls.flatMap (BuildCall.hashed Fingerprint.of) := by
    intro call member modules inside content hashed
    exact List.mem_flatMap.2 ⟨call, member, List.mem_flatMap.2 ⟨modules, inside, hashed⟩⟩
  constructor
  · intro modules member
    obtain ⟨call, isCall, inside⟩ := List.mem_flatMap.1 member
    refine ⟨call.view, plain call isCall, ?_⟩
    unfold tablesOf at inside
    split at inside
    · next success =>
      obtain rfl := List.mem_singleton.1 inside
      have same := oneContext call isCall
      exact same ▸ Scan.scanned_run (same ▸ absolute) success
    · cases inside
  · intro left leftMember right rightMember first inLeft second inRight
    obtain ⟨leftCall, isLeft, leftInside⟩ := List.mem_flatMap.1 leftMember
    obtain ⟨rightCall, isRight, rightInside⟩ := List.mem_flatMap.1 rightMember
    exact apart first (hashedIn leftCall isLeft left leftInside first inLeft) second
      (hashedIn rightCall isRight right rightInside second inRight)

/-- The view of files that are known by the texts of their paths. -/
def viewOfTexts (files : List (String × String)) : FileView where
  isFile path := files.any fun file => file.1 == path.text
  isDirectory _ := false
  read path :=
    match files.find? fun file => file.1 == path.text with
    | some file => .ok file.2.toUTF8
    | none => .error (.missing path)

theorem plainFiles_viewOfTexts {files : List (String × String)}
    (plain : ∀ file ∈ files, '\\' ∉ file.1.toList ∧ '\x00' ∉ file.1.toList) :
    PlainFiles (viewOfTexts files) := by
  intro path isFile
  obtain ⟨file, member, same⟩ := List.any_eq_true.1 isFile
  rw [Path.Plain, ← beq_iff_eq.1 same]
  exact plain file member

/-- A build of the entry `./a` in `/p` into a compilation with the number `id`. -/
def smallBuild (id : Nat) (files : List (String × String)) : BuildCall where
  view := viewOfTexts files
  options :=
    { context := .of "/p", entry := Table.empty.insert "main" "./a", output := {},
      noEmitOnErrors := false }
  budget := 5
  compilation := { id }

/-- Two builds of one script; before the second one another file appears. -/
def smallSequence : List CacheUse :=
  [.build (smallBuild 1 [("/p/a.js", "")]), .retain ["./a.js"],
    .build (smallBuild 2 [("/p/a.js", ""), ("/p/b.js", "")])]

end Build

end Bundler
