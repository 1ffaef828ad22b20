import Bundler.Fingerprint
import Bundler.Table

/-!
# Artifact cache

Rendered modules by identifier, each with the fingerprint it was made for. A
look-up under another fingerprint finds nothing and drops the stale entry.
`ArtifactCache.fetch` renders an artifact only when the look-up fails.
-/

namespace Bundler

/-- A rendered module with its fingerprint and the compilation that made it. -/
structure CachedArtifact where
  fingerprint : Fingerprint
  artifact : String
  storedIn : Nat
  deriving DecidableEq

/-- How often each thing happened to a cache. -/
structure CacheCounts where
  hits : Nat := 0
  misses : Nat := 0
  stores : Nat := 0
  evictions : Nat := 0
  deriving DecidableEq, Repr

structure ArtifactCache where
  entries : Table String CachedArtifact := Table.empty
  counts : CacheCounts := {}
  deriving DecidableEq, Inhabited

namespace ArtifactCache

def empty : ArtifactCache := {}

def size (cache : ArtifactCache) : Nat := cache.entries.size

/-- Look an artifact up; a stale entry is dropped. -/
def get (cache : ArtifactCache) (id : String) (fingerprint : Fingerprint) :
    Option String × ArtifactCache :=
  match cache.entries.get? id with
  | none => (none, { cache with counts.misses := cache.counts.misses + 1 })
  | some entry =>
    if entry.fingerprint = fingerprint then
      (some entry.artifact, { cache with counts.hits := cache.counts.hits + 1 })
    else
      (none, { cache with
        entries := cache.entries.erase id
        counts.misses := cache.counts.misses + 1
        counts.evictions := cache.counts.evictions + 1 })

def store (cache : ArtifactCache) (id : String) (entry : CachedArtifact) : ArtifactCache :=
  { cache with
    entries := cache.entries.insert id entry
    counts.stores := cache.counts.stores + 1 }

/-- What a read through the cache gave. -/
structure Fetched where
  artifact : String
  hit : Bool
  deriving DecidableEq, Repr

/-- Read through the cache: a missing artifact is made and stored; nothing is
stored if making it fails. -/
def fetch {ε : Type} (cache : ArtifactCache) (id : String) (fingerprint : Fingerprint)
    (storedIn : Nat) (produce : Unit → Except ε String) : Except ε Fetched × ArtifactCache :=
  match cache.get id fingerprint with
  | (some artifact, cache) => (.ok ⟨artifact, true⟩, cache)
  | (none, cache) =>
    match produce () with
    | .error error => (.error error, cache)
    | .ok artifact => (.ok ⟨artifact, false⟩, cache.store id ⟨fingerprint, artifact, storedIn⟩)

/-- Drop the entries that are not listed, and say how many there were. -/
def retain (cache : ArtifactCache) (ids : List String) : Nat × ArtifactCache :=
  let kept := cache.entries.filter fun id _ => ids.contains id
  let dropped := cache.entries.size - kept.size
  (dropped, { cache with
    entries := kept
    counts.evictions := cache.counts.evictions + dropped })

def clear (cache : ArtifactCache) : ArtifactCache :=
  { cache with
    entries := Table.empty
    counts.evictions := cache.counts.evictions + cache.entries.size }

end ArtifactCache

end Bundler
