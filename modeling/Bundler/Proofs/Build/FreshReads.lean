import Bundler.Proofs.Storage.ReadCache

/-!
# Fresh reads

A storage that remembers what it saw is fresh as long as all that it remembers is still so. A
fresh storage answers as the files themselves do, and goes on to be fresh when it is asked; a
purge makes any storage fresh.
-/

namespace Bundler

/-- Spellings of one path name one file. -/
structure FileView.Coherent (files : FileView) : Prop where
  kind : ∀ left right : Path, left.components = right.components →
    files.kind left = files.kind right
  read : ∀ (left right : Path) (content : ByteArray), left.components = right.components →
    files.read left = .ok content → files.read right = .ok content

namespace ReadCache

/-- All that a cache remembers is so. -/
structure Fresh (cache : ReadCache) (files : FileView) : Prop where
  contents : ∀ path content, cache.contents.get? path = some content →
    files.read path = .ok content
  kinds : ∀ path kind, cache.kinds.get? path = some kind → files.kind path = kind

variable {cache : ReadCache} {files : FileView}

theorem fresh_empty : Fresh {} files where
  contents path content found := by cases found
  kinds path kind found := by cases found

theorem Fresh.kind_eq (fresh : cache.Fresh files) (path : Path) :
    cache.kind files path = files.kind path := by
  rw [kind]
  cases found : cache.kinds.get? path with
  | none => rfl
  | some kind => exact (fresh.kinds path kind found).symm

/-- A fresh cache shows the files as they are. -/
theorem Fresh.view_eq (fresh : cache.Fresh files) (path : Path) :
    (cache.view files).isFile path = files.isFile path ∧
      (cache.view files).read path = files.read path := by
  constructor
  · change (cache.kind files path == .file) = _
    rw [fresh.kind_eq, FileView.kind_beq_file]
  · simp only [view]
    cases found : cache.contents.get? path with
    | none => rfl
    | some content => exact (fresh.contents path content found).symm

theorem Fresh.noteKind (fresh : cache.Fresh files) (coherent : files.Coherent) (path : Path) :
    (cache.noteKind files path).Fresh files := by
  refine ⟨cache.contents_noteKind files path ▸ fresh.contents, fun other kind found => ?_⟩
  rw [cache.kinds_noteKind, Option.or_eq_some_iff] at found
  rcases found with known | ⟨-, seen⟩
  · exact fresh.kinds other kind known
  · obtain ⟨same, seen⟩ := Option.ite_none_right_eq_some.1 seen
    obtain rfl := Option.some.inj seen
    exact coherent.kind other path ((Path.same_iff other path).1 same)

theorem Fresh.noteRead (fresh : cache.Fresh files) (coherent : files.Coherent) (path : Path) :
    (cache.noteRead files path).Fresh files := by
  refine ⟨fun other content found => ?_, cache.kinds_noteRead files path ▸ fresh.kinds⟩
  rw [cache.contents_noteRead, Option.or_eq_some_iff] at found
  rcases found with known | ⟨-, read⟩
  · exact fresh.contents other content known
  · obtain ⟨same, read⟩ := Option.ite_none_right_eq_some.1 read
    cases answer : files.read path with
    | error fault => simp [answer, Except.toOption] at read
    | ok held =>
      rw [answer] at read
      obtain rfl := Option.some.inj read
      exact coherent.read path other held ((Path.same_iff other path).1 same).symm answer

end ReadCache

namespace InputStorage

/-- All that a storage remembers is so. -/
def Fresh (input : InputStorage) (files : FileView) : Prop :=
  ∀ cache, input.cache = some cache → cache.Fresh files

variable {input : InputStorage} {files : FileView}

theorem fresh_purge (input : InputStorage) (files : FileView) : input.purge.Fresh files := by
  intro cache same
  obtain ⟨earlier, -, rfl⟩ := Option.map_eq_some_iff.mp same
  exact ReadCache.fresh_empty

/-- A fresh storage says of a path what is so. -/
theorem Fresh.view_eq (fresh : input.Fresh files) (path : Path) :
    (input.view files).isFile path = files.isFile path ∧
      (input.view files).read path = files.read path := by
  rw [view]
  cases remembers : input.cache with
  | none => exact ⟨rfl, rfl⟩
  | some cache => exact (fresh cache remembers).view_eq path

theorem Fresh.noteKind (fresh : input.Fresh files) (coherent : files.Coherent) (path : Path) :
    (input.noteKind files path).Fresh files := by
  intro cache same
  obtain ⟨earlier, remembers, rfl⟩ := Option.map_eq_some_iff.mp same
  exact (fresh earlier remembers).noteKind coherent path

theorem Fresh.noteRead (fresh : input.Fresh files) (coherent : files.Coherent) (path : Path) :
    (input.noteRead files path).Fresh files := by
  intro cache same
  rw [cache_noteRead] at same
  obtain ⟨earlier, remembers, rfl⟩ := Option.map_eq_some_iff.mp same
  exact (fresh earlier remembers).noteRead coherent path

end InputStorage

end Bundler
