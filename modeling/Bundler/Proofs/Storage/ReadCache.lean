import Bundler.Proofs.PathOrder
import Bundler.Storage.Input

/-!
# What one query leaves in a read cache

A query adds to one table of the cache, under the spelling that was asked, if nothing is there
under any spelling, and leaves the other table as it is.
-/

namespace Bundler

/-! ## Kinds -/

/-- Nothing is both a file and a directory. -/
def FileView.Apart (files : FileView) : Prop :=
  ∀ path, ¬ (files.isFile path = true ∧ files.isDirectory path = true)

section Kind

variable {files : FileView} (path : Path)

theorem FileView.kind_beq_file : (files.kind path == .file) = files.isFile path := by
  rw [kind]
  cases files.isFile path
  · cases files.isDirectory path <;> rfl
  · rfl

theorem FileView.Apart.kind_beq_directory (apart : files.Apart) :
    (files.kind path == .directory) = files.isDirectory path := by
  rw [kind]
  cases file : files.isFile path
  · cases files.isDirectory path <;> rfl
  · cases directory : files.isDirectory path
    · rfl
    · exact absurd ⟨file, directory⟩ (apart path)

end Kind

/-! ## Tables -/

namespace ReadCache

variable (cache : ReadCache) (files : FileView) (asked path : Path)

theorem contents_noteRead : (cache.noteRead files asked).contents.get? path =
    (cache.contents.get? path).or
      (if path.same asked then (files.read asked).toOption else none) := by
  rw [noteRead, ← Path.compare_beq_eq]
  cases files.read asked with
  | error fault => cases cache.contents.contains asked <;> simp [rememberRead, Except.toOption]
  | ok content =>
    have inserted := Table.get?_insert_of_absent cache.contents path asked content
    simp only [beq_iff_eq, Except.toOption]
    rw [← inserted]
    split <;> rfl

theorem kinds_noteRead : (cache.noteRead files asked).kinds = cache.kinds := by
  rw [noteRead]
  split
  · rfl
  · cases files.read asked <;> rfl

theorem kinds_noteKind : (cache.noteKind files asked).kinds.get? path =
    (cache.kinds.get? path).or (if path.same asked then some (files.kind asked) else none) := by
  have inserted := Table.get?_insert_of_absent cache.kinds path asked (files.kind asked)
  simp only [← Path.compare_beq_eq, beq_iff_eq]
  rw [← inserted, noteKind]
  split <;> rfl

theorem contents_noteKind : (cache.noteKind files asked).contents = cache.contents := by
  rw [noteKind]
  split <;> rfl

end ReadCache

namespace InputStorage

/-- A storage that remembers notes a read in its cache. -/
theorem cache_noteRead (input : InputStorage) (files : FileView) (path : Path) :
    (input.noteRead files path).cache = input.cache.map fun cache => cache.noteRead files path := by
  obtain ⟨_ | cache, reads, purges⟩ := input
  · rfl
  · rw [noteRead, Option.map_some]
    dsimp only
    split
    · next known => rw [ReadCache.noteRead, if_pos known]
    · rfl

end InputStorage

end Bundler
