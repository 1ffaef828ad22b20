import Bundler.Proofs.Storage.Directories

/-!
# Directories that are made

`mkdirp` goes up while a directory above is missing. Every parent is shorter, so the number of
components bounds the steps (`mkdirp_eq_of_le`), whatever the storage answers. In a store in memory
it makes the way to its path and touches nothing else, and a second attempt changes nothing.
`MemoryFiles.mkdirAll_delivers` says so, and when the path is a directory afterwards: exactly if no
file stood there. `MemoryFiles.mkdirAll_over_file` is a file that counts as a directory made.
-/

namespace Bundler

/-! ## Steps up -/

theorem Path.length_parent {path parent : Path} (isParent : path.parent? = some parent) :
    path.components.length = parent.components.length + 1 := by
  obtain ⟨last, -, shape⟩ := components_parent isParent
  rw [shape, List.length_append, List.length_singleton]

/-- What is tried next is shorter. -/
theorem length_missingAbove {path parent : Path} {attempt : Except FileFault Unit}
    (above : missingAbove? path attempt = some parent) :
    path.components.length = parent.components.length + 1 :=
  Path.length_parent (MemoryFiles.parent_of_missingAbove above)

/-- Where nothing is left to try, an attempt is the last one. -/
theorem missingAbove?_of_length {path : Path} (short : path.components.length = 0)
    (attempt : Except FileFault Unit) : missingAbove? path attempt = none := by
  cases above : missingAbove? path attempt with
  | none => rfl
  | some parent =>
    have longer := length_missingAbove above
    omega

/-- As many steps as the path has components are enough, whatever the storage answers. -/
theorem mkdirp_eq_of_le {m : Type → Type} [Monad m] (mkdir : Path → m (Except FileFault Unit))
    {count : Nat} {path : Path} (enough : path.components.length ≤ count) :
    mkdirp mkdir count path = mkdirp mkdir path.components.length path := by
  induction count generalizing path with
  | zero => rw [Nat.le_zero.1 enough]
  | succ count ih =>
    cases length : path.components.length with
    | zero =>
      rw [mkdirp, mkdirp]
      refine bind_congr fun attempt => ?_
      rw [missingAbove?_of_length length]
    | succ shorter =>
      rw [mkdirp, mkdirp]
      refine bind_congr fun attempt => ?_
      cases above : missingAbove? path attempt with
      | none => rfl
      | some parent =>
        have one := length_missingAbove above
        have same : mkdirp mkdir count parent = mkdirp mkdir shorter parent := by
          rw [ih (by omega), show parent.components.length = shorter by omega]
        simp only [same]

namespace MemoryFiles

/-! ## What the way ends with -/

variable {store : MemoryFiles} {path : Path}

theorem isDirectory_iff_isFile_eq_false (there : store.contains path = true) :
    store.isDirectory path = true ↔ store.isFile path = false := by
  obtain ⟨entry, found⟩ := contains_iff.1 there
  rw [isDirectory, isFile, found]
  cases entry <;> simp

theorem isFile_of_not_contains (absent : store.contains path = false) :
    store.isFile path = false := by
  rw [contains, Table.contains_eq_isSome_get?, Option.isSome_eq_false_iff,
    Option.isNone_iff_eq_none] at absent
  rw [isFile, absent]

/-- A way that was made leads to a directory, unless a file stood there before. -/
theorem isDirectory_mkdirAll_iff (made : (store.mkdirAll path).1 = .ok ()) :
    (store.mkdirAll path).2.isDirectory path = true ↔ store.isFile path = false := by
  cases there : store.contains path with
  | true =>
    have unchanged : store.mkdirAll path = (.ok (), store) := mkdirp_of_contains there _
    rw [unchanged]
    exact isDirectory_iff_isFile_eq_false there
  | false =>
    refine iff_of_true ?_ (isFile_of_not_contains there)
    have frame : Frame (fun _ => False) (fun other => path.startsWith other = true) store
        (store.mkdirAll path).2 := frame_mkdirp _ path store
    rcases frame.entry (contains_of_mkdirp made) with before | wrote | ⟨directory, -⟩
    · rw [there] at before
      cases before
    · exact wrote.elim
    · exact directory

/-- Making a directory with all those above it: the steps up never run out. Whatever comes of it,
files stay as they are, directories at most list more names, and what is new are directories on the
way. If it succeeds, the path is a directory exactly if no file stood there, and a second attempt
succeeds and changes nothing. -/
theorem mkdirAll_delivers (store : MemoryFiles) (path : Path) :
    (∀ count, path.components.length ≤ count →
      (mkdirp mkdirAction count path).run store = store.mkdirAll path) ∧
    Frame (fun _ => False) (fun other => path.startsWith other = true) store
      (store.mkdirAll path).2 ∧
    ((store.mkdirAll path).1 = .ok () →
      ((store.mkdirAll path).2.isDirectory path = true ↔ store.isFile path = false) ∧
      (store.mkdirAll path).2.mkdirAll path = (.ok (), (store.mkdirAll path).2)) := by
  refine ⟨fun count enough => ?_, frame_mkdirp _ path store, fun made => ?_⟩
  · rw [mkdirp_eq_of_le mkdirAction enough]
    rfl
  · exact ⟨isDirectory_mkdirAll_iff made, mkdirp_of_contains (contains_of_mkdirp made) _⟩

/-- A store with one file below a directory. -/
def withNote : MemoryFiles := empty.addFile (.of "/a/note") "x".toUTF8

/-- Beside the file a way of two directories is made; it stays where it is. -/
theorem mkdirAll_delivers_beside :
    (withNote.mkdirAll (.of "/a/b/c")).1 = .ok () ∧
    withNote.isFile (.of "/a/b/c") = false ∧
    (withNote.mkdirAll (.of "/a/b/c")).2.isDirectory (.of "/a/b/c") = true ∧
    (withNote.mkdirAll (.of "/a/b/c")).2.read (.of "/a/note") = .ok "x".toUTF8 ∧
    (withNote.mkdirAll (.of "/a/b/c")).2.mkdirAll (.of "/a/b/c") =
      (.ok (), (withNote.mkdirAll (.of "/a/b/c")).2) := by
  have made : (withNote.mkdirAll (.of "/a/b/c")).1 = .ok () := by decide +kernel
  have free : withNote.isFile (.of "/a/b/c") = false := by decide +kernel
  have held : withNote.entries.get? (.of "/a/note") = some (.file "x".toUTF8) := by decide +kernel
  obtain ⟨-, frame, delivers⟩ := mkdirAll_delivers withNote (.of "/a/b/c")
  obtain ⟨directory, again⟩ := delivers made
  exact ⟨made, free, directory.2 free, read_eq_ok_iff.2 ((frame.file id _).2 held), again⟩

/-- Where a file stands, making a directory succeeds, and the path is no directory. -/
theorem mkdirAll_over_file :
    (withNote.mkdirAll (.of "/a/note")).1 = .ok () ∧
    (withNote.mkdirAll (.of "/a/note")).2.isDirectory (.of "/a/note") = false := by
  decide +kernel

end MemoryFiles

end Bundler
