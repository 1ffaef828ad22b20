import Bundler.Proofs.Path.Rooted
import Bundler.Proofs.Storage.MadeDirectories

/-!
# What a store holds and lists

Two questions describe a store as far as its directories go: is a path there, and which names are
listed at it (`MemoryFiles.Lists`). Every change answers both anew, for all paths at once. Making
a directory with all those above it adds the way to it and lists each next name on it
(`MemoryFiles.grown_ensureDirectory`), provided the way is `Paved` as far as it goes.
-/

namespace Bundler

theorem Table.isEmpty_iff {κ : Type u} {β : Type v} [Ord κ] [Std.ReflOrd κ] (table : Table κ β) :
    table.isEmpty = true ↔ ∀ key, table.contains key = false := by
  obtain ⟨entries⟩ := table
  cases entries with
  | nil => simp [isEmpty, contains]
  | cons entry rest =>
    refine iff_of_false (by simp [isEmpty]) fun absent => ?_
    have first := absent entry.1
    simp [contains] at first

namespace MemoryFiles

/-- The names that a directory lists; nothing else lists any. -/
def namesOf : Option StoredEntry → Table String Unit
  | some (.directory names) => names
  | _ => Table.empty

/-- The names that are listed at a path. -/
def listing (store : MemoryFiles) (path : Path) : Table String Unit :=
  namesOf (store.entries.get? path)

/-- A directory is stored at the path and lists the name. -/
def Lists (store : MemoryFiles) (path : Path) (name : String) : Prop :=
  (store.listing path).contains name = true

section Lists

variable {store : MemoryFiles} {path parent other : Path} {entry : StoredEntry} {name word : String}

theorem isEmpty_listing_iff :
    (store.listing path).isEmpty = true ↔ ∀ name, ¬ store.Lists path name := by
  simp [Table.isEmpty_iff, Lists]

theorem Lists.isDirectory (lists : store.Lists path name) : store.isDirectory path = true := by
  unfold Lists listing namesOf at lists
  split at lists
  · next names found => exact isDirectory_iff.2 ⟨names, found⟩
  · simp [Table.empty, Table.contains] at lists

theorem Lists.contains (lists : store.Lists path name) : store.contains path = true := by
  obtain ⟨names, found⟩ := isDirectory_iff.1 lists.isDirectory
  exact contains_iff.2 ⟨_, found⟩

theorem isFile_iff :
    store.isFile path = true ↔ ∃ content, store.entries.get? path = some (.file content) := by
  unfold isFile
  split
  · next content found => simp [found]
  · next other =>
    refine iff_of_false (by simp) ?_
    rintro ⟨content, found⟩
    exact other content found

/-! ## Spellings -/

theorem get?_of_components_eq (same : other.components = path.components) :
    store.entries.get? other = store.entries.get? path :=
  store.entries.get?_of_same ((Path.same_iff _ _).2 same)

theorem lists_congr (same : other.components = path.components) :
    store.Lists other name ↔ store.Lists path name := by
  rw [Lists, Lists, listing, listing, get?_of_components_eq same]

theorem isFile_congr (same : other.components = path.components) :
    store.isFile other = store.isFile path := by
  rw [isFile, isFile, get?_of_components_eq same]

/-! ## Single changes -/

theorem get?_put (store : MemoryFiles) (path other : Path) (entry : StoredEntry) :
    (store.put path entry).entries.get? other =
      if other.components = path.components then some entry else store.entries.get? other := by
  simp only [put, Table.get?_insert, Path.compare_eq_iff]

theorem contains_put : (store.put path entry).contains other = true ↔
    other.components = path.components ∨ store.contains other = true := by
  rw [contains_iff, contains_iff, get?_put]
  split <;> simp [*]

/-- What is put somewhere replaces what was listed there. -/
theorem lists_put (bare : namesOf (some entry) = Table.empty) :
    (store.put path entry).Lists other name ↔
      other.components ≠ path.components ∧ store.Lists other name := by
  rw [Lists, Lists, listing, listing, get?_put]
  split
  · next same => simp [bare, same, Table.empty, Table.contains]
  · next apart => simp [apart]

theorem contains_link : (store.link parent path).contains other = store.contains other := by
  unfold link
  split
  · rfl
  · simp only [contains, Table.contains_eq_isSome_get?, Table.get?_modify]
    split <;> simp

theorem lists_link (named : path.fileName? = some name) (directory : store.isDirectory parent = true) :
    (store.link parent path).Lists other word ↔
      store.Lists other word ∨ other.components = parent.components ∧ word = name := by
  obtain ⟨names, found⟩ := isDirectory_iff.1 directory
  rw [Lists, Lists, listing, listing, link, named]
  simp only [Table.get?_modify, Path.compare_eq_iff]
  split
  · next same =>
    rw [get?_of_components_eq same, found]
    simp [namesOf, same, or_comm]
  · next apart => simp [apart]

theorem contains_unlink : (store.unlink parent path).contains other = store.contains other := by
  unfold unlink
  split
  · rfl
  · simp only [contains, Table.contains_eq_isSome_get?, Table.get?_modify]
    split <;> simp

theorem lists_unlink (named : path.fileName? = some name) :
    (store.unlink parent path).Lists other word ↔
      store.Lists other word ∧ ¬ (other.components = parent.components ∧ word = name) := by
  rw [Lists, Lists, listing, listing, unlink, named]
  simp only [Table.get?_modify, Path.compare_eq_iff]
  split
  · next same =>
    rcases store.entries.get? other with - | ⟨content | names⟩
    · simp [namesOf, Table.empty, Table.contains]
    · simp [namesOf, Table.empty, Table.contains]
    · simp [namesOf, same, and_comm]
  · next apart => simp [apart]

theorem contains_erase : contains ⟨store.entries.erase path⟩ other = true ↔
    other.components ≠ path.components ∧ store.contains other = true := by
  rw [contains_iff, contains_iff]
  simp only [Table.get?_erase, Path.compare_eq_iff]
  split <;> simp [*]

theorem lists_erase : Lists ⟨store.entries.erase path⟩ other name ↔
    other.components ≠ path.components ∧ store.Lists other name := by
  rw [Lists, Lists, listing, listing]
  simp only [Table.get?_erase, Path.compare_eq_iff]
  split
  · next same => simp [same, namesOf, Table.empty, Table.contains]
  · next apart => simp [apart]

end Lists

/-! ## Places of rooted paths -/

/-- A rooted path is listed by its parent. -/
theorem holder?_of_rooted {path : Path} (rooted : path.IsRooted) : holder? path = path.parent? := by
  rcases rooted.cases with ⟨top, -⟩ | ⟨parent, name, isParent, above, -⟩
  · rw [holder?, top, Option.map_none]
  · have notEmpty : parent.isEmpty = false := by
      have written : parent.text ≠ "" := mt Path.components_eq_nil_iff.2 above.components_ne_nil
      simpa [Path.isEmpty, String.isEmpty_iff] using written
    simp [holder?, isParent, notEmpty]

theorem fileName?_of_components {path : Path} {front : List Component} {name : String}
    (shape : path.components = front ++ [.name name]) : path.fileName? = some name := by
  rw [Path.fileName?, shape, List.getLast?_concat]

theorem append_name_inj {front back : List Component} {name word : String} :
    front ++ [.name word] = back ++ [.name name] ↔ front = back ∧ word = name := by
  simp [← List.concat_eq_append, List.concat_inj]

/-- A path is longer than what it begins with one step before its end. -/
theorem ne_of_prefix_of_append {front middle back : List Component} {name : String}
    (begins : front <+: middle) (shape : back = middle ++ [.name name]) : front ≠ back := by
  intro same
  have short := begins.length_le
  rw [same, shape, List.length_append, List.length_singleton] at short
  omega

theorem components_ne_of_append {front back : List Component} {name : String}
    (shape : back = front ++ [.name name]) : front ≠ back :=
  ne_of_prefix_of_append List.prefix_rfl shape

/-! ## The way to a directory -/

section Way

variable {store : MemoryFiles} {path : Path} {count : Nat}

theorem Frame.isDirectory {wrote made : Path → Prop} {before after : MemoryFiles}
    (frame : Frame wrote made before after) (directory : before.isDirectory path = true) :
    after.isDirectory path = true := by
  obtain ⟨names, found⟩ := isDirectory_iff.1 directory
  obtain ⟨more, later, -⟩ := frame.directory found
  exact isDirectory_iff.2 ⟨more, later⟩

/-- What making a directory with all those above it comes to. -/
theorem ensureDirectory_cases (rooted : path.IsRooted) (count : Nat) (store : MemoryFiles) :
    (store.contains path = true ∧ ensureDirectory (count + 1) store path = store) ∨
    (store.contains path = false ∧ path.components = [.root] ∧
      ensureDirectory (count + 1) store path = store.put path (.directory Table.empty)) ∨
    ∃ parent name, store.contains path = false ∧ parent.IsRooted ∧
      path.components = parent.components ++ [.name name] ∧
      ensureDirectory (count + 1) store path =
        (ensureDirectory count (store.put path (.directory Table.empty)) parent).link parent path := by
  cases there : store.contains path with
  | true => exact .inl ⟨rfl, by rw [ensureDirectory, if_pos there]⟩
  | false =>
    refine .inr ?_
    rw [ensureDirectory, if_neg (by simp [there]), holder?_of_rooted rooted]
    rcases rooted.cases with ⟨top, root⟩ | ⟨parent, name, isParent, above, -, shape⟩
    · exact .inl ⟨rfl, root, by rw [top]⟩
    · have apart : ¬ parent.same path = true := by
        rw [Path.same_iff]
        exact components_ne_of_append shape
      exact .inr ⟨parent, name, rfl, above, shape, by simp only [isParent, if_neg apart]⟩

/-- Nothing is made but what the path begins with. -/
theorem frame_ensureDirectory {wrote : Path → Prop} (rooted : path.IsRooted) (count : Nat)
    (store : MemoryFiles) :
    Frame wrote (fun other => path.startsWith other = true) store
      (ensureDirectory count store path) := by
  induction count generalizing store path with
  | zero => exact .refl _
  | succ count ih =>
    have made (absent : store.contains path = false) :
        Frame wrote (fun other => path.startsWith other = true) store
          (store.put path (.directory Table.empty)) :=
      (frame_put_directory absent).mono (fun _ => id) fun _ => startsWith_of_same
    rcases ensureDirectory_cases rooted count store with ⟨-, same⟩ | ⟨absent, -, done⟩ |
      ⟨parent, name, absent, above, shape, done⟩
    · rw [same]
      exact .refl _
    · rw [done]
      exact made absent
    · rw [done]
      refine (made absent).trans (((ih above _).mono (fun _ => id) fun other begins => ?_).trans
        (frame_link _ _ _))
      rw [Path.startsWith, List.isPrefixOf_iff_prefix] at begins ⊢
      exact begins.trans (shape ▸ List.prefix_append _ _)

/-- Where no file stands, a directory is made, or was there before. -/
theorem isDirectory_ensureDirectory (rooted : path.IsRooted) (count : Nat)
    (free : store.isFile path = false) :
    (ensureDirectory (count + 1) store path).isDirectory path = true := by
  have made : (store.put path (.directory Table.empty)).isDirectory path = true :=
    isDirectory_iff.2 ⟨_, by rw [get?_put, if_pos rfl]⟩
  rcases ensureDirectory_cases rooted count store with ⟨there, same⟩ | ⟨-, -, done⟩ |
    ⟨parent, name, -, above, -, done⟩
  · rw [same]
    exact (isDirectory_iff_isFile_eq_false there).2 free
  · rw [done]
    exact made
  · have frame : Frame (fun _ => False) (fun other => parent.startsWith other = true)
        (store.put path (.directory Table.empty))
        ((ensureDirectory count (store.put path (.directory Table.empty)) parent).link parent path) :=
      (frame_ensureDirectory above count _).trans (frame_link _ _ _)
    rw [done]
    exact frame.isDirectory made

/-- As far as the way to a path is stored, no file stands on it and each directory lists the
next name. -/
structure Paved (store : MemoryFiles) (path : Path) : Prop where
  free : ∀ above : Path, above.components ≠ [] → above.components <+: path.components →
    store.isFile above = false
  listed : ∀ above : Path, above.components <+: path.components → store.contains above = true →
    ∀ (other : Path) (name : String),
      other.components ++ [.name name] <+: above.components → store.Lists other name

/-- The way to the path is stored and listed now, and all else is as before. -/
structure Grown (store after : MemoryFiles) (path : Path) : Prop where
  contains : ∀ other : Path, after.contains other = true ↔ store.contains other = true ∨
    other.components ≠ [] ∧ other.components <+: path.components
  lists : ∀ (other : Path) (name : String), after.Lists other name ↔ store.Lists other name ∨
    other.components ++ [.name name] <+: path.components

/-- A paved way that is there needs no growth. -/
theorem grown_of_contains (rooted : path.IsRooted) (paved : store.Paved path)
    (there : store.contains path = true) : Grown store store path where
  contains other := by
    refine ⟨.inl, ?_⟩
    rintro (held | ⟨some_, front⟩)
    · exact held
    · by_cases same : other.components = path.components
      · exact (contains_congr ((Path.same_iff other path).2 same)).trans there
      · obtain ⟨name, step⟩ := rooted.exists_step some_ front same
        exact (paved.listed path List.prefix_rfl there other name step).contains
  lists other name :=
    ⟨.inl, fun lists => lists.elim id (paved.listed path List.prefix_rfl there other name)⟩

/-- A new directory does not lie on the way to its parent. -/
theorem Paved.put {parent : Path} {name : String} (paved : store.Paved path)
    (shape : path.components = parent.components ++ [.name name]) :
    (store.put path (.directory Table.empty)).Paved parent := by
  have apart {other : Path} (above : other.components <+: parent.components) :
      other.components ≠ path.components := ne_of_prefix_of_append above shape
  have longer : parent.components <+: path.components := shape ▸ List.prefix_append _ _
  constructor
  · intro above some_ front
    rw [isFile, get?_put, if_neg (apart front)]
    exact paved.free above some_ (front.trans longer)
  · intro above front there other name step
    rw [contains_put, or_iff_right (apart front)] at there
    rw [lists_put rfl]
    exact ⟨apart ((List.prefix_append _ _).trans (step.trans front)),
      paved.listed above (front.trans longer) there other name step⟩

/-- Where nothing is, nothing is listed that could be lost. -/
theorem lists_put_of_absent (absent : store.contains path = false) {other : Path} {name : String} :
    (store.put path (.directory Table.empty)).Lists other name ↔ store.Lists other name := by
  rw [lists_put rfl]
  refine and_iff_right_of_imp fun lists same => ?_
  rw [(lists_congr same).1 lists |>.contains] at absent
  cases absent

/-- The root is the whole way to itself. -/
theorem grown_put_root (root : path.components = [.root]) (absent : store.contains path = false) :
    Grown store (store.put path (.directory Table.empty)) path where
  contains other := by
    rw [contains_put, root, List.prefix_cons_iff]
    simp only [List.prefix_nil]
    grind
  lists other name := by
    rw [lists_put_of_absent absent, or_iff_left (Path.not_step_of_root root)]

/-- The way to the parent and the link to the path are the way to the path. -/
theorem Grown.link {after : MemoryFiles} {parent : Path} {name : String}
    (grown : Grown (store.put path (.directory Table.empty)) after parent)
    (absent : store.contains path = false)
    (shape : path.components = parent.components ++ [.name name])
    (directory : after.isDirectory parent = true) :
    Grown store (after.link parent path) path where
  contains other := by
    have some_ : other.components = parent.components ++ [.name name] → other.components ≠ [] := by
      rintro same
      simp [same]
    rw [contains_link, grown.contains, contains_put, shape, List.prefix_concat_iff]
    tauto
  lists other word := by
    rw [lists_link (fileName?_of_components shape) directory, grown.lists,
      lists_put_of_absent absent, shape, List.prefix_concat_iff, append_name_inj]
    tauto

/-- Making a directory with all those above it grows the way to it, if that is paved. -/
theorem grown_ensureDirectory (rooted : path.IsRooted) (paved : store.Paved path)
    (enough : path.components.length ≤ count) :
    Grown store (ensureDirectory count store path) path := by
  induction count generalizing store path with
  | zero => exact absurd (List.length_eq_zero_iff.1 (Nat.le_zero.1 enough)) rooted.components_ne_nil
  | succ count ih =>
    rcases ensureDirectory_cases rooted count store with ⟨there, same⟩ | ⟨absent, root, done⟩ |
      ⟨parent, name, absent, above, shape, done⟩
    · rw [same]
      exact grown_of_contains rooted paved there
    · rw [done]
      exact grown_put_root root absent
    -- the directory is stored before the way to it: its parent is paved without it, and the
    -- link closes the gap
    · have pavedAbove := paved.put shape
      have enoughAbove : parent.components.length ≤ count := by simpa [shape] using enough
      obtain ⟨less, rfl⟩ : ∃ less, count = less + 1 :=
        Nat.exists_eq_add_one.2 ((List.length_pos_iff.2 above.components_ne_nil).trans_le enoughAbove)
      rw [done]
      have directory := isDirectory_ensureDirectory above less
        (pavedAbove.free parent above.components_ne_nil List.prefix_rfl)
      exact (ih above pavedAbove enoughAbove).link absent shape directory

end Way

end MemoryFiles

end Bundler
