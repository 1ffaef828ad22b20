import Bundler.Proofs.Path.Parents
import Bundler.Proofs.PathOrder
import Bundler.Storage.Memory

/-!
# Directories of a store

Making directories and writing files adds to a store and takes nothing away:
`MemoryFiles.Frame` says what may be written and made, and that all else stays as it is.
`mkdirp` makes nothing but the way to its path, and does nothing once that is there. A file
that `Lies` in a store, with its directory and its name in the listing, may be written
again without a change.
-/

namespace Bundler

/-- Two spellings of one path find the same in a table. -/
theorem Table.get?_of_same {β : Type} (table : Table Path β) {left right : Path}
    (same : left.same right = true) : table.get? left = table.get? right :=
  table.get?_congr ((Path.compare_eq_iff left right).2 ((Path.same_iff left right).1 same))

/-- What becomes of the entry at a path: it stays, a directory lists more names, a directory
is made where nothing was, or a file is written where no directory was. -/
inductive StoredEntry.Turns (wrote made : Prop) :
    Option StoredEntry → Option StoredEntry → Prop where
  | file (content : ByteArray) : Turns wrote made (some (.file content)) (some (.file content))
  | absent : Turns wrote made none none
  | listed {names more : Table String Unit}
      (kept : ∀ name, names.contains name = true → more.contains name = true) :
      Turns wrote made (some (.directory names)) (some (.directory more))
  | made {names : Table String Unit} (allowed : made) :
      Turns wrote made none (some (.directory names))
  | written {content : ByteArray} {before : Option StoredEntry}
      (notDirectory : ∀ names, before ≠ some (.directory names)) (allowed : wrote) :
      Turns wrote made before (some (.file content))

namespace StoredEntry.Turns

variable {wrote made : Prop} {before middle after : Option StoredEntry}

theorem refl (entry : Option StoredEntry) : Turns wrote made entry entry := by
  match entry with
  | none => exact .absent
  | some (.file content) => exact .file content
  | some (.directory names) => exact .listed fun _ held => held

theorem trans (first : Turns wrote made before middle) (second : Turns wrote made middle after) :
    Turns wrote made before after := by
  cases first with
  | file content =>
    cases second with
    | file => exact .file content
    | written _ allowed => exact .written (by simp) allowed
  | absent => exact second
  | listed kept =>
    cases second with
    | listed more => exact .listed fun name held => more name (kept name held)
    | written notDirectory => exact absurd rfl (notDirectory _)
  | made allowed =>
    cases second with
    | listed => exact .made allowed
    | written notDirectory => exact absurd rfl (notDirectory _)
  | written notDirectory allowed =>
    cases second with
    | file => exact .written notDirectory allowed
    | written => exact .written notDirectory allowed

theorem mono {moreWrote moreMade : Prop} (writing : wrote → moreWrote) (making : made → moreMade)
    (turns : Turns wrote made before after) : Turns moreWrote moreMade before after := by
  cases turns with
  | file content => exact .file content
  | absent => exact .absent
  | listed kept => exact .listed kept
  | made allowed => exact .made (making allowed)
  | written notDirectory allowed => exact .written notDirectory (writing allowed)

end StoredEntry.Turns

/-- The names that an entry lists stand in order. -/
def StoredEntry.Ordered : StoredEntry → Prop
  | .file _ => True
  | .directory names => names.Sorted

namespace MemoryFiles

/-- `write` as an action on a changing store. -/
def writeAction (path : Path) (content : ByteArray) :
    StateM MemoryFiles (Except FileFault Unit) := fun store =>
  match store.write path content with
  | .ok store => (.ok (), store)
  | .error fault => (.error fault, store)

/-! ## What stays -/

/-- Files were written only where `wrote` says so, directories made only where `made` says
so, and nothing was taken away. -/
def Frame (wrote made : Path → Prop) (before after : MemoryFiles) : Prop :=
  ∀ path, StoredEntry.Turns (wrote path) (made path) (before.entries.get? path)
    (after.entries.get? path)

section Frame

variable {wrote made : Path → Prop} {before middle after store : MemoryFiles} {path : Path}

theorem contains_iff : store.contains path = true ↔ ∃ entry, store.entries.get? path = some entry := by
  rw [contains, Table.contains_eq_isSome_get?, Option.isSome_iff_exists]

theorem contains_congr {left right : Path} (same : left.same right = true) :
    store.contains left = store.contains right := by
  rw [contains, contains, Table.contains_eq_isSome_get?, Table.contains_eq_isSome_get?,
    store.entries.get?_of_same same]

theorem isDirectory_iff :
    store.isDirectory path = true ↔ ∃ names, store.entries.get? path = some (.directory names) := by
  unfold isDirectory
  split
  · next names found => simp [found]
  · next other =>
    refine iff_of_false (by simp) ?_
    rintro ⟨names, found⟩
    exact other names found

theorem read_eq_ok_iff {content : ByteArray} :
    store.read path = .ok content ↔ store.entries.get? path = some (.file content) := by
  unfold read
  split
  · next held found => simp [found]
  · next names found => simp [found]
  · next none => simp [none]

theorem Frame.refl (store : MemoryFiles) : Frame wrote made store store :=
  fun _ => .refl _

theorem Frame.trans (first : Frame wrote made before middle) (second : Frame wrote made middle after) :
    Frame wrote made before after :=
  fun path => (first path).trans (second path)

theorem Frame.mono {moreWrote moreMade : Path → Prop} (writing : ∀ path, wrote path → moreWrote path)
    (making : ∀ path, made path → moreMade path) (frame : Frame wrote made before after) :
    Frame moreWrote moreMade before after :=
  fun path => (frame path).mono (writing path) (making path)

/-- Whatever is there stays there. -/
theorem Frame.contains (frame : Frame wrote made before after)
    (there : before.contains path = true) : after.contains path = true := by
  obtain ⟨entry, found⟩ := contains_iff.1 there
  have turns := frame path
  rw [contains_iff]
  rw [found] at turns
  generalize after.entries.get? path = later at turns ⊢
  cases turns with
  | file content => exact ⟨_, rfl⟩
  | listed => exact ⟨_, rfl⟩
  | written => exact ⟨_, rfl⟩

/-- A directory stays one, and lists what it listed. -/
theorem Frame.directory (frame : Frame wrote made before after) {names : Table String Unit}
    (found : before.entries.get? path = some (.directory names)) :
    ∃ more, after.entries.get? path = some (.directory more) ∧
      ∀ name, names.contains name = true → more.contains name = true := by
  have turns := frame path
  generalize held : after.entries.get? path = later at turns ⊢
  rw [found] at turns
  cases turns with
  | listed kept => exact ⟨_, rfl, kept⟩
  | written notDirectory => exact absurd rfl (notDirectory _)

/-- Where nothing is written, the same files are there as before. -/
theorem Frame.file (frame : Frame wrote made before after) (kept : ¬ wrote path)
    (content : ByteArray) : after.entries.get? path = some (.file content) ↔
      before.entries.get? path = some (.file content) := by
  have turns := frame path
  generalize before.entries.get? path = earlier at turns ⊢
  generalize after.entries.get? path = later at turns ⊢
  cases turns with
  | file => rfl
  | absent => simp
  | listed => simp
  | made => simp
  | written _ allowed => exact absurd allowed kept

/-- What is new was written, or is a directory that was made. -/
theorem Frame.entry (frame : Frame wrote made before after) (there : after.contains path = true) :
    before.contains path = true ∨ wrote path ∨ after.isDirectory path = true ∧ made path := by
  have turns := frame path
  rw [contains_iff] at there ⊢
  rw [isDirectory_iff]
  generalize before.entries.get? path = earlier at turns ⊢
  generalize after.entries.get? path = later at turns there ⊢
  cases turns with
  | file content => exact .inl ⟨_, rfl⟩
  | absent => exact .inl there
  | listed => exact .inl ⟨_, rfl⟩
  | made allowed => exact .inr (.inr ⟨⟨_, rfl⟩, allowed⟩)
  | written _ allowed => exact .inr (.inl allowed)

/-- Listing a name changes nothing but a listing. -/
theorem frame_link (store : MemoryFiles) (parent child : Path) :
    Frame wrote made store (store.link parent child) := by
  intro path
  unfold link
  split
  · exact .refl _
  · next name _ =>
    rw [Table.get?_modify]
    split
    · match store.entries.get? path with
      | none => exact .absent
      | some (.file content) => exact .file content
      | some (.directory names) => exact .listed fun other held => by simp [held]
    · exact .refl _

theorem frame_put_directory {names : Table String Unit} (absent : store.contains path = false) :
    Frame wrote (fun other => other.same path = true) store (store.put path (.directory names)) := by
  intro other
  rw [put, Table.get?_insert]
  split
  · next equal =>
    have same := (Path.same_iff other path).2 ((Path.compare_eq_iff other path).1 equal)
    rw [contains, Table.contains_eq_isSome_get?, Option.isSome_eq_false_iff,
      Option.isNone_iff_eq_none] at absent
    rw [store.entries.get?_of_same same, absent]
    exact .made same
  · exact .refl _

theorem frame_put_file {content : ByteArray} (notDirectory : store.isDirectory path = false) :
    Frame (fun other => other.same path = true) made store (store.put path (.file content)) := by
  intro other
  rw [put, Table.get?_insert]
  split
  · next equal =>
    have same := (Path.same_iff other path).2 ((Path.compare_eq_iff other path).1 equal)
    refine .written (fun names found => ?_) same
    rw [store.entries.get?_of_same same] at found
    rw [isDirectory_iff.2 ⟨names, found⟩] at notDirectory
    cases notDirectory
  · exact .refl _

end Frame

/-! ## Single operations -/

section Operations

variable {store after : MemoryFiles} {path : Path} {content : ByteArray}

/-- What making a directory can come to. -/
theorem mkdir_cases (store : MemoryFiles) (path : Path) :
    (store.contains path = true ∧ store.mkdir path = .error (.exists path)) ∨
    (∃ fault, fault.kind ≠ .alreadyExists ∧ store.mkdir path = .error fault) ∨
      ∃ parent, store.contains path = false ∧
        store.mkdir path = .ok ((store.put path (.directory Table.empty)).link parent path) := by
  unfold mkdir
  split
  · next there => exact .inl ⟨there, rfl⟩
  · next absent =>
    split
    · exact .inr (.inl ⟨_, by simp [FileFault.kind], rfl⟩)
    · split
      · exact .inr (.inl ⟨_, by simp [FileFault.kind], rfl⟩)
      · exact .inr (.inl ⟨_, by simp [FileFault.kind], rfl⟩)
      · exact .inr (.inr ⟨_, by simpa using absent, rfl⟩)

/-- A file is written into a directory that is there, and not over one. -/
theorem write_eq_ok_iff : store.write path content = .ok after ↔
    ∃ parent, holder? path = some parent ∧ store.isDirectory parent = true ∧
      store.isDirectory path = false ∧
      after = (store.put path (.file content)).link parent path := by
  unfold write
  split
  · next none => simp [none]
  · next parent isHolder =>
    by_cases above : store.isDirectory parent = true
    · by_cases taken : store.isDirectory path = true
      · simp [isHolder, above, taken]
      · simp only [above, taken, isHolder, Bool.not_true, Bool.false_eq_true, if_false,
          Except.ok.injEq, Option.some.injEq, exists_eq_left', true_and]
        exact eq_comm
    · simp [isHolder, above]

theorem frame_mkdirAction {wrote : Path → Prop} (path : Path) (store : MemoryFiles) :
    Frame wrote (fun other => other.same path = true) store (mkdirAction path store).2 := by
  unfold mkdirAction
  rcases mkdir_cases store path with ⟨-, made⟩ | ⟨fault, -, made⟩ | ⟨parent, absent, made⟩
  · rw [made]
    exact .refl _
  · rw [made]
    exact .refl _
  · rw [made]
    exact (frame_put_directory absent).trans (frame_link _ _ _)

theorem frame_write {made : Path → Prop} (written : store.write path content = .ok after) :
    Frame (fun other => other.same path = true) made store after := by
  obtain ⟨parent, -, -, notDirectory, rfl⟩ := write_eq_ok_iff.1 written
  exact (frame_put_file notDirectory).trans (frame_link _ _ _)

theorem mkdirAction_of_contains (there : store.contains path = true) :
    mkdirAction path store = (.error (.exists path), store) := by
  rw [mkdirAction, mkdir, if_pos there]

/-- A directory that counts as made is there. -/
theorem contains_of_made (made : madeOrThere (mkdirAction path store).1 = .ok ()) :
    (mkdirAction path store).2.contains path = true := by
  unfold mkdirAction at made ⊢
  rcases mkdir_cases store path with ⟨there, refused⟩ | ⟨fault, kind, refused⟩ | ⟨parent, -, done⟩
  · rw [refused]
    exact there
  · rw [refused] at made
    simp [madeOrThere, kind] at made
  · rw [done]
    have linked : Frame (fun _ => False) (fun _ => False)
        (store.put path (.directory Table.empty)) (link _ parent path) := frame_link _ parent path
    refine linked.contains ?_
    rw [contains_iff]
    exact ⟨_, Table.get?_insert_self _ _ _⟩

end Operations

/-! ## The way to a directory -/

section Way

variable {store : MemoryFiles} {path parent : Path}

/-- Two actions in a row, one store after the other. -/
theorem run_bind {α β : Type} (action : StateM MemoryFiles α) (next : α → StateM MemoryFiles β) :
    (action >>= next).run store = (next (action.run store).1).run (action.run store).2 := rfl

/-- The directory that is tried next is the parent. -/
theorem parent_of_missingAbove {attempt : Except FileFault Unit}
    (above : missingAbove? path attempt = some parent) : path.parent? = some parent := by
  unfold missingAbove? at above
  split at above
  · cases above
  · split at above
    · exact (Option.filter_eq_some_iff.1 above).1
    · cases above

/-- What begins like a path begins like its parent, or is the path. -/
theorem startsWith_of_parent (isParent : path.parent? = some parent) {other : Path}
    (begins : parent.startsWith other = true) : path.startsWith other = true := by
  obtain ⟨last, -, shape⟩ := Path.components_parent isParent
  rw [Path.startsWith, List.isPrefixOf_iff_prefix] at begins ⊢
  rw [shape]
  exact begins.trans (List.prefix_append _ _)

theorem startsWith_of_same {other : Path} (same : other.same path = true) :
    path.startsWith other = true := by
  have texts := (Path.same_iff other path).1 same
  exact List.isPrefixOf_iff_prefix.2 (texts ▸ List.prefix_rfl)

theorem frame_attempt {wrote : Path → Prop} (path : Path) (store : MemoryFiles) :
    Frame wrote (fun other => path.startsWith other = true) store (mkdirAction path store).2 :=
  (frame_mkdirAction path store).mono (fun _ => id) fun _ => startsWith_of_same

/-- Nothing is made but what the path begins with. -/
theorem frame_mkdirp {wrote : Path → Prop} (count : Nat) (path : Path) (store : MemoryFiles) :
    Frame wrote (fun other => path.startsWith other = true) store
      ((mkdirp mkdirAction count path).run store).2 := by
  induction count generalizing path store with
  | zero => exact frame_attempt path store
  | succ count ih =>
    rw [mkdirp, run_bind]
    cases above : missingAbove? path ((mkdirAction path).run store).1 with
    | none => exact frame_attempt path store
    | some parent =>
      have isParent := parent_of_missingAbove above
      have upper : Frame wrote (fun other => path.startsWith other = true)
          ((mkdirAction path).run store).2
          ((mkdirp mkdirAction count parent).run ((mkdirAction path).run store).2).2 :=
        (ih parent _).mono (fun _ => id) fun _ => startsWith_of_parent isParent
      refine (frame_attempt path store).trans ?_
      dsimp only
      rw [run_bind]
      cases ((mkdirp mkdirAction count parent).run ((mkdirAction path).run store).2).1 with
      | error fault => exact upper
      | ok value => exact upper.trans (frame_attempt path _)

/-- A directory that is made with all those above it is there. -/
theorem contains_of_mkdirp {count : Nat}
    (made : ((mkdirp mkdirAction count path).run store).1 = .ok ()) :
    ((mkdirp mkdirAction count path).run store).2.contains path = true := by
  cases count with
  | zero => exact contains_of_made made
  | succ count =>
    rw [mkdirp, run_bind] at made ⊢
    cases above : missingAbove? path ((mkdirAction path).run store).1 with
    | none =>
      rw [above] at made
      exact contains_of_made made
    | some parent =>
      rw [above] at made
      dsimp only at made ⊢
      rw [run_bind] at made ⊢
      cases upper : ((mkdirp mkdirAction count parent).run ((mkdirAction path).run store).2).1 with
      | error fault =>
        rw [upper] at made
        cases made
      | ok value =>
        rw [upper] at made
        exact contains_of_made made

/-- What is there needs not be made. -/
theorem mkdirp_of_contains (there : store.contains path = true) (count : Nat) :
    (mkdirp mkdirAction count path).run store = (.ok (), store) := by
  have refused : (mkdirAction path).run store = (.error (.exists path), store) :=
    mkdirAction_of_contains there
  cases count with
  | zero =>
    rw [mkdirp, run_bind, refused]
    rfl
  | succ count =>
    rw [mkdirp, run_bind, refused]
    rfl

end Way

/-! ## Stores in order -/

/-- The paths of a store stand in order, and so do the names in every listing. -/
structure Ordered (store : MemoryFiles) : Prop where
  entries : store.entries.Sorted
  listings : ∀ entry ∈ store.entries.entries, entry.2.Ordered

section Ordered

variable {store : MemoryFiles}

theorem ordered_empty : empty.Ordered where
  entries := (Table.sorted_empty.insert _ _).insert _ _
  listings := Table.forall_values_insert
    (Table.forall_values_insert (by simp [Table.empty]) Table.sorted_empty) Table.sorted_empty

/-- What is found in a store lists its names in order. -/
theorem Ordered.listing (ordered : store.Ordered) {path : Path} {names : Table String Unit}
    (found : store.entries.get? path = some (.directory names)) : names.Sorted := by
  obtain ⟨entry, search, held⟩ := Option.map_eq_some_iff.1 found
  have listing := ordered.listings entry (List.mem_of_find?_eq_some search)
  rwa [held] at listing

theorem Ordered.put (ordered : store.Ordered) (path : Path) {entry : StoredEntry}
    (listing : entry.Ordered) : (store.put path entry).Ordered where
  entries := ordered.entries.insert _ _
  listings := Table.forall_values_insert ordered.listings listing

theorem Ordered.modify (ordered : store.Ordered) (path : Path) {change : StoredEntry → StoredEntry}
    (keeps : ∀ entry, entry.Ordered → (change entry).Ordered) :
    Ordered ⟨store.entries.modify path change⟩ where
  entries := ordered.entries.modify _ _
  listings entry member := by
    obtain ⟨old, inside, rfl⟩ := List.mem_map.1 member
    have listing := ordered.listings old inside
    split
    · exact keeps _ listing
    · exact listing

theorem Ordered.link (ordered : store.Ordered) (parent child : Path) :
    (store.link parent child).Ordered := by
  unfold MemoryFiles.link
  split
  · exact ordered
  · refine ordered.modify parent fun entry listing => ?_
    cases entry with
    | file content => trivial
    | directory names => exact Table.Sorted.insert listing _ _

theorem Ordered.unlink (ordered : store.Ordered) (parent child : Path) :
    (store.unlink parent child).Ordered := by
  unfold MemoryFiles.unlink
  split
  · exact ordered
  · refine ordered.modify parent fun entry listing => ?_
    cases entry with
    | file content => trivial
    | directory names => exact Table.Sorted.erase listing _

theorem Ordered.ensureDirectory {count : Nat} {path : Path} (ordered : store.Ordered) :
    (ensureDirectory count store path).Ordered := by
  induction count generalizing store path with
  | zero => exact ordered
  | succ count ih =>
    rw [MemoryFiles.ensureDirectory]
    have made : (store.put path (.directory Table.empty)).Ordered :=
      ordered.put path Table.sorted_empty
    split
    · exact ordered
    · split
      · exact made
      · split
        · exact made
        · exact (ih made).link _ _

theorem Ordered.addFile (ordered : store.Ordered) (path : Path) (content : ByteArray) :
    (store.addFile path content).Ordered := by
  unfold MemoryFiles.addFile
  refine Ordered.put ?_ path trivial
  split
  · exact ordered
  · exact ordered.ensureDirectory.link _ _

theorem Ordered.remove (ordered : store.Ordered) (path : Path) : (store.remove path).2.Ordered := by
  have removed : Ordered ⟨store.entries.erase path⟩ :=
    ⟨ordered.entries.erase path, fun entry member =>
      ordered.listings entry (List.mem_of_mem_filter member)⟩
  unfold MemoryFiles.remove
  dsimp only
  split
  · exact removed
  · exact removed.unlink _ _

theorem Ordered.mkdirAction (ordered : store.Ordered) (path : Path) :
    (mkdirAction path store).2.Ordered := by
  unfold MemoryFiles.mkdirAction
  rcases mkdir_cases store path with ⟨-, made⟩ | ⟨fault, -, made⟩ | ⟨parent, -, made⟩
  · rw [made]
    exact ordered
  · rw [made]
    exact ordered
  · have listed : (store.put path (.directory Table.empty)).Ordered :=
      ordered.put path Table.sorted_empty
    rw [made]
    exact listed.link _ _

theorem Ordered.write (ordered : store.Ordered) {path : Path} {content : ByteArray}
    {after : MemoryFiles} (written : store.write path content = .ok after) : after.Ordered := by
  obtain ⟨parent, -, -, -, rfl⟩ := write_eq_ok_iff.1 written
  have held : (store.put path (.file content)).Ordered := ordered.put path trivial
  exact held.link _ _

theorem Ordered.mkdirp (ordered : store.Ordered) (count : Nat) (path : Path) :
    ((mkdirp MemoryFiles.mkdirAction count path).run store).2.Ordered := by
  induction count generalizing store path with
  | zero => exact ordered.mkdirAction path
  | succ count ih =>
    rw [Bundler.mkdirp, run_bind]
    have tried : ((MemoryFiles.mkdirAction path).run store).2.Ordered := ordered.mkdirAction path
    cases missingAbove? path ((MemoryFiles.mkdirAction path).run store).1 with
    | none => exact tried
    | some parent =>
      have upper := ih tried parent
      dsimp only
      rw [run_bind]
      cases ((Bundler.mkdirp MemoryFiles.mkdirAction count parent).run
        ((MemoryFiles.mkdirAction path).run store).2).1 with
      | error fault => exact upper
      | ok value => exact upper.mkdirAction path

end Ordered

/-! ## Files that lie in place -/

/-- The file is there with its content, its directory lists it, and the path above it is
there. -/
structure Lies (store : MemoryFiles) (path : Path) (content : ByteArray) : Prop where
  held : store.entries.get? path = some (.file content)
  above : ∀ directory, path.parent? = some directory → store.contains directory = true
  listed : ∃ parent names, holder? path = some parent ∧
    store.entries.get? parent = some (.directory names) ∧
    ∀ name, path.fileName? = some name → names.contains name = true

section Lies

variable {store before after : MemoryFiles} {path : Path} {content : ByteArray}

/-- A file stays in place where nothing else is written to its path. -/
theorem Lies.frame {wrote made : Path → Prop} (lies : before.Lies path content)
    (frame : Frame wrote made before after) (kept : ¬ wrote path) : after.Lies path content where
  held := (frame.file kept content).2 lies.held
  above directory isParent := frame.contains (lies.above directory isParent)
  listed := by
    obtain ⟨parent, names, isHolder, found, listed⟩ := lies.listed
    obtain ⟨more, later, kept⟩ := frame.directory found
    exact ⟨parent, more, isHolder, later, fun name named => kept name (listed name named)⟩

/-- A file that was written lies in its place. -/
theorem lies_of_write (written : store.write path content = .ok after)
    (above : ∀ directory, path.parent? = some directory → store.contains directory = true) :
    after.Lies path content := by
  obtain ⟨parent, isHolder, isAbove, notDirectory, rfl⟩ := write_eq_ok_iff.1 written
  obtain ⟨names, found⟩ := isDirectory_iff.1 isAbove
  have apart : compare parent path ≠ .eq := by
    intro equal
    have same := (Path.same_iff parent path).2 ((Path.compare_eq_iff parent path).1 equal)
    rw [store.entries.get?_of_same same] at found
    rw [isDirectory_iff.2 ⟨names, found⟩] at notDirectory
    cases notDirectory
  have kept : ((store.put path (.file content)).entries.get? parent) = some (.directory names) := by
    rw [put, Table.get?_insert_of_ne _ _ apart, found]
  have frame : Frame (fun _ => False) (fun _ => False) (store.put path (.file content))
      ((store.put path (.file content)).link parent path) := frame_link _ _ _
  refine ⟨(frame.file id content).2 (Table.get?_insert_self _ _ _), fun directory isParent => ?_, ?_⟩
  · have wrote : Frame (fun other => other.same path = true) (fun _ => False) store
        ((store.put path (.file content)).link parent path) := frame_write written
    exact wrote.contains (above directory isParent)
  · cases named : path.fileName? with
    | none =>
      refine ⟨parent, names, isHolder, ?_, by simp⟩
      rw [link, named]
      exact kept
    | some name =>
      refine ⟨parent, names.insert name (), isHolder, ?_, ?_⟩
      · rw [link, named]
        simp only [Table.get?_modify, kept, Std.ReflOrd.compare_self, if_true, Option.map_some]
      · intro other same
        obtain rfl := Option.some.inj same
        simp

/-- A file that lies in place can be written again, which changes nothing. -/
theorem Ordered.write_of_lies (ordered : store.Ordered) (lies : store.Lies path content) :
    store.write path content = .ok store := by
  obtain ⟨parent, names, isHolder, found, listed⟩ := lies.listed
  have same : store.put path (.file content) = store :=
    congrArg MemoryFiles.mk (ordered.entries.insert_eq_self lies.held)
  refine write_eq_ok_iff.2 ⟨parent, isHolder, isDirectory_iff.2 ⟨names, found⟩, ?_, ?_⟩
  · rw [isDirectory, lies.held]
  · rw [same, MemoryFiles.link]
    split
    · rfl
    · next name named =>
      have there : names.get? name = some () := by
        obtain ⟨value, held⟩ := Option.isSome_iff_exists.1
          ((names.contains_eq_isSome_get? name).symm.trans (listed name named))
        exact held
      refine (congrArg MemoryFiles.mk (ordered.entries.modify_eq_self found ?_)).symm
      exact congrArg StoredEntry.directory ((ordered.listing found).insert_eq_self there)

end Lies

end MemoryFiles

end Bundler
