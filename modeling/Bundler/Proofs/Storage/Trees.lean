import Bundler.Proofs.Storage.Listings

/-!
# Stores that are trees

In a tree whatever is stored is listed by its directory, and whatever is listed is stored
(`MemoryFiles.IsTree`). An edit settles one path: it stores it and lists it, or takes it out and off
the listing, and either way the path lists nothing of its own any more (`MemoryFiles.Settles`). So a
tree stays one exactly if nothing was listed there. `mkdir` and `write` refuse whatever would break
the tree; `addFile` and `remove` ask nothing, and `MemoryFiles.tree_kept_iff` says what must be
asked before them.
-/

namespace Bundler.MemoryFiles

open Cut (IsName)

/-- Every path but the two roots is listed by a directory that holds it, and every listed name
is stored below its directory. -/
structure IsTree (store : MemoryFiles) : Prop where
  placed : ∀ path, store.contains path = true →
    path.same (.of "/") = true ∨ path.same (.of ".") = true ∨
      ∃ parent name, holder? path = some parent ∧ path.fileName? = some name ∧
        store.Lists parent name
  held : ∀ path name, store.Lists path name → store.contains (path.join (.of name)) = true

/-! ## Stored and listed -/

/-- A path one name below a rooted one is stored exactly if its name is listed there. -/
def Matches (store : MemoryFiles) : Prop :=
  ∀ (parent child : Path) (name : String), parent.IsRooted →
    child.components = parent.components ++ [.name name] →
    (store.contains child = true ↔ store.Lists parent name)

/-- Stored and listed match, only rooted paths and `.` are stored, and only rooted paths list
names. -/
structure Tidy (store : MemoryFiles) : Prop where
  stored : ∀ path, store.contains path = true → path.IsRooted ∨ path.same (.of ".") = true
  listed : ∀ path name, store.Lists path name → path.IsRooted ∧ IsName name
  matching : store.Matches

section Trees

variable {store after : MemoryFiles} {path : Path}

theorem IsTree.matching (tree : store.IsTree) : store.Matches := by
  intro parent child name above shape
  have rooted := above.append shape
  constructor
  · intro there
    rcases tree.placed child there with root | here | ⟨other, word, isHolder, named, lists⟩
    · exact absurd shape.symm (Path.append_ne_of_root ((Path.same_iff child (.of "/")).1 root))
    · have absolute := Path.isAbsolute_iff_head?.1 rooted.absolute
      rw [(Path.same_iff _ _).1 here] at absolute
      cases absolute
    · rw [holder?_of_rooted rooted] at isHolder
      obtain ⟨last, -, split⟩ := Path.components_parent isHolder
      rw [fileName?_of_components shape] at named
      obtain rfl := Option.some.inj named
      have same := List.append_inj' (shape.symm.trans split) rfl
      exact (lists_congr same.1).2 lists
  · intro lists
    have member : .name name ∈ child.components := by simp [shape]
    have joined := above.components_join (Path.isName_of_mem_components member)
    rw [contains_congr ((Path.same_iff child (parent.join (.of name))).2 (shape.trans joined.symm))]
    exact tree.held parent name lists

theorem Tidy.isTree (tidy : store.Tidy) : store.IsTree where
  placed path there := by
    rcases tidy.stored path there with rooted | here
    · rcases rooted.cases with ⟨-, root⟩ | ⟨parent, name, isParent, above, -, shape⟩
      · exact .inl ((Path.same_iff _ _).2 root)
      · exact .inr (.inr ⟨parent, name, holder?_of_rooted rooted ▸ isParent,
          fileName?_of_components shape, (tidy.matching parent path name above shape).1 there⟩)
    · exact .inr (.inl here)
  held path name lists := by
    obtain ⟨rooted, isName⟩ := tidy.listed path name lists
    exact (tidy.matching path _ name rooted (rooted.components_join isName)).2 lists

/-- The two roots list nothing. -/
theorem tidy_empty : empty.Tidy := by
  have roots (path : Path) : empty.contains path = true ↔
      path.components = [.here] ∨ path.components = [.root] := by
    change (put (put ⟨Table.empty⟩ (.of "/") _) (.of ".") _).contains path = true ↔ _
    rw [contains_put, contains_put]
    exact or_congr_right (or_iff_left (by simp [contains, Table.empty, Table.contains]))
  have bare (path : Path) (name : String) : ¬ empty.Lists path name := by
    change ¬ (put (put ⟨Table.empty⟩ (.of "/") _) (.of ".") _).Lists path name
    rw [lists_put rfl, lists_put rfl]
    simp [Lists, listing, namesOf, Table.empty, Table.get?, Table.contains]
  refine ⟨fun path there => ?_, fun path name lists => absurd lists (bare path name), ?_⟩
  · rcases (roots path).1 there with here | root
    · exact .inr ((Path.same_iff _ _).2 here)
    · refine .inl ⟨Path.isAbsolute_iff_head?.2 (by rw [root]; rfl), by simp [root]⟩
  · intro parent child name _ shape
    have last : child.components.getLast? = some (.name name) := by rw [shape, List.getLast?_concat]
    refine iff_of_false (fun there => ?_) (bare parent name)
    rcases (roots child).1 there with here | root
    · simp [here] at last
    · simp [root] at last

/-- All that a stored path begins with is listed. -/
theorem Matches.lists_of_prefix (matching : store.Matches) (rooted : path.IsRooted)
    (there : store.contains path = true) {other : Path} {name : String}
    (step : other.components ++ [.name name] <+: path.components) : store.Lists other name := by
  induction length : path.components.length generalizing path with
  | zero => exact absurd (List.length_eq_zero_iff.1 length) rooted.components_ne_nil
  | succ length ih =>
    rcases rooted.cases with ⟨-, root⟩ | ⟨parent, word, -, above, -, shape⟩
    · exact absurd step (Path.not_step_of_root root)
    · have lists := (matching parent path word above shape).1 there
      rw [shape, List.prefix_concat_iff, append_name_inj] at step
      rcases step with ⟨same, rfl⟩ | step
      · exact (lists_congr same).2 lists
      · exact ih above lists.contains step (by simpa [shape] using length)

/-- In a tree the way to a path is paved, if no file stands on it. -/
theorem Matches.paved (matching : store.Matches) (rooted : path.IsRooted)
    (free : ∀ above ∈ path.ancestors, store.isFile above = false) : store.Paved path := by
  constructor
  · intro above some_ front
    obtain ⟨one, member, same⟩ := (rooted.exists_mem_ancestors_iff _).2 ⟨some_, front⟩
    rw [← isFile_congr same]
    exact free one member
  · intro above front there other name step
    have some_ : above.components ≠ [] := by
      intro nothing
      simp [nothing] at step
    exact matching.lists_of_prefix (rooted.of_prefix some_ front) there step

/-- A way that has grown leaves a tree a tree. -/
theorem Grown.tidy (grown : Grown store after path) (tidy : store.Tidy) (rooted : path.IsRooted) :
    after.Tidy := by
  constructor
  · intro other there
    rcases (grown.contains other).1 there with before | ⟨some_, front⟩
    · exact tidy.stored other before
    · exact .inl (rooted.of_prefix some_ front)
  · intro other name lists
    rcases (grown.lists other name).1 lists with before | step
    · exact tidy.listed other name before
    · exact rooted.of_step step
  · intro parent child name above shape
    rw [grown.contains, grown.lists, tidy.matching parent child name above shape, ← shape,
      and_iff_right (by simp [shape])]

/-! ## Settling a path -/

/-- The path is stored and listed from now on, or neither, and lists nothing itself. -/
structure Settles (store after : MemoryFiles) (path : Path) (there : Prop) : Prop where
  contains : ∀ other : Path, after.contains other = true ↔
    if other.components = path.components then there else store.contains other = true
  lists : ∀ (other : Path) (name : String), after.Lists other name ↔
    other.components ≠ path.components ∧
      if other.components ++ [.name name] = path.components then there
      else store.Lists other name

variable {there : Prop}

/-- Where nothing was listed, settling a path leaves a tree a tree. -/
theorem Settles.tidy (settles : Settles store after path there) (tidy : store.Tidy)
    (rooted : path.IsRooted) (bare : ∀ name, ¬ store.Lists path name) : after.Tidy := by
  constructor
  · intro other held
    have before := (settles.contains other).1 held
    split at before
    · next same => exact .inl (rooted.congr same)
    · exact tidy.stored other before
  · intro other name lists
    obtain ⟨-, before⟩ := (settles.lists other name).1 lists
    split at before
    · next step => exact rooted.of_step (step ▸ List.prefix_rfl)
    · exact tidy.listed other name before
  · intro parent child name above shape
    rw [settles.contains, settles.lists, ← shape, tidy.matching parent child name above shape]
    by_cases same : parent.components = path.components
    · have below : child.components ≠ path.components :=
        same ▸ (components_ne_of_append shape).symm
      simp [same, below, lists_congr same, bare]
    · simp [same]

/-- What was listed at a path that is settled has lost its directory. -/
theorem Settles.bare (settles : Settles store after path there) (tidy : store.Tidy)
    (matching : after.Matches) (name : String) : ¬ store.Lists path name := by
  intro lists
  obtain ⟨rooted, isName⟩ := tidy.listed path name lists
  have shape := rooted.components_join isName
  have below := (components_ne_of_append shape).symm
  have orphan : after.contains (path.join (.of name)) = true := by
    rw [settles.contains, if_neg below, tidy.matching path _ name rooted shape]
    exact lists
  have listed := (matching path _ name rooted shape).1 orphan
  exact ((settles.lists path name).1 listed).1 rfl

/-! ## Single changes settle a path -/

section Settling

variable {parent : Path} {name : String} {entry : StoredEntry}

theorem contains_put_iff (other : Path) : (store.put path entry).contains other = true ↔
    if other.components = path.components then True else store.contains other = true := by
  rw [contains_put]
  split
  · next same => exact iff_of_true (.inl same) trivial
  · next apart => exact or_iff_right apart

/-- The root is listed nowhere. -/
theorem settles_put_root (root : path.components = [.root])
    (bare : namesOf (some entry) = Table.empty) : Settles store (store.put path entry) path True where
  contains := contains_put_iff
  lists other word := by
    rw [lists_put bare, if_neg (Path.append_ne_of_root root)]

theorem settles_link_put (shape : path.components = parent.components ++ [.name name])
    (bare : namesOf (some entry) = Table.empty) (directory : store.isDirectory parent = true) :
    Settles store ((store.link parent path).put path entry) path True where
  contains other := by
    rw [contains_put_iff, contains_link]
  lists other word := by
    rw [lists_put bare, lists_link (fileName?_of_components shape) directory, ← append_name_inj,
      ← shape]
    split
    · next same => simp [same]
    · next apart => simp [apart]

/-- The link and what is put below it do not meet. -/
theorem settles_put_link (shape : path.components = parent.components ++ [.name name])
    (bare : namesOf (some entry) = Table.empty) (directory : store.isDirectory parent = true) :
    Settles store ((store.put path entry).link parent path) path True where
  contains other := by
    rw [contains_link, contains_put_iff]
  lists other word := by
    have apart := components_ne_of_append shape
    have kept : (store.put path entry).isDirectory parent = true := by
      rw [isDirectory, get?_put, if_neg apart]
      exact directory
    rw [lists_link (fileName?_of_components shape) kept, lists_put bare, ← append_name_inj, ← shape]
    split
    · next same => simp [same, components_ne_of_append same.symm]
    · next other => simp [other]

theorem settles_remove (rooted : path.IsRooted) :
    Settles store (store.remove path).2 path False := by
  have erased (other : Path) : contains ⟨store.entries.erase path⟩ other = true ↔
      if other.components = path.components then False else store.contains other = true := by
    rw [contains_erase]
    split
    · next same => simp [same]
    · next apart => simp [apart]
  unfold remove
  rw [holder?_of_rooted rooted]
  rcases rooted.cases with ⟨top, root⟩ | ⟨parent, name, isParent, -, -, shape⟩
  · rw [top]
    refine ⟨erased, fun other word => ?_⟩
    rw [lists_erase, if_neg (Path.append_ne_of_root root)]
  · rw [isParent]
    refine ⟨fun other => by rw [contains_unlink, erased], fun other word => ?_⟩
    rw [lists_unlink (fileName?_of_components shape), lists_erase, ← append_name_inj, ← shape]
    split
    · next same => simp [same]
    · next apart => simp [apart]

end Settling

end Trees

/-! ## Operations on a tree -/

section Operations

variable {store after : MemoryFiles} {path parent : Path} {content : ByteArray}

theorem not_lists_of_not_isDirectory (notDirectory : store.isDirectory path = false) (name : String) :
    ¬ store.Lists path name := by
  intro lists
  rw [lists.isDirectory] at notDirectory
  cases notDirectory

/-- A directory is made in a directory that is there, where nothing was. -/
theorem mkdir_eq_ok_iff : store.mkdir path = .ok after ↔
    ∃ parent, holder? path = some parent ∧ store.isDirectory parent = true ∧
      store.contains path = false ∧
      after = (store.put path (.directory Table.empty)).link parent path := by
  unfold mkdir
  split
  · next there => simp [there]
  · next absent =>
    cases isHolder : holder? path with
    | none => simp
    | some parent =>
      cases found : store.entries.get? parent with
      | none => simp [isDirectory, found]
      | some entry =>
        cases entry with
        | file content => simp [isDirectory, found]
        | directory names =>
          simp only [isDirectory, found, absent, Except.ok.injEq, Option.some.injEq,
            exists_eq_left', true_and]
          exact eq_comm

/-- What is put into a directory, where nothing was listed. -/
theorem Tidy.put_link (tidy : store.Tidy) (rooted : path.IsRooted) {entry : StoredEntry}
    (isHolder : holder? path = some parent) (directory : store.isDirectory parent = true)
    (fresh : namesOf (some entry) = Table.empty) (bare : ∀ name, ¬ store.Lists path name) :
    ((store.put path entry).link parent path).Tidy := by
  rw [holder?_of_rooted rooted] at isHolder
  rcases rooted.cases with ⟨top, -⟩ | ⟨other, name, isParent, -, -, shape⟩
  · cases top.symm.trans isHolder
  · obtain rfl := Option.some.inj (isParent.symm.trans isHolder)
    exact (settles_put_link shape fresh directory).tidy tidy rooted bare

theorem Tidy.mkdirAction (tidy : store.Tidy) (rooted : path.IsRooted) :
    (mkdirAction path store).2.Tidy := by
  unfold MemoryFiles.mkdirAction
  split
  · next made =>
    obtain ⟨parent, isHolder, directory, absent, rfl⟩ := mkdir_eq_ok_iff.1 made
    refine tidy.put_link rooted isHolder directory rfl fun name lists => ?_
    rw [lists.contains] at absent
    cases absent
  · exact tidy

theorem Tidy.writeAction (tidy : store.Tidy) (rooted : path.IsRooted) :
    (writeAction path content store).2.Tidy := by
  unfold MemoryFiles.writeAction
  split
  · next written =>
    obtain ⟨parent, isHolder, directory, notDirectory, rfl⟩ := write_eq_ok_iff.1 written
    exact tidy.put_link rooted isHolder directory rfl (not_lists_of_not_isDirectory notDirectory)
  · exact tidy

/-- Where a file goes that is added below a directory. -/
theorem addFile_of_parent (rooted : path.IsRooted) (isParent : path.parent? = some parent) :
    store.addFile path content =
      ((ensureDirectory (path.components.length + 1) store parent).link parent path).put path
        (.file content) := by
  rw [addFile, holder?_of_rooted rooted, isParent]

theorem addFile_of_top (rooted : path.IsRooted) (top : path.parent? = none) :
    store.addFile path content = store.put path (.file content) := by
  rw [addFile, holder?_of_rooted rooted, top]

/-- Where no file stands above, a file is added once the way to it is there, and that lists at
its path what was listed before. -/
theorem settles_addFile (tidy : store.Tidy) (rooted : path.IsRooted) (content : ByteArray)
    (free : ∀ above ∈ path.ancestors.tail, store.isFile above = false) :
    ∃ way : MemoryFiles, way.Tidy ∧ (∀ name, way.Lists path name ↔ store.Lists path name) ∧
      Settles way (store.addFile path content) path True := by
  rcases rooted.cases with ⟨top, root⟩ | ⟨parent, name, isParent, above, -, shape⟩
  · refine ⟨store, tidy, fun _ => .rfl, ?_⟩
    rw [addFile_of_top rooted top]
    exact settles_put_root root rfl
  · rw [Path.tail_ancestors isParent] at free
    have paved := tidy.matching.paved above free
    have enough : parent.components.length ≤ path.components.length + 1 := by
      rw [shape, List.length_append]
      omega
    have grown := grown_ensureDirectory above paved enough
    have directory := isDirectory_ensureDirectory above path.components.length
      (paved.free parent above.components_ne_nil List.prefix_rfl)
    refine ⟨_, grown.tidy tidy above, fun word => ?_, ?_⟩
    · refine (grown.lists path word).trans (or_iff_left fun step => ?_)
      have short := step.length_le
      simp only [shape, List.length_append, List.length_singleton] at short
      omega
    · rw [addFile_of_parent rooted isParent]
      exact settles_link_put shape rfl directory

/-- A file above what is added stays a file, and what is added has no directory. -/
theorem free_of_addFile (rooted : path.IsRooted) (matching : (store.addFile path content).Matches) :
    ∀ above ∈ path.ancestors.tail, store.isFile above = false := by
  rcases rooted.cases with ⟨top, -⟩ | ⟨parent, name, isParent, rootedParent, -, shape⟩
  · simp [Path.tail_ancestors_of_top top]
  · rw [Path.tail_ancestors isParent]
    rw [addFile_of_parent rooted isParent] at matching
    intro above member
    obtain ⟨some_, front⟩ := (rootedParent.exists_mem_ancestors_iff _).1 ⟨above, member, rfl⟩
    have apart := ne_of_prefix_of_append front shape
    obtain ⟨word, step⟩ := rooted.exists_step some_ (front.trans ⟨_, shape.symm⟩) apart
    have lists := matching.lists_of_prefix rooted (contains_put.2 (.inl rfl)) step
    -- nothing that is made touches the file above, and the listing would need a directory there
    by_contra stands
    obtain ⟨held, found⟩ := isFile_iff.1 (by simpa using stands)
    have frame : Frame (fun _ => False) (fun other => parent.startsWith other = true) store
        ((ensureDirectory (path.components.length + 1) store parent).link parent path) :=
      (frame_ensureDirectory rootedParent _ _).trans (frame_link _ _ _)
    have kept := (frame.file id held).2 found
    rw [lists_put rfl] at lists
    obtain ⟨names, directory⟩ := isDirectory_iff.1 lists.2.isDirectory
    cases directory.symm.trans kept

end Operations

/-! ## Edits -/

/-- A change that a store is asked for. -/
inductive Edit where
  | add (path : Path) (content : ByteArray)
  | remove (path : Path)
  | mkdir (path : Path)
  | write (path : Path) (content : ByteArray)

namespace Edit

def path : Edit → Path
  | add path _ => path
  | remove path => path
  | mkdir path => path
  | write path _ => path

/-- The store afterwards; a request that is refused leaves it as it is. -/
def apply (store : MemoryFiles) : Edit → MemoryFiles
  | add path content => store.addFile path content
  | remove path => (store.remove path).2
  | mkdir path => (mkdirAction path store).2
  | write path content => (writeAction path content store).2

/-- What nobody asks before an edit that would break a tree: that no file stands above what is
added, and that nothing lies below what is overwritten or taken out. -/
def Safe (store : MemoryFiles) : Edit → Prop
  | add path _ => (∀ above ∈ path.ancestors.tail, store.isFile above = false) ∧
      (store.listing path).isEmpty = true
  | remove path => (store.listing path).isEmpty = true
  | mkdir _ => True
  | write _ _ => True

instance (store : MemoryFiles) : (edit : Edit) → Decidable (edit.Safe store)
  | add _ _ => inferInstanceAs (Decidable (_ ∧ _))
  | remove _ => inferInstanceAs (Decidable (_ = _))
  | mkdir _ => inferInstanceAs (Decidable True)
  | write _ _ => inferInstanceAs (Decidable True)

/-- Every edit is safe in the store that those before it leave. -/
def AllSafe : MemoryFiles → List Edit → Prop
  | _, [] => True
  | store, edit :: rest => edit.Safe store ∧ AllSafe (apply store edit) rest

instance decidableAllSafe : (store : MemoryFiles) → (edits : List Edit) →
    Decidable (AllSafe store edits)
  | _, [] => inferInstanceAs (Decidable True)
  | store, edit :: rest =>
    have := decidableAllSafe (apply store edit) rest
    inferInstanceAs (Decidable (edit.Safe store ∧ AllSafe (apply store edit) rest))

variable {store : MemoryFiles} {edit : Edit}

/-- A safe edit leaves a tree. -/
theorem tidy_apply (tidy : store.Tidy) (rooted : edit.path.IsRooted) (safe : edit.Safe store) :
    (apply store edit).Tidy := by
  cases edit with
  | add path content =>
    obtain ⟨way, tidyWay, same, settles⟩ := settles_addFile tidy rooted content safe.1
    exact settles.tidy tidyWay rooted fun name lists =>
      isEmpty_listing_iff.1 safe.2 name ((same name).1 lists)
  | remove path => exact (settles_remove rooted).tidy tidy rooted (isEmpty_listing_iff.1 safe)
  | mkdir path => exact tidy.mkdirAction rooted
  | write path content => exact tidy.writeAction rooted

/-- An edit that leaves a tree was safe. -/
theorem safe_of_matches (tidy : store.Tidy) (rooted : edit.path.IsRooted)
    (matching : (apply store edit).Matches) : edit.Safe store := by
  cases edit with
  | add path content =>
    have free := free_of_addFile rooted matching
    obtain ⟨way, tidyWay, same, settles⟩ := settles_addFile tidy rooted content free
    exact ⟨free, isEmpty_listing_iff.2 fun name lists =>
      settles.bare tidyWay matching name ((same name).2 lists)⟩
  | remove path => exact isEmpty_listing_iff.2 ((settles_remove rooted).bare tidy matching)
  | mkdir path => trivial
  | write path content => trivial

/-- From a tree on, a tree is left by every edit exactly if every edit is safe. -/
theorem isTree_foldl_iff {edits : List Edit} (tidy : store.Tidy)
    (rooted : ∀ edit ∈ edits, edit.path.IsRooted) :
    (∀ front, front <+: edits → (front.foldl apply store).IsTree) ↔ AllSafe store edits := by
  induction edits generalizing store with
  | nil =>
    refine iff_of_true (fun front begins => ?_) trivial
    rw [List.prefix_nil.1 begins]
    exact tidy.isTree
  | cons edit rest ih =>
    have first := rooted edit List.mem_cons_self
    have others : ∀ edit ∈ rest, edit.path.IsRooted := fun edit member =>
      rooted edit (List.mem_cons_of_mem _ member)
    constructor
    · intro trees
      have safe := safe_of_matches tidy first (trees [edit] ⟨rest, rfl⟩).matching
      refine ⟨safe, (ih (tidy_apply tidy first safe) others).1 fun front begins => ?_⟩
      exact trees (edit :: front) (List.cons_prefix_cons.2 ⟨rfl, begins⟩)
    · rintro ⟨safe, safeRest⟩ front begins
      rcases List.prefix_cons_iff.1 begins with rfl | ⟨more, rfl, tail⟩
      · exact tidy.isTree
      · exact (ih (tidy_apply tidy first safe) others).2 safeRest more tail

end Edit

/-- What a list of edits makes of a new store. -/
def edited (edits : List Edit) : MemoryFiles := edits.foldl Edit.apply empty

/-- A directory is made and written to, a file is added with the directories above it and
taken out again, and one is overwritten. -/
def safeEdits : List Edit :=
  [.mkdir (.of "/out"), .write (.of "/out/main.js") "1".toUTF8, .add (.of "/a/b/c.js") "2".toUTF8,
    .remove (.of "/a/b/c.js"), .add (.of "/out/main.js") "3".toUTF8]

/-- A file, and another one below it. -/
def fileBelowFile : List Edit := [.add (.of "/a") "x".toUTF8, .add (.of "/a/b") "y".toUTF8]

end Bundler.MemoryFiles
