import Bundler.ChangeSet
import Bundler.Proofs.Latest
import Bundler.Proofs.PathOrder
import Mathlib.Data.List.Induction

/-!
# Merged change sets

A change set is seen through which paths it has on its two sides, in any spelling. `removed_merge`
and `changed_merge` say what a merge does to this view. That merging is associative and that the
last set which tells of a path decides about it both follow from these two equations, the first
by cases on where a path is, the second by induction on the sets.
-/

namespace Bundler

namespace ChangeSet


/-- A change set tells of a path, in some spelling. -/
def Mentions (changes : ChangeSet) (path : Path) : Prop :=
  changes.changed.contains path = true ∨ changes.removed.contains path = true

theorem Mentions.isEmpty {changes : ChangeSet} {path : Path} (mentions : changes.Mentions path) :
    changes.isEmpty = false := by
  by_contra full
  rw [Bool.not_eq_false, ChangeSet.isEmpty, Bool.and_eq_true] at full
  simp only [Table.isEmpty, List.isEmpty_iff] at full
  rcases mentions with held | held
  · simp [Table.contains, full.1] at held
  · simp [Table.contains, full.2] at held

theorem isEmpty_markChanged (changes : ChangeSet) (path : Path) :
    (changes.markChanged path).isEmpty = false := by
  have mentions : (changes.markChanged path).Mentions path := .inl (by simp [markChanged])
  exact mentions.isEmpty

theorem isEmpty_markRemoved (changes : ChangeSet) (path : Path) :
    (changes.markRemoved path).isEmpty = false := by
  have mentions : (changes.markRemoved path).Mentions path := .inr (by simp [markRemoved])
  exact mentions.isEmpty

/-- What marks paths and is empty afterwards had nothing to mark, and was empty before. -/
theorem isEmpty_foldl {mark : ChangeSet → Path → ChangeSet}
    (marks : ∀ changes path, (mark changes path).isEmpty = false) {changes : ChangeSet}
    {paths : List Path} (empty : (paths.foldl mark changes).isEmpty = true) :
    paths = [] ∧ changes.isEmpty = true := by
  induction paths using List.reverseRecOn with
  | nil => exact ⟨rfl, empty⟩
  | append_singleton paths path =>
      rw [List.foldl_append, List.foldl_cons, List.foldl_nil, marks] at empty
      cases empty

/-- Nothing that a merge takes in is lost. -/
theorem isEmpty_of_merge {earlier later : ChangeSet}
    (empty : (earlier.merge later).isEmpty = true) :
    earlier.isEmpty = true ∧ later.isEmpty = true := by
  obtain ⟨noneRemoved, rest⟩ := isEmpty_foldl isEmpty_markRemoved empty
  obtain ⟨noneChanged, before⟩ := isEmpty_foldl isEmpty_markChanged rest
  refine ⟨before, ?_⟩
  simp only [Table.keys, List.map_eq_nil_iff] at noneRemoved noneChanged
  simp [isEmpty, Table.isEmpty, noneRemoved, noneChanged]

theorem merge_of_isEmpty {changes : ChangeSet} (empty : changes.isEmpty = true)
    (earlier : ChangeSet) : earlier.merge changes = earlier := by
  obtain ⟨changed, removed⟩ := changes
  simp only [isEmpty, Table.isEmpty, Bool.and_eq_true, List.isEmpty_iff] at empty
  simp [merge, Table.keys, empty]

/-! ## Where a path is after a merge -/

section Views

variable (changes earlier later : ChangeSet) (marked path : Path)

theorem changed_markChanged : (changes.markChanged marked).changed.contains path =
    (path.same marked || changes.changed.contains path) := by
  rw [markChanged, PathSet.contains_add, Path.compare_beq_eq]

theorem removed_markChanged : (changes.markChanged marked).removed.contains path =
    (!path.same marked && changes.removed.contains path) := by
  rw [markChanged, Table.contains_erase, bne, Path.compare_beq_eq]

theorem changed_markRemoved : (changes.markRemoved marked).changed.contains path =
    (!path.same marked && changes.changed.contains path) := by
  rw [markRemoved, Table.contains_erase, bne, Path.compare_beq_eq]

theorem removed_markRemoved : (changes.markRemoved marked).removed.contains path =
    (path.same marked || changes.removed.contains path) := by
  rw [markRemoved, PathSet.contains_add, Path.compare_beq_eq]

variable {mark : ChangeSet → Path → ChangeSet} {path}

/-- A side to which every mark adds its path. -/
theorem foldl_adds (side : ChangeSet → Bool)
    (adds : ∀ changes marked, side (mark changes marked) = (path.same marked || side changes))
    (changes : ChangeSet) (paths : List Path) :
    side (paths.foldl mark changes) = (paths.any path.same || side changes) := by
  induction paths generalizing changes with
  | nil => rfl
  | cons first rest ih =>
    rw [List.foldl_cons, ih, adds, List.any_cons, Bool.or_left_comm, Bool.or_assoc]

/-- A side from which every mark drops its path. -/
theorem foldl_drops (side : ChangeSet → Bool)
    (drops : ∀ changes marked, side (mark changes marked) = (!path.same marked && side changes))
    (changes : ChangeSet) (paths : List Path) :
    side (paths.foldl mark changes) = (!paths.any path.same && side changes) := by
  induction paths generalizing changes with
  | nil => rfl
  | cons first rest ih =>
    rw [List.foldl_cons, ih, drops, List.any_cons, Bool.not_or, Bool.and_left_comm, Bool.and_assoc]

variable (path)

/-- A path is removed if the later set removes it, or leaves it as it was removed before. -/
theorem removed_merge : (earlier.merge later).removed.contains path =
    (later.removed.contains path ||
      (!later.changed.contains path && earlier.removed.contains path)) := by
  rw [merge, foldl_adds (fun changes => changes.removed.contains path)
      (removed_markRemoved · · path),
    foldl_drops (fun changes => changes.removed.contains path) (removed_markChanged · · path),
    ← PathSet.contains_eq_any, ← PathSet.contains_eq_any]

/-- A path is changed if one of the sets changes it and the later one does not remove it. -/
theorem changed_merge : (earlier.merge later).changed.contains path =
    (!later.removed.contains path &&
      (later.changed.contains path || earlier.changed.contains path)) := by
  rw [merge, foldl_drops (fun changes => changes.changed.contains path)
      (changed_markRemoved · · path),
    foldl_adds (fun changes => changes.changed.contains path) (changed_markChanged · · path),
    ← PathSet.contains_eq_any, ← PathSet.contains_eq_any]

theorem mentions_merge :
    (earlier.merge later).Mentions path ↔ earlier.Mentions path ∨ later.Mentions path := by
  rw [Mentions, changed_merge, removed_merge, Mentions, Mentions]
  grind

end Views

/-! ## Sets that tell the same -/

/-- Two change sets have the same paths on both sides. -/
def Same (left right : ChangeSet) : Prop :=
  ∀ path, left.changed.contains path = right.changed.contains path ∧
    left.removed.contains path = right.removed.contains path

namespace Same

variable {first second third : ChangeSet}

theorem refl (changes : ChangeSet) : Same changes changes := fun _ => ⟨rfl, rfl⟩

theorem symm (same : Same first second) : Same second first :=
  fun path => ⟨(same path).1.symm, (same path).2.symm⟩

theorem trans (same : Same first second) (also : Same second third) : Same first third :=
  fun path => ⟨(same path).1.trans (also path).1, (same path).2.trans (also path).2⟩

theorem merge {later other : ChangeSet} (same : Same first second) (alike : Same later other) :
    Same (first.merge later) (second.merge other) := by
  intro path
  obtain ⟨changed, removed⟩ := same path
  obtain ⟨changedLater, removedLater⟩ := alike path
  simp only [changed_merge, removed_merge, changed, removed, changedLater, removedLater, and_self]

end Same

theorem merge_assoc (first second third : ChangeSet) :
    Same ((first.merge second).merge third) (first.merge (second.merge third)) := by
  intro path
  simp only [changed_merge, removed_merge]
  grind

/-- Merging a batch that was merged on its own is merging its sets one after the other. -/
theorem merge_foldl (start : ChangeSet) (batch : List ChangeSet) :
    Same (start.merge (batch.foldl merge empty)) (batch.foldl merge start) := by
  induction batch using List.reverseRecOn with
  | nil =>
    rw [List.foldl_nil, List.foldl_nil, merge_of_isEmpty rfl]
    exact .refl start
  | append_singleton earlier last ih =>
    rw [List.foldl_concat, List.foldl_concat]
    exact (merge_assoc _ _ _).symm.trans (ih.merge (.refl last))

theorem foldl_merge_congr {first second : ChangeSet} (same : Same first second)
    (sets : List ChangeSet) : Same (sets.foldl merge first) (sets.foldl merge second) := by
  induction sets generalizing first second with
  | nil => exact same
  | cons next rest ih => exact ih (same.merge (.refl next))

/-- Queued sets may be merged one by one or in batches. -/
theorem merge_batches (start : ChangeSet) (batches : List (List ChangeSet)) :
    Same (batches.foldl (fun merged batch => merged.merge (batch.foldl merge empty)) start)
      (batches.flatten.foldl merge start) := by
  induction batches generalizing start with
  | nil => exact .refl start
  | cons batch rest ih =>
    rw [List.flatten_cons, List.foldl_append]
    exact (ih _).trans (foldl_merge_congr (merge_foldl start batch) _)

/-! ## Sequences of change sets -/

/-- The last change set that tells of a path. -/
def LastMention (sets : List ChangeSet) (path : Path) (last : ChangeSet) : Prop :=
  Latest (fun changes => changes.Mentions path) (fun changes => ¬ changes.Mentions path) sets last

/-- A view of a merge that is decided by the later set, or stays as it was if that set does not
tell of the path, is decided by the last set that tells of it. -/
theorem foldl_merge_iff {path : Path} (side told : ChangeSet → Bool) (blank : side empty = false)
    (merges : ∀ earlier later : ChangeSet, side (earlier.merge later) = true ↔
      (later.Mentions path ∧ told later = true) ∨ (side earlier = true ∧ ¬ later.Mentions path))
    (sets : List ChangeSet) :
    side (sets.foldl merge empty) = true ↔
      ∃ last, LastMention sets path last ∧ told last = true := by
  induction sets using List.reverseRecOn with
  | nil => simp [blank, LastMention, Latest.not_nil]
  | append_singleton earlier last ih =>
    rw [List.foldl_concat, merges, ih]
    simp only [LastMention, Latest.concat_iff, or_and_right, exists_or, and_assoc, exists_eq_left]
    refine or_congr_right ⟨?_, ?_⟩
    · rintro ⟨⟨changes, latest, tells⟩, silent⟩
      exact ⟨changes, latest, silent, tells⟩
    · rintro ⟨changes, latest, silent, tells⟩
      exact ⟨⟨changes, latest, tells⟩, silent⟩

/-- Both sides are in path order. -/
def Ordered (changes : ChangeSet) : Prop := changes.changed.Sorted ∧ changes.removed.Sorted

theorem Ordered.merge {changes : ChangeSet} (ordered : changes.Ordered) (later : ChangeSet) :
    (changes.merge later).Ordered := by
  have afterChanges : (later.changed.keys.foldl markChanged changes).Ordered :=
    List.foldlRecOn _ _ ordered fun _ sides path _ =>
      ⟨sides.1.insert path (), sides.2.erase path⟩
  exact List.foldlRecOn _ _ afterChanges fun _ sides path _ =>
    ⟨sides.1.erase path, sides.2.insert path ()⟩

theorem ordered_foldl_merge (sets : List ChangeSet) : (sets.foldl merge empty).Ordered :=
  List.foldlRecOn _ _ ⟨Table.sorted_empty, Table.sorted_empty⟩ fun _ sides changes _ =>
    sides.merge changes

/-- The listed paths are those that a change set tells of. -/
theorem mem_paths_iff (changes : ChangeSet) (path : Path) :
    (∃ listed ∈ changes.paths, listed.components = path.components) ↔ changes.Mentions path := by
  rw [paths, ← PathSet.contains_iff, PathSet.contains_addAll, ← PathSet.contains_eq_any,
    Bool.or_eq_true, Mentions]

theorem mentions_foldl_merge (sets : List ChangeSet) (path : Path) :
    (sets.foldl merge empty).Mentions path ↔ ∃ changes ∈ sets, changes.Mentions path := by
  induction sets using List.reverseRecOn with
  | nil => simp [Mentions, empty]
  | append_singleton earlier last ih =>
    rw [List.foldl_concat, mentions_merge, ih]
    simp [or_and_right, exists_or]

/-- No path is on both sides, whatever the merged sets had. -/
theorem disjoint_foldl_merge (sets : List ChangeSet) (path : Path) :
    ¬ ((sets.foldl merge empty).changed.contains path = true ∧
      (sets.foldl merge empty).removed.contains path = true) := by
  induction sets using List.reverseRecOn with
  | nil => simp [empty]
  | append_singleton earlier last ih =>
    rw [List.foldl_concat, changed_merge, removed_merge]
    grind

/-- The last set that tells of a path decides about it, whether the sets are merged one by one or
in batches. -/
theorem merged_latest (sets : List ChangeSet) :
    let merged := sets.foldl merge empty
    (∀ path, merged.removed.contains path = true ↔
      ∃ last, LastMention sets path last ∧ last.removed.contains path = true) ∧
    (∀ path, merged.changed.contains path = true ↔ ∃ last, LastMention sets path last ∧
      last.changed.contains path = true ∧ last.removed.contains path = false) ∧
    (∀ path, ¬ (merged.changed.contains path = true ∧ merged.removed.contains path = true)) ∧
    merged.paths.Pairwise (fun left right => compare left right = .lt) ∧
    (∀ path, (∃ listed ∈ merged.paths, listed.components = path.components) ↔
      ∃ changes ∈ sets, changes.Mentions path) ∧
    (∀ first second third : ChangeSet,
      Same ((first.merge second).merge third) (first.merge (second.merge third))) ∧
    (∀ (start : ChangeSet) (batches : List (List ChangeSet)),
      Same (batches.foldl (fun merged batch => merged.merge (batch.foldl merge empty)) start)
        (batches.flatten.foldl merge start)) ∧
    ∀ (paths : PathSet) (path : Path), paths.contains path = true ↔
      ∃ listed ∈ paths.keys, listed.components = path.components := by
  intro merged
  have removed : ∀ path, merged.removed.contains path = true ↔
      ∃ last, LastMention sets path last ∧ last.removed.contains path = true := by
    intro path
    refine foldl_merge_iff (fun changes => changes.removed.contains path) _ rfl ?_ sets
    intro earlier later
    rw [removed_merge, Mentions]
    grind
  have changed : ∀ path, merged.changed.contains path = true ↔ ∃ last, LastMention sets path last ∧
      (last.changed.contains path && !last.removed.contains path) = true := by
    intro path
    refine foldl_merge_iff (fun changes => changes.changed.contains path) _ rfl ?_ sets
    intro earlier later
    rw [changed_merge, Mentions]
    grind
  simp only [Bool.and_eq_true, Bool.not_eq_true'] at changed
  have inOrder : merged.paths.Pairwise fun left right => compare left right = .lt :=
    List.pairwise_map.2 (PathSet.sorted_addAll (ordered_foldl_merge sets).1 _)
  exact ⟨removed, changed, disjoint_foldl_merge sets, inOrder,
    fun path => (mem_paths_iff merged path).trans (mentions_foldl_merge sets path),
    merge_assoc, merge_batches, PathSet.contains_iff⟩

end ChangeSet

end Bundler
