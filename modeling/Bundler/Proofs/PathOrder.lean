import Bundler.Path
import Bundler.Proofs.Table

/-!
# The order of paths

Paths are compared by their components, so paths compare as equal exactly when
they are spellings of one path. The view of a path set is therefore a set of
component lists: `PathSet.contains_addAll` describes the addition of many paths
at once.
-/

namespace Bundler

instance : Std.TransOrd Component :=
  inferInstanceAs
    (Std.TransCmp (compareLex (compareOn Component.rank) (compareOn Component.text)))

instance : Std.LawfulEqOrd Component where
  compare_self := Ordering.then_eq_eq.2 ⟨Std.ReflOrd.compare_self, Std.ReflOrd.compare_self⟩
  eq_of_compare {left right} same := by
    obtain ⟨ranks, texts⟩ := Ordering.then_eq_eq.1 same
    have ranks := Std.LawfulEqCmp.eq_of_compare ranks
    have texts := Std.LawfulEqCmp.eq_of_compare texts
    cases left <;> cases right <;> simp_all [Component.rank, Component.text]

instance : Std.TransOrd Path :=
  inferInstanceAs (Std.TransCmp (compareOn Path.components))

namespace Path

/-- Paths compare as equal exactly when their components are equal. -/
theorem compare_eq_iff (left right : Path) :
    compare left right = .eq ↔ left.components = right.components := by
  change compare left.components right.components = .eq ↔ _
  exact Std.LawfulEqCmp.compare_eq_iff_eq

theorem same_iff (left right : Path) :
    left.same right = true ↔ left.components = right.components := by
  simp [same]

theorem compare_beq_eq (left right : Path) : (compare left right == .eq) = left.same right := by
  rw [Bool.eq_iff_iff, beq_iff_eq, compare_eq_iff, same_iff]

end Path

namespace PathSet

theorem contains_congr (paths : PathSet) {left right : Path}
    (same : left.components = right.components) :
    paths.contains left = paths.contains right := by
  have same := (Path.compare_eq_iff left right).2 same
  simp only [Table.contains, Std.TransCmp.congr_left same]

@[simp] theorem contains_add (paths : PathSet) (added path : Path) :
    (paths.add added).contains path = (compare path added == .eq || paths.contains path) :=
  Table.contains_insert paths path added ()

/-- Paths that are added one by one are there under all spellings. -/
theorem contains_foldr_add (paths : PathSet) (added : List Path) (path : Path) :
    (added.foldr (fun path set => set.add path) paths).contains path =
      (paths.contains path || added.any path.same) := by
  induction added with
  | nil => simp
  | cons first rest ih =>
    rw [List.foldr_cons, contains_add, ih, List.any_cons, Path.compare_beq_eq]
    exact Bool.or_left_comm _ _ _

/-- A set has the spellings of its keys. -/
theorem contains_eq_any (paths : PathSet) (path : Path) :
    paths.contains path = paths.keys.any path.same := by
  simp only [Table.contains, Table.keys, List.any_map, Path.compare_beq_eq]
  rfl

/-- Paths are told apart by their components alone. -/
theorem contains_iff (paths : PathSet) (path : Path) : paths.contains path = true ↔
    ∃ listed ∈ paths.keys, listed.components = path.components := by
  rw [contains_eq_any, List.any_eq_true]
  exact exists_congr fun listed => and_congr_right' ((Path.same_iff path listed).trans eq_comm)

theorem contains_ofList (paths : List Path) (path : Path) :
    (ofList paths).contains path = paths.any path.same := by
  rw [ofList, contains_foldr_add, Table.contains_empty, Bool.false_or]

/-- A listed path is in the set of the list. -/
theorem contains_ofList_of_mem {paths : List Path} {path : Path} (member : path ∈ paths) :
    (ofList paths).contains path = true := by
  rw [contains_ofList]
  exact List.any_eq_true.2 ⟨path, member, (Path.same_iff path path).2 rfl⟩

/-- Many paths are added at once. -/
theorem contains_addAll (paths : PathSet) (more : List Path) (path : Path) :
    (paths.addAll more).contains path = (paths.contains path || more.any path.same) := by
  rw [addAll, Table.contains_union, contains_ofList, (List.mergeSort_perm ..).any_eq,
    List.any_reverse]

theorem sorted_addAll {paths : PathSet} (sorted : paths.Sorted) (more : List Path) :
    (paths.addAll more).Sorted :=
  sorted.union (Table.sorted_empty.foldr_insert _ id fun _ => ())

/-- Adding paths drops none. -/
theorem contains_addAll_of_contains {paths : PathSet} (more : List Path) {path : Path}
    (held : paths.contains path = true) : (paths.addAll more).contains path = true := by
  simp [contains_addAll, held]

/-- Added paths are there. -/
theorem contains_addAll_of_mem (paths : PathSet) {more : List Path} {path : Path}
    (member : path ∈ more) : (paths.addAll more).contains path = true := by
  rw [contains_addAll, Bool.or_eq_true]
  exact .inr (List.any_eq_true.2 ⟨path, member, (Path.same_iff path path).2 rfl⟩)

end PathSet

end Bundler
