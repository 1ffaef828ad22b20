import Bundler.Proofs.Path.Readback
import Bundler.Proofs.Resolution

/-!
# Paths from the root down

A rooted path goes from the root down and never up: it is the root, or its parent is rooted and
lacks one name (`Path.IsRooted.cases`). Joining a name goes one step further down
(`Path.IsRooted.components_join`).
-/

namespace Bundler.Path

open Cut (IsName)

/-- An absolute path without `..`. -/
structure IsRooted (path : Path) : Prop where
  absolute : path.isAbsolute = true
  down : Component.up ∉ path.components

instance (path : Path) : Decidable path.IsRooted :=
  decidable_of_iff (path.isAbsolute = true ∧ Component.up ∉ path.components)
    ⟨fun ⟨absolute, down⟩ => ⟨absolute, down⟩, fun ⟨absolute, down⟩ => ⟨absolute, down⟩⟩

variable {path parent other : Path} {name : String}

/-- A name among the components of a path is the name of a segment. -/
theorem isName_of_mem_components (member : .name name ∈ path.components) : IsName name := by
  rw [components_eq_lead_append] at member
  rcases List.mem_append.1 member with start | step
  · cases lead : path.lead <;> simp [lead, Lead.components] at start
  · rcases mem_steps step with up | ⟨other, isName, same⟩
    · cases up
    · cases same
      exact isName

/-- On the way to the root there is no step. -/
theorem not_step_of_root {front : List Component} (root : path.components = [.root]) :
    ¬ front ++ [.name name] <+: path.components := by
  intro step
  have member := step.subset (List.mem_append_right _ List.mem_cons_self)
  simp [root] at member

theorem append_ne_of_root {front : List Component} (root : path.components = [.root]) :
    front ++ [.name name] ≠ path.components := fun same =>
  not_step_of_root root ⟨[], by rw [List.append_nil, same]⟩

namespace IsRooted

theorem components_ne_nil (rooted : path.IsRooted) : path.components ≠ [] := by
  intro nothing
  have root := isAbsolute_iff_head?.1 rooted.absolute
  rw [nothing] at root
  cases root

/-- What a rooted path begins with is rooted, unless it is empty. -/
theorem of_prefix (rooted : path.IsRooted) (some_ : other.components ≠ [])
    (front : other.components <+: path.components) : other.IsRooted where
  absolute := by
    obtain ⟨rest, split⟩ := front
    rw [isAbsolute_iff_head?, ← List.head?_append_of_ne_nil _ some_, split]
    exact isAbsolute_iff_head?.1 rooted.absolute
  down inside := rooted.down (front.subset inside)

theorem congr (rooted : path.IsRooted) (same : other.components = path.components) :
    other.IsRooted :=
  rooted.of_prefix (same ▸ rooted.components_ne_nil) (same ▸ List.prefix_rfl)

/-- No rooted path begins with a name. -/
theorem ne_nil_of_step {front : List Component} (rooted : path.IsRooted)
    (step : front ++ [.name name] <+: path.components) : front ≠ [] := by
  rintro rfl
  obtain ⟨rest, split⟩ := step
  have root := isAbsolute_iff_head?.1 rooted.absolute
  rw [← split] at root
  cases root

/-- A step on the way to a rooted path goes from a rooted path to a name. -/
theorem of_step (rooted : path.IsRooted)
    (step : other.components ++ [.name name] <+: path.components) : other.IsRooted ∧ IsName name :=
  ⟨rooted.of_prefix (rooted.ne_nil_of_step step) ((List.prefix_append _ _).trans step),
    isName_of_mem_components (step.subset (List.mem_append_right _ List.mem_cons_self))⟩

/-- Behind the root stand names. -/
theorem eq_name_of_split {front rest : List Component} {next : Component} (rooted : path.IsRooted)
    (split : path.components = front ++ next :: rest) (below : front ≠ []) :
    ∃ name, IsName name ∧ next = .name name := by
  have root := (lead_eq_root_iff path).2 rooted.absolute
  have steps : path.components = .root :: path.steps := by
    rw [components_eq_lead_append, root]
    rfl
  obtain ⟨first, more, rfl⟩ := List.exists_cons_of_ne_nil below
  have member : next ∈ path.steps := by
    have same := (List.cons.inj (steps.symm.trans split)).2
    rw [same]
    simp
  rcases mem_steps member with rfl | named
  · exact absurd (split ▸ by simp) rooted.down
  · exact named

/-- Between what a rooted path begins with and the path itself there is one more step. -/
theorem exists_step {front : List Component} (rooted : path.IsRooted) (some_ : front ≠ [])
    (begins : front <+: path.components) (apart : front ≠ path.components) :
    ∃ name, front ++ [.name name] <+: path.components := by
  obtain ⟨rest, split⟩ := begins
  cases rest with
  | nil => exact absurd (by simpa using split) apart
  | cons next rest =>
    obtain ⟨name, -, rfl⟩ := rooted.eq_name_of_split split.symm some_
    exact ⟨name, rest, by rw [← split, List.append_assoc, List.singleton_append]⟩

/-- The root, or one name below a rooted parent. -/
theorem cases (rooted : path.IsRooted) :
    (path.parent? = none ∧ path.components = [.root]) ∨
      ∃ parent name, path.parent? = some parent ∧ parent.IsRooted ∧ IsName name ∧
        path.components = parent.components ++ [.name name] := by
  rcases path.parent?_cases with ⟨none, nothing | root⟩ | ⟨parent, last, isParent, notRoot, shape⟩
  · exact absurd nothing rooted.components_ne_nil
  · exact .inl ⟨none, root⟩
  · have below : parent.components ≠ [] := by
      intro nothing
      have root := isAbsolute_iff_head?.1 rooted.absolute
      rw [shape, nothing] at root
      exact notRoot (Option.some.inj root)
    obtain ⟨name, isName, rfl⟩ := rooted.eq_name_of_split shape below
    exact .inr ⟨parent, name, isParent,
      rooted.of_prefix below (shape ▸ List.prefix_append _ _), isName, shape⟩

/-- One name below a rooted path. -/
theorem append (rooted : parent.IsRooted) (shape : path.components = parent.components ++ [.name name]) :
    path.IsRooted where
  absolute := by
    rw [isAbsolute_iff_head?, shape, List.head?_append_of_ne_nil _ rooted.components_ne_nil]
    exact isAbsolute_iff_head?.1 rooted.absolute
  down := by simp [shape, rooted.down]

/-- A name that is joined is one more component. -/
theorem components_join (rooted : path.IsRooted) (isName : IsName name) :
    (path.join (.of name)).components = path.components ++ [.name name] := by
  have single : ∀ component ∈ [Component.name name], component.IsStep := fun component member =>
    .inr ⟨name, isName, List.mem_singleton.1 member⟩
  have written : ofComponents (Lead.none.components ++ [.name name]) = of name :=
    congrArg of (by simp [Component.text])
  have read : (of name).components = [.name name] := written ▸ components_ofComponents single .none
  have steps : (of name).steps = [.name name] := by
    rw [← (filter_components (of name)).2, read]
    rfl
  have relative : ¬ (of name).isAbsolute = true := by
    rw [isAbsolute_iff_head?, read]
    simp
  have notEmpty : path.text ≠ "" := mt components_eq_nil_iff.2 rooted.components_ne_nil
  rw [Path.components_join, if_neg (by simp [relative, notEmpty]), steps]

/-- The path and its parents, up to their spelling, are what a rooted path begins with. -/
theorem exists_mem_ancestors_iff (rooted : path.IsRooted) (components : List Component) :
    (∃ above ∈ path.ancestors, above.components = components) ↔
      components ≠ [] ∧ components <+: path.components := by
  have ascent := ascent_ancestors path
  generalize path.ancestors = ancestors at ascent
  induction ascent with
  | @top path top =>
    rcases rooted.cases with ⟨-, root⟩ | ⟨parent, -, isParent, -⟩
    · simp only [List.mem_singleton, exists_eq_left, root, List.prefix_cons_iff, List.prefix_nil]
      grind
    · cases top.symm.trans isParent
  | @up path parent above isParent _ ih =>
    rcases rooted.cases with ⟨none, -⟩ | ⟨other, name, isOther, rootedParent, -, shape⟩
    · cases none.symm.trans isParent
    · obtain rfl := Option.some.inj (isOther.symm.trans isParent)
      have parents : (∃ one ∈ above, one.components = components) ↔
        components ≠ [] ∧ components <+: other.components := ih rootedParent
      have notEmpty : other.components ++ [Component.name name] ≠ [] := by simp
      rw [shape, List.prefix_concat_iff, and_or_left, ← parents]
      simp only [List.mem_cons, exists_eq_or_imp, shape]
      grind

end IsRooted

/-- Above a path lie its parent and what lies above that. -/
theorem tail_ancestors (isParent : path.parent? = some parent) :
    path.ancestors.tail = parent.ancestors := by
  have ascent := ascent_ancestors path
  generalize path.ancestors = ancestors at ascent
  cases ascent with
  | top top => cases top.symm.trans isParent
  | up isOther ascent =>
    obtain rfl := Option.some.inj (isOther.symm.trans isParent)
    exact ascent.unique (ascent_ancestors _)

/-- Nothing lies above a path without a parent. -/
theorem tail_ancestors_of_top (top : path.parent? = none) : path.ancestors.tail = [] := by
  rw [(ascent_ancestors path).unique (.top top), List.tail_cons]

end Bundler.Path
