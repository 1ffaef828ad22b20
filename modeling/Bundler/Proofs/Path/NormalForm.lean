import Bundler.Proofs.Path.Parents
import Mathlib.Logic.Relation

/-!
# Normal forms of paths

`Path.Folds` takes one thing at a time out of a list of components: a `.`, a name together with
the `..` behind it, or a `..` at the root. `Path.normalize` folds from the left, and `Path.Held`
is what it can hold meanwhile. `Path.flat_iff_not_folds` says what paths look like that have
nothing to fold, and `Path.normalize_canonical` that each path has one normal form, whatever is
folded first, and that a base and a path lead from their normal forms where they lead together.
-/

namespace Bundler.Path

open Relation (ReflTransGen EqvGen)

/-! ## Normal forms as paths -/

/-- The path is in normal form and written as its normal form is. -/
structure Normalized (path : Path) : Prop where
  fixed : path.normalize = path
  normal : IsNormal path.components

/-- Only where a path leads decides its normal form. -/
theorem normalize_eq_iff {path other : Path} :
    path.normalize = other.normalize ↔ path.folded = other.folded := by
  constructor
  · intro same
    rw [← folded_normalize path, same, folded_normalize]
  · intro same
    rw [normalize, same, normalize]

/-- A normal form is its own normal form. -/
@[simp] theorem normalize_normalize (path : Path) : path.normalize.normalize = path.normalize :=
  normalize_eq_iff.2 (folded_normalize path)

theorem normalized_normalize (path : Path) : path.normalize.Normalized := by
  constructor
  · exact normalize_normalize path
  · by_cases nothing : path.folded = []
    · refine .inl ?_
      rw [normalize, nothing]
      rfl
    · obtain ⟨names, named, shape⟩ := folded_cases path
      have isName := isName_of_named named
      rw [components_normalize nothing]
      rcases shape with root | ⟨climbs, shape⟩
      · exact .inr (.inl ⟨names, isName, root⟩)
      · exact .inr (.inr ⟨_, names, shape, nothing,
          fun component member => List.eq_of_mem_replicate member, isName⟩)

theorem isAbsolute_normalize (path : Path) : path.normalize.isAbsolute = path.isAbsolute := by
  cases absolute : path.isAbsolute with
  | true =>
    obtain ⟨names, -, spelled⟩ := canonical_normalize absolute
    rw [spelled]
    exact isAbsolute_slash _
  | false =>
    obtain ⟨climbs, names, isName, folded, -⟩ := folded_relative absolute
    rw [Bool.eq_false_iff, ne_eq, isAbsolute_iff_head?]
    by_cases nothing : path.folded = []
    · rw [normalize, nothing]
      decide
    · rw [components_normalize nothing, folded]
      intro root
      rcases List.mem_append.1 (List.mem_of_head? root) with up | name
      · cases List.eq_of_mem_replicate up
      · cases isName _ name

/-! ## Joined paths -/

/-- Joined paths start at the root if one of them does. -/
theorem isAbsolute_join_iff (base path : Path) :
    (base.join path).isAbsolute = true ↔ path.isAbsolute = true ∨ base.isAbsolute = true := by
  by_cases absolute : path.isAbsolute = true
  · rw [join, if_pos absolute]
    exact iff_of_true absolute (.inl absolute)
  · have relative : path.isAbsolute = false := by simpa using absolute
    by_cases empty : base.text = ""
    · have start : base.isAbsolute = false := by simp [isAbsolute, empty]
      rw [join_empty empty, relative, start]
      simp
    · rw [← lead_eq_root_iff, (join_relative relative empty).1, lead_eq_root_iff, relative]
      simp

/-- A relative path is joined by taking its steps after those of the base. -/
theorem steps_join {base path : Path} (relative : path.isAbsolute = false) :
    (base.join path).steps = base.steps ++ path.steps := by
  by_cases empty : base.text = ""
  · have none : base.steps = [] := by
      rw [steps, empty]
      rfl
    rw [join_empty empty, none, List.nil_append]
  · exact (join_relative relative empty).2

/-- Folding a path first does not change where it leads from a base. -/
theorem folded_join_normalize (base path : Path) :
    (base.join path.normalize).folded = (base.join path).folded := by
  have start := isAbsolute_normalize path
  cases absolute : path.isAbsolute with
  | true => rw [join, if_pos (start.trans absolute), join, if_pos absolute, folded_normalize]
  | false =>
    obtain ⟨climbs, names, isName, folded, joined⟩ := folded_relative absolute
    obtain ⟨others, more, isMore, same, rejoined⟩ := folded_relative (start.trans absolute)
    rw [folded_normalize, folded] at same
    obtain ⟨rfl, rfl⟩ := climbs_unique isName isMore same
    rw [joined, rejoined]

/-- Folding a base first does not change where a path leads from it. -/
theorem folded_normalize_join (base path : Path) :
    (base.normalize.join path).folded = (base.join path).folded := by
  cases absolute : path.isAbsolute with
  | true => rw [join, if_pos absolute, join, if_pos absolute]
  | false => rw [folded_join absolute, folded_join absolute, folded_normalize]

/-- Joining from the right and from the left leads to the same place. -/
theorem folded_join_join (base middle path : Path) :
    (base.join (middle.join path)).folded = ((base.join middle).join path).folded := by
  have outer := isAbsolute_join_iff middle path
  cases absolute : path.isAbsolute with
  | true =>
    rw [join.eq_def middle, if_pos absolute, join.eq_def base path, if_pos absolute,
      join.eq_def (base.join middle), if_pos absolute]
  | false =>
    rw [absolute] at outer
    cases start : middle.isAbsolute with
    | true =>
      have rooted : (middle.join path).isAbsolute = true := outer.2 (.inr start)
      rw [join.eq_def base, if_pos rooted, join.eq_def base, if_pos start]
    | false =>
      have unrooted : (middle.join path).isAbsolute = false := by simpa [start] using outer
      rw [folded_join unrooted, folded_join absolute, folded_join start, steps_join absolute,
        List.foldl_append, List.reverse_reverse]

/-! ## Folding one thing at a time -/

/-- One thing in a list of components is folded away. -/
inductive Folds : List Component → List Component → Prop
  | here (front rest : List Component) : Folds (front ++ .here :: rest) (front ++ rest)
  | back (front rest : List Component) (name : String) :
      Folds (front ++ .name name :: .up :: rest) (front ++ rest)
  | top (rest : List Component) : Folds (.root :: .up :: rest) (.root :: rest)

/-- What is folded away makes no difference to the whole. -/
theorem Folds.foldl_eq {components shorter : List Component} (folds : Folds components shorter) :
    components.foldl foldComponent [] = shorter.foldl foldComponent [] := by
  cases folds with
  | here front rest => rw [List.foldl_append, List.foldl_append]; rfl
  | back front rest name => rw [List.foldl_append, List.foldl_append]; rfl
  | top rest => rfl

theorem foldl_eq_of_eqvGen {components others : List Component}
    (equivalent : EqvGen Folds components others) :
    components.foldl foldComponent [] = others.foldl foldComponent [] := by
  induction equivalent with
  | rel _ _ folds => exact folds.foldl_eq
  | refl _ => rfl
  | symm _ _ _ ih => exact ih.symm
  | trans _ _ _ _ _ first second => exact first.trans second

/-- What is held, in reverse, while components are folded from the left: names above the root, or
above a climb. -/
inductive Held : List Component → Prop
  | root : Held [.root]
  | climb (climbs : Nat) : Held (List.replicate climbs .up)
  | name (text : String) {under : List Component} (held : Held under) : Held (.name text :: under)

namespace Held

variable {folded : List Component}

/-- One more component folds what is held into what is held next, whatever follows it. -/
theorem step (held : Held folded) {next : Component} (inner : next ≠ .root) :
    Held (foldComponent folded next) ∧ ∀ rest, ReflTransGen Folds
      (folded.reverse ++ next :: rest) ((foldComponent folded next).reverse ++ rest) := by
  cases next with
  | root => exact absurd rfl inner
  | here => exact ⟨held, fun rest => .single (.here folded.reverse rest)⟩
  | name text =>
    have pushed : foldComponent folded (.name text) = .name text :: folded := rfl
    rw [pushed]
    refine ⟨.name text held, fun rest => ?_⟩
    rw [List.reverse_cons, List.append_assoc, List.singleton_append]
  | up =>
    -- A `..` vanishes at the root, goes up a climb and takes back a name.
    cases held with
    | root => exact ⟨.root, fun rest => .single (.top rest)⟩
    | climb climbs =>
      have higher : foldComponent (List.replicate climbs .up) .up =
          List.replicate (climbs + 1) .up := climb_ups 1 climbs
      rw [higher]
      refine ⟨.climb (climbs + 1), fun rest => ?_⟩
      rw [List.reverse_replicate, List.reverse_replicate, List.replicate_succ', List.append_assoc,
        List.singleton_append]
    | name text held =>
      refine ⟨held, fun rest => ?_⟩
      rw [List.reverse_cons, List.append_assoc, List.singleton_append]
      exact .single (.back _ rest text)

/-- All that follows is folded into what is held. -/
theorem folds (held : Held folded) {rest : List Component} (inner : .root ∉ rest) :
    ReflTransGen Folds (folded.reverse ++ rest) (rest.foldl foldComponent folded).reverse := by
  induction rest generalizing folded with
  | nil => rw [List.append_nil, List.foldl_nil]
  | cons next rest ih =>
    obtain ⟨kept, shorter⟩ := held.step (Ne.symm (List.ne_of_not_mem_cons inner))
    exact (shorter rest).trans (ih kept (List.not_mem_of_not_mem_cons inner))

end Held

/-- The components of a path fold to what the path is folded to. -/
theorem folds_folded (path : Path) : ReflTransGen Folds path.components path.folded := by
  have inner : .root ∉ path.steps := by
    intro root
    rcases mem_steps root with up | ⟨name, -, named⟩
    · cases up
    · cases named
  -- A leading `.` is one more component to fold; the root is held from the start.
  have dotted : .root ∉ Component.here :: path.steps := by simpa using inner
  rw [folded, components_eq_lead_append]
  cases path.lead with
  | root => exact Held.root.folds inner
  | here => exact (Held.climb 0).folds dotted
  | none => exact (Held.climb 0).folds inner

/-- Paths lead to the same place exactly when folding leads from one to the other, things put back
included. -/
theorem folded_eq_iff {path other : Path} :
    path.folded = other.folded ↔ EqvGen Folds path.components other.components := by
  constructor
  · intro same
    have left := EqvGen.reflTransGen_le_eqvGen _ _ _ (folds_folded path)
    have right := EqvGen.reflTransGen_le_eqvGen _ _ _ (folds_folded other)
    exact .trans _ _ _ left (same ▸ .symm _ _ right)
  · intro equivalent
    rw [folded, foldl_eq_of_eqvGen equivalent, folded]

/-! ## Nothing left to fold -/

/-- A path without `.`, and without `..` but at the front of a relative one. -/
structure Flat (path : Path) : Prop where
  noHere : .here ∉ path.components
  noUp : path.isAbsolute = true → .up ∉ path.components
  upFirst : ∀ front rest, path.components = front ++ .up :: rest →
    ∀ component ∈ front, component = .up

theorem Flat.not_folds {path : Path} (flat : path.Flat) {shorter : List Component} :
    ¬ Folds path.components shorter := by
  generalize shape : path.components = components
  intro folds
  cases folds with
  | here front rest => exact flat.noHere (by simp [shape])
  | back front rest name =>
    have first := flat.upFirst (front ++ [.name name]) rest (by simp [shape]) (.name name) (by simp)
    cases first
  | top rest =>
    exact flat.noUp (isAbsolute_iff_head?.2 (by simp [shape])) (by simp [shape])

/-- A path that is folded already is flat. -/
theorem flat_of_folded_eq {path : Path} (same : path.folded = path.components) : path.Flat := by
  obtain ⟨names, named, shape⟩ := folded_cases path
  have isName := isName_of_named named
  have noUp : .up ∉ names := fun up => Bool.false_ne_true (isName _ up)
  have noHere : .here ∉ names := fun here => Bool.false_ne_true (isName _ here)
  rw [same] at shape
  rcases shape with shape | ⟨climbs, shape⟩
  · have down : .up ∉ path.components := by simpa [shape] using noUp
    refine ⟨by simpa [shape] using noHere, fun _ => down, fun front rest split => ?_⟩
    exact absurd (by simp [split]) down
  · refine ⟨by simp [shape, noHere], fun absolute => ?_, fun front rest split => ?_⟩
    · intro up
      have root := List.mem_of_head? (isAbsolute_iff_head?.1 absolute)
      rw [shape] at root
      rcases List.mem_append.1 root with climbed | name
      · cases List.eq_of_mem_replicate climbed
      · cases isName _ name
    · rcases List.append_eq_append_iff.1 (shape.symm.trans split) with
        ⟨between, -, later⟩ | ⟨between, climbed, -⟩
      · exact absurd (by simp [later]) noUp
      · intro component member
        refine List.eq_of_mem_replicate (n := climbs) ?_
        rw [climbed]
        exact List.mem_append_left _ member

/-- Where nothing can be folded, folding changes nothing. -/
theorem folded_eq_of_not_folds {path : Path} (stuck : ∀ shorter, ¬ Folds path.components shorter) :
    path.folded = path.components := by
  rcases (folds_folded path).cases_head with same | ⟨shorter, folds, -⟩
  · exact same.symm
  · exact absurd folds (stuck shorter)

/-- The flat paths are those that have nothing to fold. -/
theorem flat_iff_not_folds {path : Path} :
    path.Flat ↔ ∀ shorter, ¬ Folds path.components shorter :=
  ⟨fun flat _ => flat.not_folds, fun stuck => flat_of_folded_eq (folded_eq_of_not_folds stuck)⟩

instance (path : Path) : Decidable path.Flat :=
  decidable_of_iff (path.folded = path.components)
    ⟨flat_of_folded_eq, fun flat => folded_eq_of_not_folds (flat_iff_not_folds.1 flat)⟩

example : (of "../../a").Flat ∧ ¬ (of "a/../b").Flat ∧ ¬ (of "/..").Flat := by decide

/-- A normal form is `.` or flat. -/
theorem normalize_eq_dot_or_flat (path : Path) : path.normalize = of "." ∨ path.normalize.Flat := by
  by_cases nothing : path.folded = []
  · refine .inl ?_
    rw [normalize, nothing]
  · refine .inr (flat_of_folded_eq ?_)
    rw [folded_normalize, components_normalize nothing]

/-- The normal form of a path is `.` or flat, and it is its own normal form. Two paths have the
same one exactly when folding, in whatever order, and putting back lead from one to the other. A
base and a path lead from their normal forms where they lead together. -/
theorem normalize_canonical (base path : Path) :
    (path.normalize = of "." ∨ path.normalize.Flat) ∧
      path.normalize.normalize = path.normalize ∧
      (∀ other : Path, path.normalize = other.normalize ↔
        EqvGen Folds path.components other.components) ∧
      (base.join path).normalize = (base.normalize.join path.normalize).normalize := by
  refine ⟨normalize_eq_dot_or_flat path, normalize_normalize path, fun other => ?_, ?_⟩
  · rw [normalize_eq_iff, folded_eq_iff]
  · rw [normalize_eq_iff, folded_join_normalize, folded_normalize_join]

end Bundler.Path
