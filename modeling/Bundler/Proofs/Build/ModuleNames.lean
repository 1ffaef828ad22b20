import Bundler.Build.ModuleId
import Bundler.Proofs.Path.Spelling
import Bundler.Resolution
import Mathlib.Data.List.Basic

/-!
# Names of modules

Below an absolute directory every candidate of a request is spelled
canonically. `moduleId_inj` says that canonical paths without backslashes have
different identifiers: an identifier is the whole path, or what follows the
context behind `./`.
-/

namespace Bundler

namespace Resolution

theorem isAbsolute_of_mem_bases {directory base : Path} {request : String}
    (absolute : directory.isAbsolute = true) (member : base ∈ bases directory request) :
    base.isAbsolute = true := by
  unfold bases at member
  split at member
  · obtain rfl := List.mem_singleton.1 member
    exact Path.isAbsolute_join absolute _
  · split at member
    · next requestAbsolute =>
      obtain rfl := List.mem_singleton.1 member
      exact requestAbsolute
    · obtain ⟨ancestor, kept, rfl⟩ := List.mem_map.1 member
      have above := Path.isAbsolute_of_mem_parentChain absolute (List.mem_filter.1 kept).1
      exact Path.isAbsolute_join (Path.isAbsolute_join above _) _

/-- Requests from an absolute directory have canonical candidates only. -/
theorem canonical_of_mem_candidates {directory path : Path} {request : String}
    (absolute : directory.isAbsolute = true) (member : path ∈ candidates directory request) :
    path.Canonical := by
  obtain ⟨base, inside, member⟩ := List.mem_flatMap.1 member
  have canonical := Path.canonical_normalize (isAbsolute_of_mem_bases absolute inside)
  simp only [candidatesOf, List.mem_cons, List.not_mem_nil, or_false] at member
  rcases member with rfl | rfl | rfl
  · exact canonical
  · exact canonical.append (by decide) (by decide)
  · exact canonical.join ⟨by decide, by decide, by decide⟩

end Resolution

namespace Path

open Cut (IsName)

theorem Canonical.isAbsolute {path : Path} (canonical : path.Canonical) :
    path.isAbsolute = true := by
  obtain ⟨names, -, rfl⟩ := canonical
  exact isAbsolute_slash _

/-- Dropping components from names drops those names. -/
theorem dropComponents_names (components : List Component) {names : List String}
    (plain : ∀ name ∈ names, IsName name) :
    dropComponents components names =
      if components <+: names.map .name then some (names.drop components.length) else none := by
  induction names generalizing components with
  | nil =>
    cases components with
    | nil => simp [dropComponents]
    | cons component rest => simp [dropComponents]
  | cons name names ih =>
    cases components with
    | nil => simp [dropComponents]
    | cons component rest =>
      have isName := plain name List.mem_cons_self
      rw [dropComponents, isName.notIdle, if_neg Bool.false_ne_true, isName.componentOf,
        ih rest fun other member => plain other (List.mem_cons_of_mem _ member)]
      simp only [List.map_cons, List.cons_prefix_cons, List.length_cons, List.drop_succ_cons,
        eq_comm (a := Component.name name)]
      by_cases same : component = .name name
      · simp [same]
      · simp [same]

theorem trimEnd_names {names : List String} (plain : ∀ name ∈ names, IsName name) :
    Cut.trimEnd (names.dropWhile Cut.isIdle) = names := by
  have front : names.dropWhile Cut.isIdle = names := by
    cases names with
    | nil => rfl
    | cons name rest => simp [(plain name List.mem_cons_self).notIdle]
  have back : names.reverse.dropWhile Cut.isIdle = names.reverse := by
    cases reversed : names.reverse with
    | nil => rfl
    | cons name rest =>
      have member : name ∈ names := List.mem_reverse.1 (reversed ▸ List.mem_cons_self)
      simp [(plain name member).notIdle]
  rw [front, Cut.trimEnd, back, List.reverse_reverse]

/-- What follows an absolute context in a canonical path. -/
theorem stripPrefix?_ofNames {context : Path} {rest : List Component}
    (shape : context.components = .root :: rest) {names : List String}
    (plain : ∀ name ∈ names, IsName name) :
    (ofNames names).stripPrefix? context =
      if rest <+: names.map .name then some (of ("/".intercalate (names.drop rest.length)))
      else none := by
  rw [stripPrefix?, cut_ofNames plain, shape]
  simp only [Lead.components, if_true, Option.bind_some]
  by_cases none_ : names = []
  · subst none_
    cases rest with
    | nil => simp [dropComponents, Cut.trimEnd, Cut.isIdle, ofCut, Cut.text]
    | cons component rest => simp [dropComponents, Cut.isIdle]
  · rw [if_neg none_, dropComponents_names rest plain]
    split
    · have kept : Cut.trimEnd ((names.drop rest.length).dropWhile Cut.isIdle) =
          names.drop rest.length :=
        trimEnd_names fun name member => plain name (List.mem_of_mem_drop member)
      rw [Option.map_some, kept]
      rfl
    · rfl

theorem components_of_absolute {path : Path} (absolute : path.isAbsolute = true) :
    ∃ rest, path.components = .root :: rest := by
  obtain ⟨segments, shape, -⟩ := Cut.ofText_of_absolute ((isAbsolute_iff path).1 absolute)
  exact ⟨_, by rw [path.components_eq, shape]; rfl⟩

end Path

theorem forwardSlashes_eq_self {text : String} (plain : '\\' ∉ text.toList) :
    forwardSlashes text = text := by
  rw [forwardSlashes, ← String.toList_inj, String.toList_map]
  refine (List.map_congr_left fun c member => ?_).trans (List.map_id _)
  have apart : c ≠ '\\' := fun same => plain (same ▸ member)
  simp [apart]

/-- Characters other than the slash come from the names. -/
theorem mem_intercalate_iff {c : Char} (noSlash : c ≠ '/') (names : List String) :
    c ∈ ("/".intercalate names).toList ↔ ∃ name ∈ names, c ∈ name.toList := by
  induction names with
  | nil => simp
  | cons name rest ih =>
    by_cases none : rest = []
    · subst none
      simp
    · rw [String.intercalate_cons_of_ne_nil none, String.toList_append, String.toList_append,
        List.mem_append, List.mem_append, ih]
      simp [noSlash]

/-- The text of a path without backslashes and zero characters. -/
def Path.Plain (path : Path) : Prop := '\\' ∉ path.text.toList ∧ '\x00' ∉ path.text.toList

theorem notMem_intercalate_drop {c : Char} (noSlash : c ≠ '/') {names : List String}
    (absent : c ∉ (Path.ofNames names).text.toList) (count : Nat) :
    c ∉ ("/".intercalate (names.drop count)).toList := by
  rw [mem_intercalate_iff noSlash]
  rintro ⟨name, member, inside⟩
  apply absent
  rw [Path.text_ofNames, String.toList_append, List.mem_append, mem_intercalate_iff noSlash]
  exact .inr ⟨name, List.mem_of_mem_drop member, inside⟩

/-- The identifier of a plain path, for a context with the components `rest`
below the root. -/
theorem moduleId_ofNames {context : Path} {rest : List Component}
    (shape : context.components = .root :: rest) {names : List String}
    (isName : ∀ name ∈ names, Cut.IsName name) (plain : (Path.ofNames names).Plain) :
    moduleId context (.ofNames names) =
      if rest <+: names.map .name then "./" ++ "/".intercalate (names.drop rest.length)
      else (Path.ofNames names).text := by
  rw [moduleId, Path.stripPrefix?_ofNames shape isName]
  by_cases below : rest <+: names.map .name
  · rw [if_pos below, if_pos below]
    exact congrArg ("./" ++ ·)
      (forwardSlashes_eq_self (notMem_intercalate_drop (by decide) plain.1 rest.length))
  · rw [if_neg below, if_neg below]
    exact forwardSlashes_eq_self plain.1

section Absolute

variable {context : Path} (absolute : context.isAbsolute = true)

include absolute

/-- Canonical paths without backslashes have different identifiers. -/
theorem moduleId_inj {left right : Path} (leftCanonical : left.Canonical) (leftPlain : left.Plain)
    (rightCanonical : right.Canonical) (rightPlain : right.Plain)
    (same : moduleId context left = moduleId context right) : left = right := by
  obtain ⟨rest, shape⟩ := Path.components_of_absolute absolute
  obtain ⟨names, isName, rfl⟩ := leftCanonical
  obtain ⟨others, isOther, rfl⟩ := rightCanonical
  rw [moduleId_ofNames shape isName leftPlain, moduleId_ofNames shape isOther rightPlain] at same
  have startsApart : ∀ first second : String, "./" ++ first ≠ "/" ++ second := by
    intro first second equal
    have heads := congrArg (fun text : String => text.toList.head?) equal
    simp [String.toList_append] at heads
  split at same <;> split at same
  · next leftBelow rightBelow =>
    have tails : names.drop rest.length = others.drop rest.length := by
      refine Path.ofNames_inj (fun name member => isName name (List.mem_of_mem_drop member))
        (fun name member => isOther name (List.mem_of_mem_drop member)) (Path.ext_text ?_)
      rw [Path.text_ofNames, Path.text_ofNames, String.append_right_inj "./" |>.1 same]
    have fronts : names.take rest.length = others.take rest.length := by
      have injective : Function.Injective Component.name := fun _ _ equal => Component.name.inj equal
      refine List.map_injective_iff.2 injective ?_
      rw [List.map_take, List.map_take, ← List.prefix_iff_eq_take.1 leftBelow,
        ← List.prefix_iff_eq_take.1 rightBelow]
    rw [← List.take_append_drop rest.length names, fronts, tails, List.take_append_drop]
  · exact absurd same (startsApart _ _)
  · exact absurd same.symm (startsApart _ _)
  · exact Path.ext_text same

/-- The identifier of a path without zero characters has none. -/
theorem zero_notMem_moduleId {path : Path} (canonical : path.Canonical) (plain : path.Plain) :
    '\x00' ∉ (moduleId context path).toList := by
  obtain ⟨rest, shape⟩ := Path.components_of_absolute absolute
  obtain ⟨names, isName, rfl⟩ := canonical
  rw [moduleId_ofNames shape isName plain]
  split
  · have tail := notMem_intercalate_drop (by decide : '\x00' ≠ '/') plain.2 rest.length
    simpa [String.toList_append] using tail
  · exact plain.2

end Absolute

end Bundler
