import Bundler.Proofs.Build.EntryAssets
import Bundler.Proofs.Build.WatchedSet
import Bundler.Proofs.Options.EntryTargets
import Mathlib.Data.List.Nodup

/-!
# Entries written to one path

Different entries of accepted options name different files, so a build reports no conflict
between them. Files are compared as texts there and as paths when they are written:
`Options.overwritten_iff` says which names of entries are written over each other.
-/

namespace Bundler.Options

open Cut (IsName)

variable {options : Options}

/-- Two file names lead from the output path to one place: they take the same steps, or one
of them is absolute and leads there by itself. -/
def Coincide (output left right : Path) : Prop :=
  match left.isAbsolute, right.isAbsolute with
  | false, false => left.steps = right.steps ∧ (output.text = "" → left.lead = right.lead)
  | true, true => left.components = right.components
  | true, false => left.components = output.components ++ right.steps
  | false, true => right.components = output.components ++ left.steps

/-- An absolute path is no joined path of a relative one unless the base is absolute. -/
theorem components_eq_iff_of_absolute {output absolute relative : Path}
    (root : absolute.isAbsolute = true) (noRoot : relative.isAbsolute = false) :
    absolute.components = (output.join relative).components ↔
      absolute.components = output.components ++ relative.steps := by
  rw [Path.components_join]
  by_cases empty : output.text = ""
  · have rooted : absolute.components = .root :: absolute.steps := by
      rw [Path.components_eq_lead_append, (Path.lead_eq_root_iff absolute).2 root]
      rfl
    have lead : relative.lead ≠ .root := by
      rw [ne_eq, Path.lead_eq_root_iff, noRoot]
      exact Bool.false_ne_true
    have unrooted : ∀ lead : Lead, lead ≠ .root → ∀ rest : List Component,
        Component.root :: rest ≠ lead.components ++ relative.steps := by
      intro lead other rest same
      have member : Component.root ∈ lead.components ++ relative.steps := by simp [← same]
      rcases List.mem_append.1 member with first | step
      · cases lead with
        | root => exact other rfl
        | here | none => simp [Lead.components] at first
      · rcases Path.mem_steps step with up | ⟨name, -, named⟩
        · cases up
        · cases named
    have none : output.components = Lead.none.components := by
      rw [← Path.of_text output, empty]
      rfl
    rw [if_pos (.inr empty), rooted, Path.components_eq_lead_append relative, none]
    exact iff_of_false (unrooted _ lead _) (unrooted .none (by simp) _)
  · rw [if_neg (by simp [noRoot, empty])]

/-- Files of one lead are spellings of one path when they take the same steps. -/
theorem same_join_iff (output left right : Path) :
    (output.join left).same (output.join right) = true ↔ Coincide output left right := by
  rw [Path.same_iff, Coincide]
  cases leftRoot : left.isAbsolute with
  | true =>
    have alone : output.join left = left := by rw [Path.join, if_pos leftRoot]
    rw [alone]
    cases rightRoot : right.isAbsolute with
    | true => rw [Path.join, if_pos rightRoot]
    | false => exact components_eq_iff_of_absolute leftRoot rightRoot
  | false =>
    cases rightRoot : right.isAbsolute with
    | true =>
      have alone : output.join right = right := by rw [Path.join, if_pos rightRoot]
      rw [alone, eq_comm]
      exact components_eq_iff_of_absolute rightRoot leftRoot
    | false =>
      simp only [Path.components_join, leftRoot, rightRoot, Bool.false_eq_true, false_or]
      split
      · next empty => simp [Path.components_eq_iff, empty, and_comm]
      · next some_ => simp [some_]

/-- Several names are listed by a table that has two of them. -/
theorem one_lt_size {first second : String × String} (here : first ∈ options.entry.entries)
    (there : second ∈ options.entry.entries) (apart : first.1 ≠ second.1) :
    1 < options.entry.size := by
  match shape : options.entry.entries with
  | [] => simp [shape] at here
  | [only] =>
    rw [shape, List.mem_singleton] at here there
    exact absurd (by rw [here, there]) apart
  | _ :: _ :: _ => simp [Table.size, shape]

/-- A template with a place names different files for different entries. -/
theorem filenameFor_injective
    (shared : Text.contains options.output.filename placeholder = true) {first second : String}
    (same : options.output.filenameFor first = options.output.filenameFor second) :
    first = second := by
  have texts := congrArg String.toList same
  simp only [OutputOptions.filenameFor, Text.replaceAll, String.toList_ofList] at texts
  exact String.toList_injective (Text.replaceFrom_injective (by decide) shared texts)

/-- The files that accepted options name for their entries are different. -/
theorem filenames_nodup (accepted : options.validate = .ok ()) (sorted : options.entry.Sorted) :
    (options.entry.keys.map options.output.filenameFor).Nodup := by
  by_cases several : 1 < options.entry.size
  · exact sorted.nodup_keys.map fun _ _ same =>
      filenameFor_injective ((template_of_validate accepted).2 several) same
  · -- A single file differs from no other.
    rw [Table.size] at several
    rcases shape : options.entry.entries with _ | ⟨only, _ | ⟨other, rest⟩⟩
    · simp [Table.keys, shape]
    · simp [Table.keys, shape]
    · simp [shape] at several

/-- Two plain names are written to different paths. -/
theorem target_ne_of_plain (inside : staysInside (.of options.output.filename) = true)
    (shared : Text.contains options.output.filename placeholder = true) {first second : String}
    (isFirst : IsName first) (isSecond : IsName second) (apart : first ≠ second) :
    (options.target first).same (options.target second) = false := by
  rw [Bool.eq_false_iff, ne_eq]
  intro same
  have coincide := (same_join_iff _ (options.file first) (options.file second)).1 same
  simp only [Coincide, isAbsolute_file isFirst inside, isAbsolute_file isSecond inside] at coincide
  obtain ⟨segment, member, present⟩ := Text.exists_segment_occurs (by decide) (by decide) shared
  have notIdle : Cut.isIdle (String.ofList segment) = false := by
    rw [Bool.eq_false_iff, ne_eq]
    intro idle
    rcases shape_of_idle idle with rfl | rfl
    · exact absurd present (by decide)
    · exact absurd present (by decide)
  have steps := coincide.1
  rw [steps_file isFirst inside, steps_file isSecond inside] at steps
  have filled := List.map_inj_left.1 steps segment (List.mem_filter.2 ⟨member, by simp [notIdle]⟩)
  have texts := String.ofList_injective (Component.name.inj filled)
  exact apart (String.toList_injective (Text.replaceFrom_injective (by decide) present texts))

/-- For two entries of accepted options it holds that they are written to different paths
or that their build reports a conflict, exactly when the files named for them do not
coincide. The build never reports one, and plain names are told apart. -/
theorem overwritten_iff (digest : ByteArray → Fingerprint) (budget : Nat)
    (cache : Option ArtifactCache) {compilation : Compilation} (view : FileView)
    (accepted : options.validate = .ok ()) (sorted : options.entry.Sorted)
    (fresh : compilation.assets = Table.empty) (unreported : ¬ compilation.ReportsConflict)
    {first second : String × String} (here : first ∈ options.entry.entries)
    (there : second ∈ options.entry.entries) (apart : first.1 ≠ second.1) :
    ((options.target first.1).same (options.target second.1) = false ∨
        ((buildBundles digest options budget cache compilation).answer
          view).compilation.ReportsConflict ↔
      ¬ Coincide options.output.path (options.file first.1) (options.file second.1)) ∧
    (IsName first.1 → IsName second.1 →
      (options.target first.1).same (options.target second.1) = false) := by
  have several := one_lt_size here there apart
  obtain ⟨inside, shared⟩ := template_of_validate accepted
  constructor
  · have quiet : ¬ ((buildBundles digest options budget cache compilation).answer
        view).compilation.ReportsConflict := fun reports =>
      unreported (Build.reportsConflict_of_build (filenames_nodup accepted sorted) fresh
        reports)
    rw [or_iff_left quiet, Bool.eq_false_iff, ne_eq]
    exact not_congr (same_join_iff ..)
  · intro isFirst isSecond
    exact target_ne_of_plain inside (shared several) isFirst isSecond apart

/-- Two entries of plain names. -/
def plainEntries : Table String String := (Table.empty.insert "a" "./a").insert "b" "./b"

/-- Entries of plain names are kept apart. -/
theorem plain_entries_apart :
    (projectOptions plainEntries).validate = .ok () ∧
      ((projectOptions plainEntries).target "a").same ((projectOptions plainEntries).target "b") =
        false := by
  have accepted : (projectOptions plainEntries).validate = .ok () := by decide +kernel
  have sorted : (projectOptions plainEntries).entry.Sorted :=
    (Table.sorted_empty.insert "a" "./a").insert "b" "./b"
  have unreported : ¬ ({ id := 1 } : Compilation).ReportsConflict := by
    rintro ⟨name, member⟩
    cases member
  have here : ("a", "./a") ∈ (projectOptions plainEntries).entry.entries := by decide +kernel
  have there : ("b", "./b") ∈ (projectOptions plainEntries).entry.entries := by decide +kernel
  have apart := overwritten_iff Fingerprint.of 2 none (.holding []) accepted sorted rfl unreported
    here there (by decide)
  refine ⟨accepted, apart.2 ?_ ?_⟩
  · exact ⟨by decide, by decide, by decide⟩
  · exact ⟨by decide, by decide, by decide⟩

/-- The entries `a` and `./a` are accepted together, built without a conflict, and written
to one path. -/
theorem entries_overwritten :
    ¬ ∀ (options : Options) (view : FileView), options.validate = .ok () →
      ∀ first ∈ options.entry.entries, ∀ second ∈ options.entry.entries, first.1 ≠ second.1 →
        (options.target first.1).same (options.target second.1) = false ∨
          ((buildBundles Fingerprint.of options 5 none { id := 1 }).answer
            view).compilation.ReportsConflict := by
  intro apart
  have claimed := apart (projectOptions ((Table.empty.insert "a" "./x").insert "./a" "./y"))
    (.holding [(.of "/project/x.js", "1".toUTF8), (.of "/project/y.js", "2".toUTF8)])
    (by decide +kernel) ("a", "./x") (by decide +kernel) ("./a", "./y") (by decide +kernel)
    (by decide)
  rcases claimed with different | reports
  · exact absurd different (by decide +kernel)
  · have none : ((buildBundles Fingerprint.of
        (projectOptions ((Table.empty.insert "a" "./x").insert "./a" "./y")) 5 none
        { id := 1 }).answer (.holding [(.of "/project/x.js", "1".toUTF8),
          (.of "/project/y.js", "2".toUTF8)])).compilation.errors = [] := by decide +kernel
    obtain ⟨name, member⟩ := reports
    rw [none] at member
    cases member

end Bundler.Options
