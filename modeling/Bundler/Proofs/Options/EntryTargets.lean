import Bundler.CommandLine.DryRun
import Bundler.Options.Validity
import Bundler.Proofs.Path.Joining
import Bundler.Proofs.Text.Substitution

/-!
# Where entries are written

The asset of an entry is named by the file name template with the entry's name in it,
and written to that name joined to the output path. Options are accepted for the template
alone: it stays inside the output directory. What the name of an entry does to the written
path is said by `Options.target_below_iff`.
-/

namespace Bundler

open Cut (IsName)

/-- A segment is a name unless it is one of the three short runs of dots. -/
theorem Cut.isName_iff {segment : String} (plain : '/' ∉ segment.toList) :
    IsName segment ↔ ¬ ((∀ c ∈ segment.toList, c = '.') ∧ segment.toList.length ≤ 2) := by
  constructor
  · rintro isName ⟨dots, short⟩
    have spelled : segment = String.ofList segment.toList := String.ofList_toList.symm
    match shape : segment.toList with
    | [] =>
      rw [shape] at spelled
      exact absurd isName.notIdle (by rw [spelled]; decide)
    | [c] =>
      have only := dots c (by simp [shape])
      rw [shape, only] at spelled
      exact absurd isName.notIdle (by rw [spelled]; decide)
    | [c, d] =>
      have first := dots c (by simp [shape])
      have second := dots d (by simp [shape])
      rw [shape, first, second] at spelled
      exact isName.notUp spelled
    | _ :: _ :: _ :: _ =>
      rw [shape] at short
      simp at short
  · intro longer
    refine ⟨plain, ?_, ?_⟩
    · rw [isIdle, Bool.or_eq_false_iff, beq_eq_false_iff_ne, beq_eq_false_iff_ne]
      constructor
      · rintro rfl
        exact longer ⟨by simp, by simp⟩
      · rintro rfl
        exact longer ⟨by simp, by simp⟩
    · rintro rfl
      exact longer ⟨by simp, by simp⟩

namespace Options

/-- The name of the file that the asset of an entry is written to, as a path. -/
def file (options : Options) (name : String) : Path := .of (options.output.filenameFor name)

/-- The template has a segment that stands for a name. -/
def NamesFile (options : Options) : Prop :=
  ∃ component ∈ (Path.of options.output.filename).components, component.isName = true

/-! ## Accepted templates -/

theorem checkOutput_of_validate {options : Options} (accepted : options.validate = .ok ()) :
    options.checkOutput = .ok () := by
  unfold validate at accepted
  cases entries : options.checkEntries with
  | error cause => simp [entries, bind, Except.bind] at accepted
  | ok _ =>
    cases output : options.checkOutput with
    | error cause => simp [entries, output, bind, Except.bind] at accepted
    | ok _ => rfl

/-- An accepted template stays inside, and several entries are told apart in it. -/
theorem template_of_validate {options : Options} (accepted : options.validate = .ok ()) :
    staysInside (.of options.output.filename) = true ∧
      (1 < options.entry.size → Text.contains options.output.filename placeholder = true) := by
  have output := checkOutput_of_validate accepted
  simp only [checkOutput] at output
  split at output
  · cases output
  · split at output
    · cases output
    · next inside =>
      split at output
      · cases output
      · next shared =>
        refine ⟨by simpa using inside, fun several => ?_⟩
        simpa [several] using shared

/-- The segments of a template. -/
def segments (options : Options) : List (List Char) :=
  Cut.segmentsOf options.output.filename.toList

/-- No segment of a template that stays inside is `..`. -/
theorem ne_up_of_staysInside {options : Options}
    (inside : staysInside (.of options.output.filename) = true) {segment : List Char}
    (member : segment ∈ options.segments) : String.ofList segment ≠ ".." := by
  intro up
  have step : Component.up ∈ (Path.of options.output.filename).steps := by
    refine List.mem_map.2 ⟨"..", List.mem_filter.2 ⟨?_, by decide⟩, rfl⟩
    exact List.mem_map.2 ⟨segment, member, up⟩
  have component : Component.up ∈ (Path.of options.output.filename).components := by
    rw [Path.components_eq_lead_append]
    exact List.mem_append_right _ step
  rw [staysInside, Bool.and_eq_true] at inside
  have kept := List.all_eq_true.1 inside.2 .up component
  cases kept

/-! ## Plain entry names -/

section Plain

variable {options : Options} {name : String}

/-- One segment of a template with the name of an entry in it. -/
def segmentFor (name : String) (segment : List Char) : List Char :=
  Text.replaceFrom placeholder.toList name.toList 0 segment

theorem segmentsOf_filenameFor (plain : '/' ∉ name.toList) :
    Cut.segmentsOf (options.output.filenameFor name).toList =
      options.segments.map (segmentFor name) := by
  rw [OutputOptions.filenameFor, Text.replaceAll, String.toList_ofList, segments]
  cases shape : Cut.segmentsOf options.output.filename.toList with
  | nil => exact absurd shape (Cut.segmentsOf_ne_nil _)
  | cons first others =>
    exact Text.segmentsOf_replaceFrom (by decide) (by decide) plain shape (Nat.zero_le _)

theorem shape_of_idle {segment : List Char} (idle : Cut.isIdle (String.ofList segment) = true) :
    segment = [] ∨ segment = ['.'] := by
  rw [Cut.isIdle, Bool.or_eq_true, beq_iff_eq, beq_iff_eq] at idle
  exact idle.imp (fun blank => by simpa using congrArg String.toList blank)
    (fun dot => by simpa using congrArg String.toList dot)

/-- An idle segment has no place for a name. -/
theorem segmentFor_of_idle {segment : List Char} (idle : Cut.isIdle (String.ofList segment) = true) :
    segmentFor name segment = segment := by
  rcases shape_of_idle idle with rfl | rfl <;> rfl

/-- A segment that stands for a name does so with a name in it. -/
theorem isName_segmentFor (isName : IsName name) {segment : List Char}
    (named : IsName (String.ofList segment)) : IsName (String.ofList (segmentFor name segment)) := by
  have plain : '/' ∉ segment := by simpa using named.noSlash
  cases present : Text.occurs placeholder.toList segment with
  | false =>
    rw [segmentFor, Text.replaceFrom_of_not_occurs _ present]
    exact named
  | true =>
    have whole : Cut.segmentsOf segment = [segment] := by
      simpa using Text.segmentsOf_append plain (rfl : Cut.segmentsOf [] = [[]])
    have filled : Cut.segmentsOf (segmentFor name segment) = [segmentFor name segment] :=
      Text.segmentsOf_replaceFrom (by decide) (by decide) isName.noSlash whole (Nat.zero_le _)
    have noSlash : '/' ∉ segmentFor name segment :=
      Cut.noSlash_of_mem_segmentsOf (by rw [filled]; exact List.mem_singleton_self _)
    have inside : name.toList <:+: segmentFor name segment :=
      Text.isInfix_replaceFrom (by decide) present _
    refine (Cut.isName_iff (by simpa using noSlash)).2 ?_
    rw [String.toList_ofList]
    rintro ⟨dots, short⟩
    refine (Cut.isName_iff isName.noSlash).1 isName ⟨fun c member => ?_, ?_⟩
    · exact dots c (inside.subset member)
    · exact Nat.le_trans inside.length_le short

/-- An accepted segment is idle or stands for a name. -/
theorem isName_of_segment (inside : staysInside (.of options.output.filename) = true)
    {segment : List Char} (member : segment ∈ options.segments)
    (notIdle : Cut.isIdle (String.ofList segment) = false) : IsName (String.ofList segment) :=
  ⟨by simpa using Cut.noSlash_of_mem_segmentsOf member, notIdle, ne_up_of_staysInside inside member⟩

/-- A plain name makes no segment idle and no idle segment count. -/
theorem isIdle_segmentFor (isName : IsName name)
    (inside : staysInside (.of options.output.filename) = true) {segment : List Char}
    (member : segment ∈ options.segments) :
    Cut.isIdle (String.ofList (segmentFor name segment)) = Cut.isIdle (String.ofList segment) := by
  cases idle : Cut.isIdle (String.ofList segment) with
  | true => rw [segmentFor_of_idle idle, idle]
  | false => exact (isName_segmentFor isName (isName_of_segment inside member idle)).notIdle

/-- The steps of the file of a plain name are the named segments of the template, with the
name in them. -/
theorem steps_file (isName : IsName name)
    (inside : staysInside (.of options.output.filename) = true) :
    (options.file name).steps =
      (options.segments.filter fun segment => !Cut.isIdle (String.ofList segment)).map
        fun segment => .name (String.ofList (segmentFor name segment)) := by
  change Cut.stepsOf ((Cut.segmentsOf (options.output.filenameFor name).toList).map _) = _
  rw [segmentsOf_filenameFor isName.noSlash, List.map_map, Cut.stepsOf, List.filter_map, List.map_map]
  have kept : options.segments.filter
      ((fun segment => !Cut.isIdle segment) ∘ String.ofList ∘ segmentFor name) =
      options.segments.filter fun segment => !Cut.isIdle (String.ofList segment) :=
    List.filter_congr fun segment member => by
      simp [isIdle_segmentFor isName inside member]
  rw [kept]
  refine List.map_congr_left fun segment member => ?_
  obtain ⟨among, notIdle⟩ := List.mem_filter.1 member
  have named := isName_of_segment inside among (by simpa using notIdle)
  exact (isName_segmentFor isName named).componentOf

/-- The file of a plain name is relative. -/
theorem isAbsolute_file (isName : IsName name)
    (inside : staysInside (.of options.output.filename) = true) :
    (options.file name).isAbsolute = false := by
  rw [Bool.eq_false_iff, ne_eq, ← Path.lead_eq_root_iff]
  intro root
  have relative : (Path.of options.output.filename).lead ≠ .root := by
    rw [ne_eq, Path.lead_eq_root_iff]
    simp only [staysInside, Bool.and_eq_true, Bool.not_eq_true'] at inside
    simp [inside.1]
  change Cut.leadOf ((Cut.segmentsOf (options.output.filenameFor name).toList).map _) = _ at root
  rw [segmentsOf_filenameFor isName.noSlash, List.map_map] at root
  change Cut.leadOf (options.segments.map _) ≠ _ at relative
  cases shape : options.segments with
  | nil => exact Cut.segmentsOf_ne_nil _ shape
  | cons first others =>
    have member : first ∈ options.segments := by simp [shape]
    have idle := isIdle_segmentFor isName inside member
    rw [shape] at root relative
    by_cases blank : segmentFor name first = []
    · -- Only an empty segment stays empty, so the template would have to start with a slash.
      have same : first = [] := by
        rw [blank] at idle
        rw [← blank]
        exact (segmentFor_of_idle idle.symm).symm
      rw [same] at relative
      refine relative ?_
      cases others with
      | nil => simp [blank, Cut.leadOf] at root
      | cons second others => simp [Cut.leadOf]
    · simp only [List.map_cons, Cut.leadOf, Function.comp_apply, String.ofList_eq_empty_iff, blank,
        false_and, if_false] at root
      split at root <;> cases root

theorem exists_named_segment (names : options.NamesFile) :
    ∃ segment ∈ options.segments, Cut.isIdle (String.ofList segment) = false := by
  obtain ⟨component, member, isName⟩ := names
  rw [Path.components_eq_lead_append] at member
  rcases List.mem_append.1 member with lead | step
  · cases shape : (Path.of options.output.filename).lead <;>
      simp only [shape, Lead.components, List.mem_singleton, List.not_mem_nil] at lead <;>
      simp [lead, Component.isName] at isName
  · obtain ⟨segment, kept, -⟩ := List.mem_map.1 step
    obtain ⟨among, notIdle⟩ := List.mem_filter.1 kept
    obtain ⟨text, inside, rfl⟩ := List.mem_map.1 among
    exact ⟨text, inside, by simpa using notIdle⟩

/-- A plain name is written below the output path, if the template names a file. -/
theorem below_target (isName : IsName name)
    (inside : staysInside (.of options.output.filename) = true) (names : options.NamesFile) :
    (options.target name).Below options.output.path := by
  have relative := isAbsolute_file isName inside
  have allNames : ∀ component ∈ (options.file name).steps, component.isName = true := by
    intro component member
    rw [steps_file isName inside] at member
    obtain ⟨segment, -, rfl⟩ := List.mem_map.1 member
    rfl
  have some_ : (options.file name).steps ≠ [] := by
    obtain ⟨segment, among, notIdle⟩ := exists_named_segment names
    rw [steps_file isName inside, ne_eq, List.map_eq_nil_iff, List.filter_eq_nil_iff]
    intro none
    exact none segment among (by simp [notIdle])
  have folded : (options.file name).folded = (options.file name).steps := by
    rw [Path.folded_eq, Path.start, relative, if_neg Bool.false_ne_true, Path.foldl_names allNames,
      List.append_nil, List.reverse_reverse]
  have returns : options.output.path.Returns (options.file name) := by
    refine ⟨0, [], (options.file name).steps, some_, ?_, ?_, .inl ⟨rfl, List.nil_suffix⟩⟩
    · rwa [List.nil_append]
    · rwa [List.replicate_zero, List.nil_append, List.nil_append]
  exact (Path.below_join_iff relative).2 returns

end Plain

/-! ## Targets below the output path -/

/-- Where an accepted entry is written lies below the output path exactly when the file
named for it returns there: a relative file may climb over last names of the output path
only to take them again, an absolute one has to lie there by itself. A plain name always
does where the template names a file. -/
theorem target_below_iff {options : Options} (accepted : options.validate = .ok ()) :
    ∀ entry ∈ options.entry.entries,
      ((options.target entry.1).Below options.output.path ↔
        if (options.file entry.1).isAbsolute then
          (options.file entry.1).Below options.output.path
        else options.output.path.Returns (options.file entry.1)) ∧
      (IsName entry.1 → options.NamesFile → (options.target entry.1).Below options.output.path) := by
  rintro ⟨name, request⟩ -
  constructor
  · by_cases absolute : (options.file name).isAbsolute = true
    · have alone : options.target name = options.file name := by
        change options.output.path.join (options.file name) = _
        rw [Path.join, if_pos absolute]
      rw [if_pos absolute, alone]
    · rw [if_neg absolute]
      have relative : (options.file name).isAbsolute = false := by simpa using absolute
      exact Path.below_join_iff relative
  · intro isName names
    exact below_target isName (template_of_validate accepted).1 names

/-- Accepted options, of a project that is built to `/project/dist`. -/
def projectOptions (entries : Table String String) : Options where
  context := .of "/project"
  entry := entries
  output := { path := .of "/project/dist" }
  noEmitOnErrors := true

/-- A plain entry is written below the output path. -/
theorem target_below_plain :
    (projectOptions (Table.empty.insert "a" "./a")).validate = .ok () ∧
      ((projectOptions (Table.empty.insert "a" "./a")).target "a").Below (.of "/project/dist") := by
  refine ⟨by decide +kernel, ?_⟩
  refine (target_below_iff (by decide +kernel) ("a", "./a") (by decide +kernel)).2 ?_ ?_
  · exact ⟨by decide, by decide, by decide⟩
  · exact ⟨.name "[name].js", by decide +kernel, rfl⟩

/-- An entry name with `..` is accepted and written beside the output directory. -/
theorem target_outside :
    ¬ ∀ options : Options, options.validate = .ok () → ∀ entry ∈ options.entry.entries,
      (options.target entry.1).Below options.output.path := by
  intro inside
  obtain ⟨names, -, -, same⟩ := inside (projectOptions (Table.empty.insert "../a" "./a"))
    (by decide +kernel) ("../a", "./a") (by decide +kernel)
  rw [Path.folded_normalize, Path.folded_normalize] at same
  have target : ((projectOptions (Table.empty.insert "../a" "./a")).target "../a").folded =
      [.root, .name "project", .name "a.js"] := by decide +kernel
  have base : (projectOptions (Table.empty.insert "../a" "./a")).output.path.folded =
      [.root, .name "project", .name "dist"] := by decide +kernel
  rw [target, base] at same
  simp at same

end Options

end Bundler
