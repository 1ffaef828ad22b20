import Bundler.Proofs.Path.Joining
import Mathlib.Data.List.DropRight

/-!
# Parents

A parent is read as its path without the last component, however the path is written, and
only the root and the empty path have none (`Path.components_parent`,
`Path.parent?_eq_none_iff`).
-/

namespace Bundler

namespace Cut

/-! ## Idle segments at the end -/

theorem stepsOf_trimEnd (segments : List String) : stepsOf (trimEnd segments) = stepsOf segments := by
  change stepsOf (segments.rdropWhile isIdle) = stepsOf segments
  induction segments using List.reverseRecOn with
  | nil => rfl
  | append_singleton front last ih =>
    rw [List.rdropWhile_concat]
    split
    · next idle =>
      rw [ih, stepsOf_append, stepsOf_cons_idle idle]
      exact (List.append_nil _).symm
    · rfl

theorem trimEnd_prefix (segments : List String) : trimEnd segments <+: segments :=
  List.rdropWhile_prefix isIdle segments

/-- What is left of trimmed segments ends with a step. -/
theorem stepsOf_dropLast {segments : List String} (some_ : trimEnd segments ≠ []) :
    ∃ last, stepsOf segments = stepsOf (trimEnd segments).dropLast ++ [componentOf last] := by
  refine ⟨(trimEnd segments).getLast some_, ?_⟩
  have notIdle : ¬ isIdle ((trimEnd segments).getLast some_) = true :=
    List.rdropWhile_last_not isIdle segments some_
  have single : stepsOf [(trimEnd segments).getLast some_] =
      [componentOf ((trimEnd segments).getLast some_)] := by
    simp [stepsOf, notIdle]
  rw [← single, ← stepsOf_append, List.dropLast_append_getLast, stepsOf_trimEnd]

/-! ## Texts of cuts -/

/-- A cut that its own text is cut into: no slash in a segment, and no idle segment where
only a start could stand. -/
structure Fits (cut : Cut) : Prop where
  noSlash : ∀ segment ∈ cut.segments, '/' ∉ segment.toList
  notIdle : cut.lead = .none → ∀ first rest, cut.segments = first :: rest → isIdle first = false

theorem noSlash_ofText {text segment : String} (member : segment ∈ (ofText text).segments) :
    '/' ∉ segment.toList := by
  have listed : segment ∈ (segmentsOf text.toList).map String.ofList := by
    unfold ofText at member
    split at member
    · next shape =>
      rw [shape]
      exact List.mem_cons_of_mem _ member
    · next shape =>
      rw [shape]
      exact List.mem_cons_of_mem _ member
    · exact member
  obtain ⟨piece, inside, rfl⟩ := List.mem_map.1 listed
  simpa using noSlash_of_mem_segmentsOf inside

/-- Without a start, a first segment that another one follows is a step. -/
theorem notIdle_ofText {text first next : String} {rest : List String}
    (lead : (ofText text).lead = .none) (shape : (ofText text).segments = first :: next :: rest) :
    isIdle first = false := by
  unfold ofText at lead shape
  split at lead
  · cases lead
  · cases lead
  · next notRoot notHere =>
    simp only at shape
    rw [isIdle, Bool.or_eq_false_iff, beq_eq_false_iff_ne, beq_eq_false_iff_ne]
    constructor
    · rintro rfl
      exact notRoot _ _ shape
    · rintro rfl
      exact notHere _ shape

/-- The components of the path that a cut writes are those of the cut. -/
theorem Fits.components_ofCut {cut : Cut} (fits : cut.Fits) :
    (Path.ofCut cut).components = cut.lead.components ++ stepsOf cut.segments := by
  obtain ⟨lead, segments⟩ := cut
  have read : segments ≠ [] →
      (segmentsOf ("/".intercalate segments).toList).map String.ofList = segments :=
    fun some_ => segmentsOf_intercalate some_ fits.noSlash
  rw [Path.components_eq, components_ofText]
  change (leadOf ((segmentsOf (text ⟨lead, segments⟩).toList).map String.ofList)).components ++
    stepsOf ((segmentsOf (text ⟨lead, segments⟩).toList).map String.ofList) = _
  by_cases none : segments = []
  · subst none
    cases lead <;> rfl
  · obtain ⟨first, rest, rfl⟩ := List.exists_cons_of_ne_nil none
    have read := read none
    cases lead with
    | root =>
      have text : (Cut.text ⟨.root, first :: rest⟩).toList =
          '/' :: ("/".intercalate (first :: rest)).toList := by
        simp [Cut.text, String.toList_append]
      rw [text, segmentsOf, if_pos rfl, List.map_cons, read]
      rfl
    | here =>
      have text : (Cut.text ⟨.here, first :: rest⟩).toList =
          ['.'] ++ '/' :: ("/".intercalate (first :: rest)).toList := by
        simp [Cut.text, String.toList_append]
      rw [text, segmentsOf_append_slash, List.map_append, read]
      rfl
    | none =>
      have notIdle := fits.notIdle rfl first rest rfl
      have lead : leadOf (first :: rest) = .none := by
        simp only [isIdle, Bool.or_eq_false_iff, beq_eq_false_iff_ne] at notIdle
        simp [leadOf, notIdle]
      rw [Cut.text, read, lead]

end Cut

namespace Path

variable {path parent : Path}

/-- Every path but the root and the empty one has a parent, which lacks its last component. -/
theorem parent?_cases (path : Path) :
    (path.parent? = none ∧ (path.components = [] ∨ path.components = [.root])) ∨
      ∃ parent last, path.parent? = some parent ∧ last ≠ .root ∧
        path.components = parent.components ++ [last] := by
  have components : path.components = path.cut.lead.components ++ Cut.stepsOf path.cut.segments :=
    path.components_eq
  by_cases trimmed : Cut.trimEnd path.cut.segments = []
  · have idle : Cut.stepsOf path.cut.segments = [] := by
      rw [← Cut.stepsOf_trimEnd, trimmed]
      rfl
    rw [idle, List.append_nil] at components
    rw [parent?, trimmed]
    cases lead : path.cut.lead with
    | root => exact .inl ⟨rfl, .inr (by rw [components, lead]; rfl)⟩
    | none => exact .inl ⟨rfl, .inl (by rw [components, lead]; rfl)⟩
    | here => exact .inr ⟨of "", .here, rfl, by simp, by rw [components, lead]; rfl⟩
  · obtain ⟨last, steps⟩ := Cut.stepsOf_dropLast trimmed
    have front : Cut.trimEnd (Cut.trimEnd path.cut.segments).dropLast <+: path.cut.segments :=
      (Cut.trimEnd_prefix _).trans ((List.dropLast_prefix _).trans (Cut.trimEnd_prefix _))
    have fits : Cut.Fits
        ⟨path.cut.lead, Cut.trimEnd (Cut.trimEnd path.cut.segments).dropLast⟩ := by
      refine ⟨fun segment member => Cut.noSlash_ofText (front.subset member), ?_⟩
      rintro lead first rest shape
      -- the last segment was dropped, so another one follows the first
      have longer : 2 ≤ path.cut.segments.length := by
        have short := (Cut.trimEnd_prefix (Cut.trimEnd path.cut.segments).dropLast).length_le
        have long := (Cut.trimEnd_prefix path.cut.segments).length_le
        rw [show Cut.trimEnd (Cut.trimEnd path.cut.segments).dropLast = first :: rest from shape,
          List.length_cons, List.length_dropLast] at short
        omega
      obtain ⟨more, split⟩ := front
      rw [show Cut.trimEnd (Cut.trimEnd path.cut.segments).dropLast = first :: rest from shape,
        List.cons_append] at split
      cases others : rest ++ more with
      | nil =>
        rw [← split, others] at longer
        simp at longer
      | cons next others' =>
        rw [others] at split
        exact Cut.notIdle_ofText lead split.symm
    have some_ : path.parent? =
        some (ofCut ⟨path.cut.lead, Cut.trimEnd (Cut.trimEnd path.cut.segments).dropLast⟩) := by
      rw [parent?]
      split
      · next nothing => exact absurd nothing trimmed
      · rfl
    refine .inr ⟨_, Cut.componentOf last, some_, ?_, ?_⟩
    · rw [Cut.componentOf]
      split <;> simp
    · rw [fits.components_ofCut, components, steps, Cut.stepsOf_trimEnd, List.append_assoc]

theorem parent?_eq_none_iff :
    path.parent? = none ↔ path.components = [] ∨ path.components = [.root] := by
  rcases path.parent?_cases with ⟨none, shape⟩ | ⟨parent, last, some_, notRoot, shape⟩
  · exact iff_of_true none shape
  · refine iff_of_false (by simp [some_]) ?_
    rw [shape]
    rintro (nothing | root)
    · simp at nothing
    · have same := List.append_inj_right' (root.trans (List.nil_append [Component.root]).symm) rfl
      exact notRoot (List.cons.inj same).1

/-- A parent is read as its path without the last component. -/
theorem components_parent (isParent : path.parent? = some parent) :
    ∃ last, last ≠ .root ∧ path.components = parent.components ++ [last] := by
  rcases path.parent?_cases with ⟨none, -⟩ | ⟨other, last, some_, notRoot, shape⟩
  · rw [none] at isParent
    cases isParent
  · rw [some_] at isParent
    obtain rfl := Option.some.inj isParent
    exact ⟨last, notRoot, shape⟩

/-- Only the empty text is read as no component. -/
theorem components_eq_nil_iff : path.components = [] ↔ path.text = "" := by
  constructor
  · intro nothing
    obtain ⟨lead, steps⟩ := List.append_eq_nil_iff.1 (path.components_eq_lead_append ▸ nothing)
    obtain ⟨first, rest, pieces⟩ := List.exists_cons_of_ne_nil (segments_ne_nil path.text)
    rw [Path.lead, pieces] at lead
    rw [Path.steps, pieces] at steps
    have empty : first = "" := by
      by_contra named
      have notHere : first ≠ "." := by
        rintro rfl
        simp [Cut.leadOf, Lead.components] at lead
      simp [Cut.stepsOf, Cut.isIdle, named, notHere] at steps
    have alone : rest = [] := by
      by_contra more
      simp [Cut.leadOf, Lead.components, empty, more] at lead
    have blank : Cut.segmentsOf path.text.toList = [[]] := by
      simpa [empty, alone, List.map_eq_singleton_iff] using pieces
    simpa using Cut.eq_nil_of_segmentsOf blank
  · intro empty
    rw [path.components_eq, empty]
    rfl

/-- An absolute path is read with the root first. -/
theorem isAbsolute_iff_head? : path.isAbsolute = true ↔ path.components.head? = some .root := by
  rw [← lead_eq_root_iff, components_eq_lead_append]
  cases path.lead with
  | root => simp [Lead.components]
  | here => simp [Lead.components]
  | none =>
    refine iff_of_false (by simp) fun root => ?_
    rcases mem_steps (List.mem_of_head? root) with up | ⟨name, -, named⟩
    · cases up
    · cases named

end Path

end Bundler
