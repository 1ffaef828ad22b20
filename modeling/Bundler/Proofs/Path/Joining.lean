import Bundler.Proofs.Path.Spelling
import Mathlib.Data.List.Induction

/-!
# Joined paths

A relative path is joined to a base by writing its segments after those of the base,
so its steps are taken from where the base leads. `Path.below_join_iff` says when a
joined path lies below its base after `.` and `..` are folded away: the relative path
may climb, but only over names of the base that it then takes again.
-/

namespace Bundler

namespace Cut

/-- The components that segments stand for, idle ones left out. -/
def stepsOf (segments : List String) : List Component :=
  (segments.filter fun segment => !isIdle segment).map componentOf

theorem stepsOf_append (first second : List String) :
    stepsOf (first ++ second) = stepsOf first ++ stepsOf second := by
  simp [stepsOf]

theorem stepsOf_cons_idle {segment : String} (idle : isIdle segment = true) (rest : List String) :
    stepsOf (segment :: rest) = stepsOf rest := by
  simp [stepsOf, idle]

/-- What a text starts with, read off its segments. -/
def leadOf : List String → Lead
  | first :: rest =>
    if first = "" ∧ rest ≠ [] then .root else if first = "." then .here else .none
  | [] => .none

/-- A first segment that another one follows decides the lead. -/
theorem leadOf_append {first : List String} (some_ : first ≠ []) {second third : List String}
    (more : second ≠ []) (others : third ≠ []) :
    leadOf (first ++ second) = leadOf (first ++ third) := by
  obtain ⟨segment, rest, rfl⟩ := List.exists_cons_of_ne_nil some_
  simp [leadOf, more, others]

theorem leadOf_append_left {first : List String} (some_ : first ≠ []) (notEmpty : first ≠ [""])
    (second : List String) : leadOf (first ++ second) = leadOf first := by
  obtain ⟨segment, rest, rfl⟩ := List.exists_cons_of_ne_nil some_
  by_cases single : rest = []
  · have named : segment ≠ "" := by simpa [single] using notEmpty
    simp [leadOf, named]
  · simp [leadOf, single]

theorem segmentsOf_append_slash (first second : List Char) :
    segmentsOf (first ++ '/' :: second) = segmentsOf first ++ segmentsOf second := by
  induction first with
  | nil => simp [segmentsOf]
  | cons c rest ih =>
    by_cases slash : c = '/'
    · simp [segmentsOf, slash, ih]
    · cases segments : segmentsOf rest with
      | nil => exact absurd segments (segmentsOf_ne_nil rest)
      | cons first others => simp [segmentsOf, slash, ih, segments]

/-- Only the empty text is one empty segment. -/
theorem eq_nil_of_segmentsOf {text : List Char} (blank : segmentsOf text = [[]]) : text = [] := by
  cases text with
  | nil => rfl
  | cons c rest =>
    unfold segmentsOf at blank
    split at blank
    · exact absurd (List.cons.inj blank).2 (segmentsOf_ne_nil rest)
    · split at blank <;> simp at blank

/-- Every character but a slash stands in a segment. -/
theorem exists_of_mem_text {text : List Char} {c : Char} (inside : c ∈ text) (notSlash : c ≠ '/') :
    ∃ segment ∈ segmentsOf text, c ∈ segment := by
  induction text with
  | nil => cases inside
  | cons first rest ih =>
    cases shape : segmentsOf rest with
    | nil => exact absurd shape (segmentsOf_ne_nil rest)
    | cons segment others =>
      unfold segmentsOf
      rw [shape] at ih ⊢
      rcases List.mem_cons.1 inside with rfl | later
      · exact ⟨c :: segment, by simp [notSlash], List.mem_cons_self⟩
      · obtain ⟨holder, member, held⟩ := ih later
        split
        · exact ⟨holder, List.mem_cons_of_mem _ member, held⟩
        · rcases List.mem_cons.1 member with rfl | member
          · exact ⟨first :: holder, List.mem_cons_self, List.mem_cons_of_mem _ held⟩
          · exact ⟨holder, List.mem_cons_of_mem _ member, held⟩

/-- A text is read as its lead and the steps of all of its segments. -/
theorem components_ofText (text : String) :
    (ofText text).components =
      (leadOf ((segmentsOf text.toList).map String.ofList)).components ++
        stepsOf ((segmentsOf text.toList).map String.ofList) := by
  unfold ofText
  split
  · next shape => simp [shape, leadOf, components, stepsOf, isIdle]
  · next shape => simp [shape, leadOf, components, stepsOf, isIdle]
  · next notRoot notHere =>
    generalize (segmentsOf text.toList).map String.ofList = segments at notRoot notHere
    cases segments with
    | nil => rfl
    | cons first rest =>
      have lead : leadOf (first :: rest) = .none := by
        have inner : ¬ (first = "" ∧ rest ≠ []) := by
          rintro ⟨rfl, more⟩
          obtain ⟨next, others, rfl⟩ := List.exists_cons_of_ne_nil more
          exact notRoot next others rfl
        have named : first ≠ "." := by
          rintro rfl
          exact notHere rest rfl
        simp [leadOf, inner, named]
      rw [lead]
      rfl

end Cut

namespace Path

open Cut (IsName)

/-- The steps of a path from where it starts; a leading `.` is none. -/
def steps (path : Path) : List Component :=
  Cut.stepsOf ((Cut.segmentsOf path.text.toList).map String.ofList)

/-- What a path starts with. -/
def lead (path : Path) : Lead :=
  Cut.leadOf ((Cut.segmentsOf path.text.toList).map String.ofList)

theorem components_eq_lead_append (path : Path) :
    path.components = path.lead.components ++ path.steps := by
  rw [path.components_eq, Cut.components_ofText]
  rfl

/-- What a path is written with, but for slashes and dots, stands in its names. -/
theorem exists_name_of_mem_text {path : Path} {c : Char} (inside : c ∈ path.text.toList)
    (notSlash : c ≠ '/') (notDot : c ≠ '.') :
    ∃ name, .name name ∈ path.components ∧ c ∈ name.toList := by
  obtain ⟨segment, member, held⟩ := Cut.exists_of_mem_text inside notSlash
  have named : ∀ text : String, c ∉ text.toList → String.ofList segment ≠ text := by
    rintro text absent rfl
    simp [held] at absent
  have busy : Cut.isIdle (String.ofList segment) = false := by
    rw [Cut.isIdle, Bool.or_eq_false_iff, beq_eq_false_iff_ne, beq_eq_false_iff_ne]
    exact ⟨named "" (by simp), named "." (by simp [notDot])⟩
  refine ⟨String.ofList segment, ?_, by simpa using held⟩
  rw [path.components_eq_lead_append]
  refine List.mem_append_right _ (List.mem_map.2 ⟨String.ofList segment, ?_, ?_⟩)
  · exact List.mem_filter.2 ⟨List.mem_map_of_mem member, by simp [busy]⟩
  · rw [Cut.componentOf, if_neg (named ".." (by simp [notDot]))]

theorem lead_eq_root_iff (path : Path) : path.lead = .root ↔ path.isAbsolute = true := by
  rw [isAbsolute_iff, lead]
  cases chars : path.text.toList with
  | nil => simp [Cut.segmentsOf, Cut.leadOf]
  | cons c rest =>
    cases segments : Cut.segmentsOf rest with
    | nil => exact absurd segments (Cut.segmentsOf_ne_nil rest)
    | cons first others =>
      by_cases slash : c = '/'
      · simp [Cut.segmentsOf, Cut.leadOf, slash, segments]
      · have named : String.ofList (c :: first) ≠ "" := by simp
        simp only [Cut.segmentsOf, slash, if_false, segments, List.map_cons, Cut.leadOf, named,
          false_and, List.head?_cons, Option.some.injEq, iff_false]
        split <;> simp

theorem segments_ne_nil (text : String) :
    (Cut.segmentsOf text.toList).map String.ofList ≠ [] := by
  simpa using Cut.segmentsOf_ne_nil text.toList

/-- Joining a relative path writes its segments after segments that are read as the base. -/
theorem segments_join {base path : Path} (relative : path.isAbsolute = false)
    (notEmpty : base.text ≠ "") :
    ∃ front : List String, front ≠ [] ∧
      (Cut.segmentsOf (base.join path).text.toList).map String.ofList =
        front ++ (Cut.segmentsOf path.text.toList).map String.ofList ∧
      ((Cut.segmentsOf base.text.toList).map String.ofList = front ∧ front ≠ [""] ∨
        (Cut.segmentsOf base.text.toList).map String.ofList = front ++ [""]) := by
  have empty : base.text.isEmpty = false := by simpa using notEmpty
  unfold join
  rw [relative, empty, Bool.false_or, if_neg Bool.false_ne_true]
  by_cases slash : base.text.toList.getLast? = some '/'
  · obtain ⟨front, shape⟩ := List.getLast?_eq_some_iff.1 slash
    rw [slash, beq_self_eq_true, if_pos rfl]
    refine ⟨(Cut.segmentsOf front).map String.ofList, ?_, ?_, .inr ?_⟩
    · simpa using Cut.segmentsOf_ne_nil front
    · simp [of, shape, Cut.segmentsOf_append_slash]
    · rw [shape, Cut.segmentsOf_append_slash]
      simp [Cut.segmentsOf]
  · have noSlash : (base.text.toList.getLast? == some '/') = false := by simpa using slash
    rw [noSlash, if_neg Bool.false_ne_true]
    refine ⟨_, segments_ne_nil base.text, ?_, .inl ⟨rfl, ?_⟩⟩
    · have shape : (of (base.text ++ "/" ++ path.text)).text.toList =
          base.text.toList ++ '/' :: path.text.toList := by simp [of]
      rw [shape, Cut.segmentsOf_append_slash, List.map_append]
    · intro single
      have blank : Cut.segmentsOf base.text.toList = [[]] := by
        simpa [List.map_eq_singleton_iff] using single
      exact notEmpty (by simpa using Cut.eq_nil_of_segmentsOf blank)

/-- Joining a relative path keeps the lead of the base and appends the steps. -/
theorem join_relative {base path : Path} (relative : path.isAbsolute = false)
    (notEmpty : base.text ≠ "") :
    (base.join path).lead = base.lead ∧ (base.join path).steps = base.steps ++ path.steps := by
  obtain ⟨front, some_, joined, shape⟩ := segments_join relative notEmpty
  have more := segments_ne_nil path.text
  rw [lead, lead, steps, steps, steps, joined, Cut.stepsOf_append]
  rcases shape with ⟨shape, notBlank⟩ | shape
  · rw [shape]
    exact ⟨Cut.leadOf_append_left some_ notBlank _, rfl⟩
  · rw [shape, Cut.stepsOf_append]
    refine ⟨Cut.leadOf_append some_ more (by simp), ?_⟩
    simp [Cut.stepsOf, Cut.isIdle]

theorem join_empty {base : Path} (none : base.text = "") (path : Path) :
    base.join path = path := by
  unfold join
  split
  · rfl
  · rw [none]
    simp

/-- A step is `..` or a segment that stands for a name. -/
theorem mem_steps {path : Path} {component : Component} (member : component ∈ path.steps) :
    component = .up ∨ ∃ name, IsName name ∧ component = .name name := by
  obtain ⟨segment, kept, rfl⟩ := List.mem_map.1 member
  obtain ⟨inside, notIdle⟩ := List.mem_filter.1 kept
  obtain ⟨text, written, rfl⟩ := List.mem_map.1 inside
  by_cases up : String.ofList text = ".."
  · exact .inl (by simp [Cut.componentOf, up])
  · have isName : IsName (String.ofList text) :=
      ⟨by simpa using Cut.noSlash_of_mem_segmentsOf written, by simpa using notIdle, up⟩
    exact .inr ⟨_, isName, isName.componentOf⟩

/-- A component that a path may start with and no step. -/
def isLead (component : Component) : Bool := component == .root || component == .here

/-- The lead and the steps are apart in the components of a path. -/
theorem filter_components (path : Path) :
    path.components.filter isLead = path.lead.components ∧
      path.components.filter (fun component => !isLead component) = path.steps := by
  have steps : ∀ component ∈ path.steps, isLead component = false := by
    intro component member
    rcases mem_steps member with rfl | ⟨name, -, rfl⟩ <;> rfl
  have lead : ∀ component ∈ path.lead.components, isLead component = true := by
    cases path.lead <;> simp [Lead.components, isLead]
  rw [components_eq_lead_append, List.filter_append, List.filter_append]
  constructor
  · rw [List.filter_eq_self.2 lead, List.filter_eq_nil_iff.2 (by simpa using steps), List.append_nil]
  · rw [List.filter_eq_nil_iff.2 (by simpa using lead), List.nil_append,
      List.filter_eq_self.2 (by simpa using steps)]

/-- Paths are spellings of one path when they start alike and take the same steps. -/
theorem components_eq_iff (left right : Path) :
    left.components = right.components ↔ left.lead = right.lead ∧ left.steps = right.steps := by
  constructor
  · intro same
    have leads : left.lead.components = right.lead.components := by
      rw [← (filter_components left).1, same, (filter_components right).1]
    refine ⟨?_, ?_⟩
    · revert leads
      cases left.lead <;> cases right.lead <;> simp [Lead.components]
    · rw [← (filter_components left).2, same, (filter_components right).2]
  · rintro ⟨lead, steps⟩
    rw [components_eq_lead_append, components_eq_lead_append right, lead, steps]

/-- What a joined path is read as. -/
theorem components_join (base path : Path) :
    (base.join path).components =
      if path.isAbsolute = true ∨ base.text = "" then path.components
      else base.components ++ path.steps := by
  by_cases absolute : path.isAbsolute = true
  · rw [join, if_pos absolute, if_pos (.inl absolute)]
  · have relative : path.isAbsolute = false := by simpa using absolute
    by_cases empty : base.text = ""
    · rw [join_empty empty, if_pos (.inr empty)]
    · obtain ⟨lead, steps⟩ := join_relative relative empty
      rw [if_neg (by simp [relative, empty]), components_eq_lead_append, lead, steps,
        components_eq_lead_append base, List.append_assoc]

/-! ## Folding steps -/

/-- Where the steps of a path start, once folded. -/
def start (path : Path) : List Component := if path.isAbsolute then [.root] else []

theorem foldl_components (path : Path) :
    path.components.foldl foldComponent [] = path.steps.foldl foldComponent path.start := by
  have root := lead_eq_root_iff path
  rw [components_eq_lead_append, List.foldl_append, start]
  cases lead : path.lead with
  | root => rw [if_pos (root.1 lead)]; rfl
  | here => rw [if_neg (by simp [← root, lead])]; rfl
  | none => rw [if_neg (by simp [← root, lead])]; rfl

theorem folded_eq (path : Path) :
    path.folded = (path.steps.foldl foldComponent path.start).reverse := by
  rw [folded, foldl_components]

/-- The steps of a relative path are taken from where the base leads. -/
theorem folded_join {base path : Path} (relative : path.isAbsolute = false) :
    (base.join path).folded = (path.steps.foldl foldComponent base.folded.reverse).reverse := by
  by_cases notEmpty : base.text = ""
  · have none : base.folded = [] := by
      rw [← of_text base, notEmpty]
      rfl
    rw [join_empty notEmpty, folded_eq, start, relative, none]
    rfl
  · obtain ⟨lead, steps⟩ := join_relative relative notEmpty
    have start : (base.join path).start = base.start := by
      have root := lead_eq_root_iff (base.join path)
      rw [lead, lead_eq_root_iff base] at root
      simp only [Path.start, root]
    rw [folded_eq, folded_eq, steps, start, List.foldl_append, List.reverse_reverse]

/-- Steps first climb, as far as their own names do not bring them back, and then take
names. -/
theorem exists_climb {steps : List Component}
    (known : ∀ component ∈ steps, component = .up ∨ component.isName = true) :
    ∃ (climbs : Nat) (names : List Component), names ⊆ steps ∧
      (∀ name ∈ names, name.isName = true) ∧
      ∀ folded, steps.foldl foldComponent folded =
        names.reverse ++ (List.replicate climbs .up).foldl foldComponent folded := by
  induction steps using List.reverseRecOn with
  | nil => exact ⟨0, [], by simp, by simp, fun folded => rfl⟩
  | append_singleton front last ih =>
    obtain ⟨climbs, names, among, isName, folds⟩ := ih fun component member =>
      known component (List.mem_append_left _ member)
    have among : names ⊆ front ++ [last] := fun name member => List.mem_append_left _ (among member)
    rcases known last (by simp) with rfl | named
    · rcases List.eq_nil_or_concat names with rfl | ⟨earlier, name, rfl⟩
      · refine ⟨climbs + 1, [], by simp, by simp, fun folded => ?_⟩
        rw [List.foldl_append, folds, List.replicate_succ', List.foldl_append]
        rfl
      · have last := isName name (by simp)
        refine ⟨climbs, earlier, fun other member => among (by simp [member]),
          fun other member => isName other (by simp [member]), fun folded => ?_⟩
        rw [List.foldl_append, folds, List.concat_eq_append, List.reverse_append]
        cases name with
        | name text => rfl
        | root | here | up => cases last
    · refine ⟨climbs, names ++ [last], ?_, fun other member => ?_, fun folded => ?_⟩
      · exact List.append_subset.2 ⟨among, by simp⟩
      · rcases List.mem_append.1 member with member | member
        · exact isName other member
        · obtain rfl := List.mem_singleton.1 member
          exact named
      · rw [List.foldl_append, folds, List.reverse_append]
        cases last with
        | name text => rfl
        | root | here | up => cases named

/-- The climb and the names of a path's steps. -/
theorem exists_climb_steps (path : Path) :
    ∃ (climbs : Nat) (names : List Component),
      (∀ component ∈ names, ∃ name, IsName name ∧ component = .name name) ∧
      ∀ folded, path.steps.foldl foldComponent folded =
        names.reverse ++ (List.replicate climbs .up).foldl foldComponent folded := by
  have known : ∀ component ∈ path.steps, component = .up ∨ component.isName = true := by
    intro component member
    rcases mem_steps member with up | ⟨name, -, rfl⟩
    · exact .inl up
    · exact .inr rfl
  obtain ⟨climbs, names, among, isName, folds⟩ := exists_climb known
  refine ⟨climbs, names, fun component member => ?_, folds⟩
  rcases mem_steps (among member) with rfl | named
  · cases isName _ member
  · exact named

theorem climb_root (climbs : Nat) :
    (List.replicate climbs Component.up).foldl foldComponent [.root] = [.root] := by
  induction climbs with
  | zero => rfl
  | succ climbs ih => exact ih

theorem climb_ups (climbs count : Nat) :
    (List.replicate climbs Component.up).foldl foldComponent (List.replicate count .up) =
      List.replicate (count + climbs) .up := by
  induction climbs generalizing count with
  | zero => rfl
  | succ climbs ih =>
    have one : foldComponent (List.replicate count .up) .up = List.replicate (count + 1) .up := by
      have noRoot : (List.replicate count Component.up).getLast? ≠ some .root := by
        intro root
        cases List.eq_of_mem_replicate (List.mem_of_getLast? root)
      cases count with
      | zero => rfl
      | succ count => simpa [foldComponent, List.replicate_succ] using noRoot
    rw [List.replicate_succ, List.foldl_cons, one, ih]
    congr 1
    omega

/-- Climbing takes back the last names. -/
theorem climb_names {back : List Component} (isName : ∀ name ∈ back, name.isName = true)
    (folded : List Component) :
    (List.replicate back.length Component.up).foldl foldComponent (back.reverse ++ folded) =
      folded := by
  induction back using List.reverseRecOn with
  | nil => rfl
  | append_singleton front last ih =>
    have named := isName last (by simp)
    rw [List.length_append, List.length_singleton, List.replicate_succ, List.foldl_cons,
      List.reverse_append]
    cases last with
    | name text => exact ih fun name member => isName name (by simp [member])
    | root | here | up => cases named

theorem climb_nil (climbs : Nat) :
    (List.replicate climbs Component.up).foldl foldComponent [] = List.replicate climbs .up := by
  have ups := climb_ups climbs 0
  rwa [List.replicate_zero, Nat.zero_add] at ups

/-- A folded path is the root or some `..`, and names after that. -/
theorem folded_cases (path : Path) :
    ∃ names : List Component, (∀ component ∈ names, ∃ name, IsName name ∧ component = .name name) ∧
      (path.folded = .root :: names ∨
        ∃ climbs, path.folded = List.replicate climbs .up ++ names) := by
  obtain ⟨climbs, names, isName, folds⟩ := exists_climb_steps path
  refine ⟨names, isName, ?_⟩
  rw [folded_eq, folds, start]
  split
  · rw [climb_root]
    exact .inl (by simp)
  · rw [climb_nil]
    exact .inr ⟨climbs, by simp⟩

theorem isName_of_named {names : List Component}
    (named : ∀ component ∈ names, ∃ name, IsName name ∧ component = .name name) :
    ∀ name ∈ names, name.isName = true := by
  intro component member
  obtain ⟨name, -, rfl⟩ := named component member
  rfl

theorem folded_relative {path : Path} (relative : path.isAbsolute = false) :
    ∃ (climbs : Nat) (names : List Component), (∀ name ∈ names, name.isName = true) ∧
      path.folded = List.replicate climbs .up ++ names ∧
      ∀ base : Path, (base.join path).folded =
        ((List.replicate climbs .up).foldl foldComponent base.folded.reverse).reverse ++ names := by
  obtain ⟨climbs, names, isName, folds⟩ := exists_climb_steps path
  refine ⟨climbs, names, isName_of_named isName, ?_, fun base => ?_⟩
  · rw [folded_eq, folds, start, relative, if_neg Bool.false_ne_true, climb_nil]
    simp
  · rw [folded_join relative, folds]
    simp

/-- A relative path of `..` and names is read back from its spelling. -/
theorem components_ofComponents_relative {climbs : Nat} {names : List String}
    (isName : ∀ name ∈ names, IsName name)
    (some_ : List.replicate climbs Component.up ++ names.map .name ≠ []) :
    (ofComponents (List.replicate climbs .up ++ names.map .name)).components =
      List.replicate climbs .up ++ names.map .name := by
  have written : (List.replicate climbs Component.up ++ names.map Component.name).map
      Component.text = List.replicate climbs ".." ++ names := by
    rw [List.map_append, List.map_replicate, List.map_map]
    congr 1
    exact List.map_id names
  have spelled : ofComponents (List.replicate climbs .up ++ names.map .name) =
      of ("/".intercalate (List.replicate climbs ".." ++ names)) := by
    rw [← written]
    unfold ofComponents
    split
    · next root =>
      have member : Component.root ∈ List.replicate climbs .up ++ names.map .name := by
        rw [root]
        simp
      simp [List.mem_append, List.mem_replicate] at member
    · rfl
  have notNil : List.replicate climbs ".." ++ names ≠ [] := by
    simpa using some_
  have read : (Cut.segmentsOf ("/".intercalate (List.replicate climbs ".." ++ names)).toList).map
      String.ofList = List.replicate climbs ".." ++ names := by
    refine Cut.segmentsOf_intercalate notNil fun segment member => ?_
    rcases List.mem_append.1 member with up | name
    · rw [List.eq_of_mem_replicate up]
      decide
    · exact (isName segment name).noSlash
  have steps : Cut.stepsOf (List.replicate climbs ".." ++ names) =
      List.replicate climbs .up ++ names.map .name := by
    have kept : names.filter (fun name => !Cut.isIdle name) = names :=
      List.filter_eq_self.2 fun name member => by simp [(isName name member).notIdle]
    rw [Cut.stepsOf_append, Cut.stepsOf, Cut.stepsOf, kept]
    congr 1
    · simp [Cut.isIdle, Cut.componentOf]
    · exact List.map_congr_left fun name member => (isName name member).componentOf
  have lead : Cut.leadOf (List.replicate climbs ".." ++ names) = .none := by
    cases climbs with
    | succ climbs => simp [Cut.leadOf, List.replicate_succ]
    | zero =>
      obtain ⟨first, rest, rfl⟩ := List.exists_cons_of_ne_nil (by simpa using notNil : names ≠ [])
      have notIdle := (isName first (by simp)).notIdle
      simp only [Cut.isIdle, Bool.or_eq_false_iff, beq_eq_false_iff_ne] at notIdle
      simp [Cut.leadOf, notIdle]
  rw [spelled, components_eq_lead_append, Path.lead, Path.steps]
  change (Cut.leadOf ((Cut.segmentsOf ("/".intercalate _).toList).map String.ofList)).components ++
    Cut.stepsOf ((Cut.segmentsOf ("/".intercalate _).toList).map String.ofList) = _
  rw [read, lead, steps]
  rfl

/-- The normal form of a path is read as its folded components, if there are any. -/
theorem components_normalize {path : Path} (some_ : path.folded ≠ []) :
    path.normalize.components = path.folded := by
  obtain ⟨components, named, shape⟩ := folded_cases path
  obtain ⟨names, isName, rfl⟩ : ∃ names : List String, (∀ name ∈ names, IsName name) ∧
      components = names.map .name := by
    choose! text isName same using named
    refine ⟨components.map text, fun name member => ?_, ?_⟩
    · obtain ⟨component, inside, rfl⟩ := List.mem_map.1 member
      exact isName component inside
    · rw [List.map_map]
      exact (List.map_id components).symm.trans (List.map_congr_left same)
  have spelled : path.normalize = ofComponents path.folded := by
    unfold normalize
    split
    · next none => exact absurd none some_
    · rfl
  rcases shape with shape | ⟨climbs, shape⟩
  · have texts : (names.map Component.name).map Component.text = names := by
      rw [List.map_map]
      exact List.map_id _
    rw [spelled, shape]
    simp only [ofComponents, texts]
    exact components_ofNames isName
  · rw [spelled, shape]
    exact components_ofComponents_relative isName (shape ▸ some_)

theorem foldl_names {names : List Component} (isName : ∀ name ∈ names, name.isName = true)
    (folded : List Component) : names.foldl foldComponent folded = names.reverse ++ folded := by
  induction names generalizing folded with
  | nil => rfl
  | cons first rest ih =>
    have named := isName first (by simp)
    cases first with
    | name text => simpa [foldComponent] using ih (fun name member => isName name (by simp [member])) _
    | root | here | up => cases named

/-- A normal form folds to itself. -/
@[simp] theorem folded_normalize (path : Path) : path.normalize.folded = path.folded := by
  by_cases some_ : path.folded = []
  · rw [normalize, some_]
    rfl
  · obtain ⟨names, named, shape⟩ := folded_cases path
    have isName := isName_of_named named
    rw [folded, components_normalize some_]
    rcases shape with shape | ⟨climbs, shape⟩
    · rw [shape, List.foldl_cons, foldl_names isName]
      simp [foldComponent]
    · rw [shape, List.foldl_append, climb_nil, foldl_names isName]
      simp

/-- Where a climb from a folded path leads: over names of it, to the root, or further up than
a relative path began. -/
inductive Climb (climbs : Nat) (folded : List Component) : List Component → Prop where
  | names (front back) (taken : folded = front ++ back)
      (isName : ∀ name ∈ back, name.isName = true) (size : back.length = climbs) :
      Climb climbs folded front
  | root (names) (taken : folded = .root :: names) (isName : ∀ name ∈ names, name.isName = true)
      (size : names.length < climbs) : Climb climbs folded [.root]
  | above (count names) (taken : folded = List.replicate count .up ++ names)
      (isName : ∀ name ∈ names, name.isName = true) (size : names.length < climbs) :
      Climb climbs folded (List.replicate (count + (climbs - names.length)) .up)

theorem climb_folded (path : Path) (climbs : Nat) :
    Climb climbs path.folded
      ((List.replicate climbs .up).foldl foldComponent path.folded.reverse).reverse := by
  obtain ⟨names, named, shape⟩ := folded_cases path
  have isName := isName_of_named named
  by_cases size : climbs ≤ names.length
  · -- The climb takes back the last names and no more.
    obtain ⟨front, back, rfl, long⟩ : ∃ front back, names = front ++ back ∧ back.length = climbs :=
      ⟨names.take (names.length - climbs), names.drop (names.length - climbs),
        (List.take_append_drop _ _).symm, by rw [List.length_drop]; omega⟩
    have isBack : ∀ name ∈ back, name.isName = true := fun name member => isName name (by simp [member])
    obtain ⟨start, shape⟩ : ∃ start, path.folded = start ++ front ++ back := by
      rcases shape with shape | ⟨count, shape⟩
      · exact ⟨[.root], by simp [shape]⟩
      · exact ⟨List.replicate count .up, by simp [shape]⟩
    have taken := climb_names isBack (start ++ front).reverse
    rw [shape, List.reverse_append, ← long, taken, List.reverse_reverse]
    exact .names _ back rfl isBack rfl
  · -- All names are taken back, and the climb goes on from there.
    have split : List.replicate climbs Component.up =
        List.replicate names.length .up ++ List.replicate (climbs - names.length) .up := by
      rw [List.replicate_append_replicate]
      congr 1
      omega
    rw [split, List.foldl_append]
    rcases shape with shape | ⟨count, shape⟩
    · have taken := climb_names isName [.root]
      have reversed : path.folded.reverse = names.reverse ++ [.root] := by simp [shape]
      rw [reversed, taken, climb_root]
      exact .root names shape isName (by omega)
    · have taken := climb_names isName (List.replicate count .up)
      have reversed : path.folded.reverse = names.reverse ++ List.replicate count .up := by
        simp [shape]
      rw [reversed, taken, climb_ups, List.reverse_replicate]
      exact .above count names shape isName (by omega)

/-! ## Below a base -/

/-- The normal form of `path` is that of `base` with more names after it. A normal form `.`
has nothing in front of the names below it. -/
def Below (path base : Path) : Prop :=
  ∃ names, names ≠ [] ∧ (∀ name ∈ names, name.isName = true) ∧
    path.normalize.folded = base.normalize.folded ++ names

/-- A relative path that climbs over names of `base` at most to take them again, and then
goes on. Above the root there is nothing to climb to. -/
def Returns (base path : Path) : Prop :=
  ∃ climbs back more, more ≠ [] ∧ (∀ name ∈ back ++ more, name.isName = true) ∧
    path.folded = List.replicate climbs .up ++ back ++ more ∧
    (climbs = back.length ∧ back <:+ base.folded ∨
      back.length ≤ climbs ∧ base.folded = .root :: back)

/-- The climb in front of names is unique. -/
theorem climbs_unique {climbs others : Nat} {names more : List Component}
    (isName : ∀ name ∈ names, name.isName = true) (isMore : ∀ name ∈ more, name.isName = true)
    (same : List.replicate climbs .up ++ names = List.replicate others .up ++ more) :
    climbs = others ∧ names = more := by
  induction climbs generalizing others with
  | zero =>
    cases others with
    | zero => exact ⟨rfl, same⟩
    | succ others =>
      have up : Component.up ∈ names := by
        rw [List.replicate_zero, List.nil_append] at same
        simp [same, List.replicate_succ]
      cases isName _ up
  | succ climbs ih =>
    cases others with
    | zero =>
      have up : Component.up ∈ more := by
        rw [List.replicate_zero, List.nil_append] at same
        simp [← same, List.replicate_succ]
      cases isMore _ up
    | succ others =>
      obtain ⟨rfl, rfl⟩ := ih (List.cons.inj same).2
      exact ⟨rfl, rfl⟩

/-- A climb over names that are taken again leads back. -/
theorem Climb.append_back {climbs : Nat} {folded top back : List Component}
    (climb : Climb climbs folded top) (isBack : ∀ name ∈ back, name.isName = true)
    (place : climbs = back.length ∧ back <:+ folded ∨
      back.length ≤ climbs ∧ folded = .root :: back) : top ++ back = folded := by
  cases climb with
  | names _ last taken isName size =>
    have same : last = back := by
      rcases place with ⟨long, front, shape⟩ | ⟨short, root⟩
      · exact (List.append_inj' (taken.symm.trans shape.symm) (size.trans long)).2
      · rw [root] at taken
        cases top with
        | nil => cases isName .root (by rw [← List.nil_append last, ← taken]; simp)
        | cons first rest =>
          have shape : back = rest ++ last := (List.cons.inj taken).2
          have long := congrArg List.length shape
          rw [List.length_append] at long
          have none : rest = [] := List.eq_nil_of_length_eq_zero (by omega)
          rw [shape, none, List.nil_append]
    rw [taken, same]
  | root names taken isName size =>
    rcases place with ⟨long, front, shape⟩ | ⟨-, root⟩
    · have none : front = [] := by
        have total := congrArg List.length (shape.trans taken)
        rw [List.length_append, List.length_cons] at total
        exact List.eq_nil_of_length_eq_zero (by omega)
      rw [none, List.nil_append, taken] at shape
      cases isBack .root (by simp [shape])
    · exact root.symm
  | above count names taken isName size =>
    rcases place with ⟨long, front, shape⟩ | ⟨-, root⟩
    · rcases List.append_eq_append_iff.1 (shape.trans taken) with
        ⟨ups, climbed, split⟩ | ⟨between, -, split⟩
      · cases ups with
        | nil =>
          rw [List.nil_append] at split
          rw [split] at long
          omega
        | cons first rest =>
          have up : first = .up := by
            refine List.eq_of_mem_replicate (n := count) ?_
            rw [climbed]
            simp
          cases isBack .up (by simp [split, up])
      · have short := congrArg List.length split
        rw [List.length_append] at short
        omega
    · have member : Component.root ∈ List.replicate count .up ++ names := by
        rw [← taken, root]
        simp
      rcases List.mem_append.1 member with climbed | named
      · cases List.eq_of_mem_replicate climbed
      · cases isName _ named

/-- A joined relative path lies below its base exactly when it returns to it. -/
theorem below_join_iff {base path : Path} (relative : path.isAbsolute = false) :
    (base.join path).Below base ↔ base.Returns path := by
  obtain ⟨climbs, names, isName, folded, joined⟩ := folded_relative relative
  have joined := joined base
  have climb := climb_folded base climbs
  generalize ((List.replicate climbs .up).foldl foldComponent base.folded.reverse).reverse = top
    at joined climb
  constructor
  · rintro ⟨more, some_, isMore, below⟩
    rw [folded_normalize, folded_normalize, joined] at below
    cases climb with
    | names _ back taken _ size =>
      rw [taken, List.append_assoc, List.append_cancel_left_eq] at below
      refine ⟨climbs, back, more, some_, by rwa [← below], ?_, .inl ⟨size.symm, top, taken.symm⟩⟩
      rw [folded, below, List.append_assoc]
    | root back taken _ size =>
      rw [taken] at below
      have same : names = back ++ more := (List.cons.inj below).2
      refine ⟨climbs, back, more, some_, by rwa [← same], ?_, .inr ⟨Nat.le_of_lt size, taken⟩⟩
      rw [folded, same, List.append_assoc]
    | above count back taken isBack size =>
      rw [taken, List.append_assoc] at below
      have allNames : ∀ name ∈ back ++ more, name.isName = true := by
        intro name member
        exact (List.mem_append.1 member).elim (isBack name) (isMore name)
      have same := (climbs_unique isName allNames below).1
      omega
  · rintro ⟨others, back, more, some_, allNames, same, place⟩
    rw [folded, List.append_assoc] at same
    obtain ⟨rfl, rfl⟩ := climbs_unique isName allNames same
    have isBack : ∀ name ∈ back, name.isName = true := fun name member =>
      allNames name (by simp [member])
    refine ⟨more, some_, fun name member => allNames name (by simp [member]), ?_⟩
    rw [folded_normalize, folded_normalize, joined, ← List.append_assoc]
    congr 1
    exact climb.append_back isBack place

end Path

end Bundler
