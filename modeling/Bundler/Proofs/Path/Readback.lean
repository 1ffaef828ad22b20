import Bundler.Proofs.Path.Joining
import Bundler.Resolution

/-!
# Paths as their components spell them

`Path.ofComponents` writes the components of a path, and `components_ofComponents` reads
them back. A path that is written so is `Spelled`: its components determine its text, so
spelled paths are the same file name exactly when they are the same path. Whatever a request
may mean is spelled (`Resolution.spelled_of_mem_candidates`), below any directory.
-/

namespace Bundler

open Cut (IsName)

/-- A component that a path can have behind its start. -/
def Component.IsStep (component : Component) : Prop :=
  component = .up ∨ ∃ name, IsName name ∧ component = .name name

namespace Component.IsStep

variable {component : Component}

theorem noSlash (step : component.IsStep) : '/' ∉ component.text.toList := by
  rcases step with rfl | ⟨name, isName, rfl⟩
  · decide
  · exact isName.noSlash

theorem notIdle (step : component.IsStep) : Cut.isIdle component.text = false := by
  rcases step with rfl | ⟨name, isName, rfl⟩
  · decide
  · exact isName.notIdle

theorem componentOf_text (step : component.IsStep) : Cut.componentOf component.text = component := by
  rcases step with rfl | ⟨name, isName, rfl⟩
  · rfl
  · exact isName.componentOf

end Component.IsStep

namespace Path

/-! ## Reading components back -/

section Steps

variable {steps : List Component} (known : ∀ component ∈ steps, component.IsStep)

include known

theorem filter_texts : (steps.map Component.text).filter (fun segment => !Cut.isIdle segment) =
    steps.map Component.text := by
  refine List.filter_eq_self.2 fun segment member => ?_
  obtain ⟨component, inside, rfl⟩ := List.mem_map.1 member
  simp [(known component inside).notIdle]

theorem map_componentOf_texts : (steps.map Component.text).map Cut.componentOf = steps := by
  rw [List.map_map]
  exact (List.map_congr_left fun component member => (known component member).componentOf_text).trans
    (List.map_id steps)

theorem segmentsOf_texts (some_ : steps ≠ []) :
    (Cut.segmentsOf ("/".intercalate (steps.map Component.text)).toList).map String.ofList =
      steps.map Component.text := by
  refine Cut.segmentsOf_intercalate (by simpa using some_) fun segment member => ?_
  obtain ⟨component, inside, rfl⟩ := List.mem_map.1 member
  exact (known component inside).noSlash

/-- The text of steps without a start has no start. -/
theorem ofText_texts (some_ : steps ≠ []) :
    Cut.ofText ("/".intercalate (steps.map Component.text)) = ⟨.none, steps.map Component.text⟩ := by
  unfold Cut.ofText
  rw [segmentsOf_texts known some_]
  obtain ⟨first, rest, rfl⟩ := List.exists_cons_of_ne_nil some_
  have notIdle := (known first List.mem_cons_self).notIdle
  simp only [Cut.isIdle, Bool.or_eq_false_iff, beq_eq_false_iff_ne] at notIdle
  rw [List.map_cons]
  split
  · next shape => exact absurd (List.cons.inj shape).1 notIdle.1
  · next shape => exact absurd (List.cons.inj shape).1 notIdle.2
  · rfl

/-- The segments that components are written as. -/
theorem cut_ofComponents (lead : Lead) :
    (ofComponents (lead.components ++ steps)).cut =
      ⟨lead, if steps = [] ∧ lead ≠ .here then [""] else steps.map Component.text⟩ := by
  by_cases none : steps = []
  · subst none
    cases lead <;> rfl
  have read := segmentsOf_texts known none
  rw [if_neg (by simp [none])]
  cases lead with
  | root =>
    have text : (ofComponents (Lead.root.components ++ steps)).text.toList =
        '/' :: ("/".intercalate (steps.map Component.text)).toList := by
      simp [Lead.components, ofComponents, of, String.toList_append]
    rw [cut, Cut.ofText, text, Cut.segmentsOf, if_pos rfl, List.map_cons, read]
    obtain ⟨first, rest, rfl⟩ := List.exists_cons_of_ne_nil none
    rfl
  | here =>
    have text : (ofComponents (Lead.here.components ++ steps)).text.toList =
        ['.'] ++ '/' :: ("/".intercalate (steps.map Component.text)).toList := by
      have some_ : steps.map Component.text ≠ [] := by simpa using none
      have written : (ofComponents (Lead.here.components ++ steps)).text =
          "/".intercalate ("." :: steps.map Component.text) := rfl
      rw [written, String.intercalate_cons_of_ne_nil some_]
      simp [String.toList_append]
    rw [cut, Cut.ofText, text, Cut.segmentsOf_append_slash, List.map_append, read]
    rfl
  | none =>
    have written : ofComponents (Lead.none.components ++ steps) =
        of ("/".intercalate (steps.map Component.text)) := by
      obtain ⟨first, rest, rfl⟩ := List.exists_cons_of_ne_nil none
      rcases known first List.mem_cons_self with rfl | ⟨name, -, rfl⟩ <;> rfl
    rw [written]
    exact ofText_texts known none

/-- Components are read back from the text that they are written as. -/
theorem components_ofComponents (lead : Lead) :
    (ofComponents (lead.components ++ steps)).components = lead.components ++ steps := by
  have shape : (ofComponents (lead.components ++ steps)).components =
      (ofComponents (lead.components ++ steps)).cut.components := components_eq _
  rw [shape, cut_ofComponents known]
  split
  · next nothing =>
    rw [nothing.1]
    rfl
  · rw [Cut.components, filter_texts known, map_componentOf_texts known]

end Steps

/-! ## Spelled paths -/

/-- The path is written as its components spell it. -/
def Spelled (path : Path) : Prop := ofComponents path.components = path

/-- Two spelled paths with the same components are the same. -/
theorem Spelled.eq_of_components_eq {left right : Path} (isLeft : left.Spelled)
    (isRight : right.Spelled) (same : left.components = right.components) : left = right := by
  rw [← isLeft, same, isRight]

theorem spelled_ofComponents (lead : Lead) {steps : List Component}
    (known : ∀ component ∈ steps, component.IsStep) :
    (ofComponents (lead.components ++ steps)).Spelled := by
  rw [Spelled, components_ofComponents known]

/-- The start and the steps of a spelled path write it. -/
theorem Spelled.eq_ofComponents {path : Path} (spelled : path.Spelled) :
    path = ofComponents (path.lead.components ++ path.steps) := by
  rw [← components_eq_lead_append, spelled]

theorem isStep_of_mem_steps {path : Path} : ∀ component ∈ path.steps, component.IsStep :=
  fun _ member => mem_steps member

/-! ## Texts of spelled paths -/

section Steps

variable {steps : List Component} (known : ∀ component ∈ steps, component.IsStep)

include known

/-- Components are written as their start and the texts of their steps. -/
theorem ofComponents_eq_ofCut (lead : Lead) :
    ofComponents (lead.components ++ steps) = ofCut ⟨lead, steps.map Component.text⟩ := by
  cases lead with
  | root => rfl
  | here =>
    cases steps with
    | nil => rfl
    | cons first rest =>
      refine ext_text ?_
      change "/".intercalate ("." :: (first :: rest).map Component.text) = _
      rw [String.intercalate_cons_of_ne_nil (by simp)]
      rfl
  | none =>
    cases steps with
    | nil => rfl
    | cons first rest =>
      rcases known first List.mem_cons_self with rfl | ⟨name, -, rfl⟩ <;> rfl

/-- The text of steps is not empty and does not end with a slash. -/
theorem getLast?_texts (some_ : steps ≠ []) :
    ∃ c, ("/".intercalate (steps.map Component.text)).toList.getLast? = some c ∧ c ≠ '/' := by
  rcases List.eq_nil_or_concat steps with rfl | ⟨front, last, rfl⟩
  · exact absurd rfl some_
  · rw [List.concat_eq_append] at known ⊢
    have step := known last (by simp)
    have shape := intercalate_concat_append (front.map Component.text) "" last.text
    rw [String.empty_append] at shape
    rw [List.map_append, List.map_singleton, ← shape, String.toList_append, List.getLast?_append]
    cases final : last.text.toList.getLast? with
    | none =>
      have empty : last.text = "" := by simpa using final
      exact absurd step.notIdle (by simp [empty, Cut.isIdle])
    | some c =>
      refine ⟨c, rfl, ?_⟩
      rintro rfl
      exact step.noSlash (List.mem_of_getLast? final)

/-- A name is joined as one more step. -/
theorem join_ofComponents (lead : Lead) {name : String} (isName : IsName name) :
    (ofComponents (lead.components ++ steps)).join (of name) =
      ofComponents (lead.components ++ (steps ++ [.name name])) := by
  have relative : (of name).isAbsolute = false := by
    rw [Bool.eq_false_iff, ne_eq, isAbsolute_iff]
    intro absolute
    exact isName.noSlash (List.mem_of_head? absolute)
  have longer : ∀ component ∈ steps ++ [.name name], component.IsStep := by
    intro component member
    rcases List.mem_append.1 member with inside | last
    · exact known component inside
    · exact .inr ⟨name, isName, List.mem_singleton.1 last⟩
  rw [ofComponents_eq_ofCut known, ofComponents_eq_ofCut longer, List.map_append, join, relative,
    if_neg Bool.false_ne_true]
  by_cases none : steps = []
  · subst none
    cases lead <;> rfl
  · obtain ⟨c, final, noSlash⟩ := getLast?_texts known none
    have texts : steps.map Component.text ≠ [] := by simpa using none
    have ends : ∀ start : String,
        (start ++ "/".intercalate (steps.map Component.text)).toList.getLast? = some c := by
      intro start
      rw [String.toList_append, List.getLast?_append, final]
      rfl
    have text : ∃ start : String, (Cut.text ⟨lead, steps.map Component.text⟩) =
        start ++ "/".intercalate (steps.map Component.text) ∧
        ∀ more, Cut.text ⟨lead, steps.map Component.text ++ [more]⟩ =
          start ++ "/".intercalate (steps.map Component.text ++ [more]) := by
      obtain ⟨first, rest, shape⟩ := List.exists_cons_of_ne_nil texts
      rw [shape]
      cases lead with
      | root => exact ⟨"/", rfl, fun _ => rfl⟩
      | here => exact ⟨"./", rfl, fun _ => rfl⟩
      | none => exact ⟨"", by simp [Cut.text], fun _ => by simp [Cut.text]⟩
    obtain ⟨start, written, more⟩ := text
    have last := ends start
    rw [← written] at last
    have notEmpty : (Cut.text ⟨lead, steps.map Component.text⟩).isEmpty = false := by
      rw [Bool.eq_false_iff, ne_eq, String.isEmpty_iff]
      intro empty
      simp [empty] at last
    simp only [ofCut, of, notEmpty, last, Bool.false_or, beq_iff_eq, Option.some.injEq, noSlash,
      if_false]
    refine ext_text ?_
    change Cut.text _ ++ "/" ++ name = Cut.text _
    rw [written, List.map_singleton, more, ← intercalate_append_slash texts, Component.text]
    simp [String.append_assoc]

/-- What is appended to the text of a path lengthens its last step. -/
theorem append_ofComponents (lead : Lead) {last : Component}
    (longer : ∀ component ∈ steps ++ [last], component.IsStep) {suffix : String}
    (isName : IsName (last.text ++ suffix)) :
    of ((ofComponents (lead.components ++ (steps ++ [last]))).text ++ suffix) =
      ofComponents (lead.components ++ (steps ++ [.name (last.text ++ suffix)])) := by
  have changed : ∀ component ∈ steps ++ [.name (last.text ++ suffix)], component.IsStep := by
    intro component member
    rcases List.mem_append.1 member with inside | end_
    · exact known component inside
    · exact .inr ⟨_, isName, List.mem_singleton.1 end_⟩
  rw [ofComponents_eq_ofCut longer, ofComponents_eq_ofCut changed]
  refine ext_text ?_
  simp only [List.map_append, List.map_singleton, ofCut, of]
  have shape := intercalate_concat_append (steps.map Component.text) last.text suffix
  obtain ⟨first, rest, split⟩ : ∃ first rest, steps.map Component.text ++ [last.text] =
      first :: rest := List.exists_cons_of_ne_nil (by simp)
  cases lead with
  | root => rw [Cut.text, Cut.text, String.append_assoc, shape]; rfl
  | here =>
    obtain ⟨other, others, otherSplit⟩ : ∃ other others, steps.map Component.text ++
        [last.text ++ suffix] = other :: others := List.exists_cons_of_ne_nil (by simp)
    have dotted : ∀ (head : String) (tail : List String),
        Cut.text ⟨.here, head :: tail⟩ = "./" ++ "/".intercalate (head :: tail) := fun _ _ => rfl
    rw [split, dotted, ← split, Component.text, otherSplit, dotted, ← otherSplit, String.append_assoc,
      shape]
  | none => rw [Cut.text, Cut.text, shape]; rfl

end Steps

/-! ## Paths below others -/

section Steps

variable {steps : List Component} (known : ∀ component ∈ steps, component.IsStep)

include known

/-- Dropping components from the texts of steps drops steps. -/
theorem dropComponents_texts (components : List Component) :
    dropComponents components (steps.map Component.text) =
      if components <+: steps then some ((steps.drop components.length).map Component.text)
      else none := by
  induction steps generalizing components with
  | nil => cases components <;> simp [dropComponents]
  | cons step steps ih =>
    cases components with
    | nil => simp [dropComponents]
    | cons component rest =>
      have isStep := known step List.mem_cons_self
      rw [List.map_cons, dropComponents, isStep.notIdle, if_neg Bool.false_ne_true,
        isStep.componentOf_text, ih fun other member => known other (List.mem_cons_of_mem _ member)]
      simp only [List.cons_prefix_cons, List.length_cons, List.drop_succ_cons, eq_comm (a := step)]
      by_cases same : component = step
      · simp [same]
      · simp [same]

/-- Steps have no idle segments to trim. -/
theorem trimEnd_texts : Cut.trimEnd (steps.map Component.text) = steps.map Component.text := by
  have back : (steps.map Component.text).reverse.dropWhile Cut.isIdle =
      (steps.map Component.text).reverse := by
    rw [← List.map_reverse]
    cases reversed : steps.reverse with
    | nil => rfl
    | cons step rest =>
      have member : step ∈ steps := List.mem_reverse.1 (reversed ▸ List.mem_cons_self)
      simp [(known step member).notIdle]
  rw [Cut.trimEnd, back, List.reverse_reverse]

theorem dropWhile_texts :
    (steps.map Component.text).dropWhile Cut.isIdle = steps.map Component.text := by
  cases steps with
  | nil => rfl
  | cons step rest => simp [(known step List.mem_cons_self).notIdle]

/-- What is left of the segments of a path when components are dropped. -/
theorem dropComponents_segments (lead : Lead) (components : List Component) :
    (dropComponents components
        (if steps = [] ∧ lead ≠ .here then [""] else steps.map Component.text)).map
        (fun segments => Cut.trimEnd (segments.dropWhile Cut.isIdle)) =
      if components <+: steps then some ((steps.drop components.length).map Component.text)
      else none := by
  split
  · next nothing =>
    rw [nothing.1]
    cases components <;> simp [dropComponents, Cut.isIdle, Cut.trimEnd]
  · rw [dropComponents_texts known]
    split
    · have tail : ∀ component ∈ steps.drop components.length, component.IsStep :=
        fun component member => known component (List.mem_of_mem_drop member)
      rw [Option.map_some, dropWhile_texts tail, trimEnd_texts tail]
    · rfl

/-- What follows a context in a spelled path, if the path lies below it. -/
theorem stripPrefix?_ofComponents (lead : Lead) (context : Path) :
    (ofComponents (lead.components ++ steps)).stripPrefix? context =
      if context.components <+: lead.components ++ steps then
        some (ofComponents ((lead.components ++ steps).drop context.components.length))
      else none := by
  have below : ∀ wanted : List Component, ((dropComponents wanted
        (if steps = [] ∧ lead ≠ .here then [""] else steps.map Component.text)).map fun segments =>
          ofCut ⟨.none, Cut.trimEnd (segments.dropWhile Cut.isIdle)⟩) =
      if wanted <+: steps then some (ofComponents (steps.drop wanted.length)) else none := by
    intro wanted
    have left := congrArg (Option.map fun segments => ofCut ⟨.none, segments⟩)
      (dropComponents_segments known lead wanted)
    rw [Option.map_map] at left
    refine left.trans ?_
    split
    · have tail : ∀ component ∈ steps.drop wanted.length, component.IsStep :=
        fun component member => known component (List.mem_of_mem_drop member)
      rw [Option.map_some, ← ofComponents_eq_ofCut tail .none]
      rfl
    · rfl
  rw [stripPrefix?, cut_ofComponents known]
  cases shape : context.components with
  | nil =>
    dsimp only
    rw [if_pos List.nil_prefix, List.length_nil, List.drop_zero, ofComponents_eq_ofCut known]
    congr 3
    split
    · next nothing =>
      rw [nothing.1]
      rfl
    · rw [trimEnd_texts known]
  | cons component rest =>
    dsimp only
    cases lead with
    | none => exact below (component :: rest)
    | root =>
      by_cases same : Component.root = component
      · simpa [Lead.components, ← same] using below rest
      · simp [Lead.components, same, Ne.symm same]
    | here =>
      by_cases same : Component.here = component
      · simpa [Lead.components, ← same] using below rest
      · simp [Lead.components, same, Ne.symm same]

end Steps

/-! ## Normal forms -/

/-- A normal form is written by its folded components, or it is `.`. -/
theorem normalize_shape (path : Path) :
    path.normalize = of "." ∨ ∃ (lead : Lead) (steps : List Component),
      (∀ component ∈ steps, component.IsStep) ∧ (lead = .root ∨ lead = .none ∧ steps ≠ []) ∧
        path.normalize = ofComponents (lead.components ++ steps) := by
  by_cases none : path.folded = []
  · refine .inl ?_
    rw [normalize, none]
  · have written : path.normalize = ofComponents path.folded := by
      unfold normalize
      split
      · next nothing => exact absurd nothing none
      · rfl
    obtain ⟨names, named, shape⟩ := folded_cases path
    have known : ∀ component ∈ names, component.IsStep := fun component member =>
      .inr (named component member)
    rcases shape with root | ⟨climbs, shape⟩
    · exact .inr ⟨.root, names, known, .inl rfl, by rw [written, root]; rfl⟩
    · refine .inr ⟨.none, List.replicate climbs .up ++ names, fun component member => ?_,
        .inr ⟨rfl, shape ▸ none⟩, by rw [written, shape]; rfl⟩
      rcases List.mem_append.1 member with up | name
      · exact .inl (List.eq_of_mem_replicate up)
      · exact known component name

end Path

namespace Resolution

open Path

theorem isName_script : IsName ".js" := ⟨by decide, by decide, by decide⟩

theorem isName_index : IsName "index.js" := ⟨by decide, by decide, by decide⟩

/-- A step with the ending of a script is a name. -/
theorem isName_append_script {component : Component} (step : component.IsStep) :
    IsName (component.text ++ ".js") := by
  have long : 2 < (component.text ++ ".js").toList.length := by
    rw [String.toList_append, List.length_append]
    simp
  have short : ∀ text : String, text.toList.length ≤ 2 → component.text ++ ".js" ≠ text := by
    rintro text few rfl
    omega
  refine ⟨by simp [step.noSlash], ?_, short ".." (by decide)⟩
  rw [Cut.isIdle, Bool.or_eq_false_iff, beq_eq_false_iff_ne, beq_eq_false_iff_ne]
  exact ⟨short "" (by decide), short "." (by decide)⟩

/-- What the components of a candidate can be: a relative one has a start only if it is `.` or
`./index.js`. -/
structure Shape (path : Path) (lead : Lead) (steps : List Component) : Prop where
  known : ∀ component ∈ steps, component.IsStep
  path_eq : path = ofComponents (lead.components ++ steps)
  here : lead = .here → steps = [] ∨ steps = [.name "index.js"]

theorem shape_of_mem_candidatesOf {base path : Path} (member : path ∈ candidatesOf base) :
    ∃ lead steps, Shape path lead steps := by
  have single : ∀ {name : String}, IsName name → ∀ component ∈ [Component.name name],
      component.IsStep := fun isName component inside =>
    .inr ⟨_, isName, List.mem_singleton.1 inside⟩
  simp only [candidatesOf, List.mem_cons, List.not_mem_nil, or_false] at member
  rcases normalize_shape base with dot | ⟨lead, steps, known, start, written⟩
  · rw [dot] at member
    rcases member with rfl | rfl | rfl
    · exact ⟨.here, [], by simp, rfl, fun _ => .inl rfl⟩
    · exact ⟨.none, [.name "..js"], single ⟨by decide, by decide, by decide⟩, by decide, by simp⟩
    · exact ⟨.here, [.name "index.js"], single isName_index, by decide, fun _ => .inr rfl⟩
  · have notHere : lead ≠ .here := by
      rcases start with rfl | ⟨rfl, -⟩ <;> simp
    rw [written] at member
    rcases member with rfl | rfl | rfl
    · exact ⟨lead, steps, known, rfl, fun same => absurd same notHere⟩
    · rcases List.eq_nil_or_concat steps with rfl | ⟨front, last, rfl⟩
      · rcases start with rfl | ⟨-, nothing⟩
        · exact ⟨.root, [.name ".js"], single isName_script, by decide, by simp⟩
        · exact absurd rfl nothing
      · rw [List.concat_eq_append] at known ⊢
        have inFront : ∀ component ∈ front, component.IsStep := fun component inside =>
          known component (List.mem_append_left _ inside)
        have isName := isName_append_script (known last (by simp))
        refine ⟨lead, front ++ [.name (last.text ++ ".js")], fun component inside => ?_,
          append_ofComponents inFront lead known isName, fun same => absurd same notHere⟩
        rcases List.mem_append.1 inside with inside | inside
        · exact inFront component inside
        · exact single isName component inside
    · refine ⟨lead, steps ++ [.name "index.js"], fun component inside => ?_,
        join_ofComponents known lead isName_index, fun same => absurd same notHere⟩
      rcases List.mem_append.1 inside with inside | inside
      · exact known component inside
      · exact single isName_index component inside

/-- Whatever a request may mean is written as its components spell it. -/
theorem shape_of_mem_candidates {directory path : Path} {request : String}
    (member : path ∈ candidates directory request) : ∃ lead steps, Shape path lead steps := by
  obtain ⟨base, -, inside⟩ := List.mem_flatMap.1 member
  exact shape_of_mem_candidatesOf inside

theorem Shape.spelled {path : Path} {lead : Lead} {steps : List Component}
    (shape : Shape path lead steps) : path.Spelled := by
  rw [shape.path_eq]
  exact spelled_ofComponents lead shape.known

end Resolution

end Bundler
