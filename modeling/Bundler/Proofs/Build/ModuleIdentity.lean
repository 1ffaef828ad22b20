import Bundler.Options.Validity
import Bundler.Proofs.Build.BuiltModules
import Bundler.Proofs.Build.NeededFiles
import Mathlib.Data.List.Perm.Basic

/-!
# Which files keep their modules

An identifier is a path, or what follows the context in it, with backslashes written as slashes.
So two files can have one identifier, and then one of them silently takes the place of the
other. `Mistaken` says which files these are; `files_kept_iff` says that a build keeps the
modules of all its files exactly if no two of them are mistaken for each other.
-/

namespace Bundler

/-! ## Identifiers of different files -/

theorem forwardSlashes_append (left right : String) :
    forwardSlashes (left ++ right) = forwardSlashes left ++ forwardSlashes right := by
  rw [← String.toList_inj]
  simp [forwardSlashes, String.toList_append, String.toList_map]

/-- Two paths that are written alike when backslashes are taken for slashes. -/
def Path.Resembles (left right : Path) : Prop :=
  forwardSlashes left.text = forwardSlashes right.text

/-- A file elsewhere that is written, behind `./`, as what follows the context in a file below
it. -/
def Path.Poses (context inner outer : Path) : Prop :=
  ∃ rest, inner.stripPrefix? context = some rest ∧ outer.startsWith context = false ∧
    outer.Resembles (.of ("./" ++ rest.text))

/-- Two files that are mistaken for each other: both below the context or both elsewhere, and
written alike; or one of them elsewhere and posing as the other. -/
def Path.Mistaken (context left right : Path) : Prop :=
  (left.startsWith context = right.startsWith context ∧ left.Resembles right) ∨
    Poses context left right ∨ Poses context right left

namespace Path

variable {context left right : Path}

theorem intercalate_append (base steps : List String) (some_ : steps ≠ []) :
    "/".intercalate (base ++ steps) =
      "/".intercalate base ++ (if base = [] then "" else "/") ++ "/".intercalate steps := by
  by_cases none : base = []
  · simp [none]
  · rw [String.intercalate_append_of_ne_nil none some_, if_neg none]

/-- How the text of a path goes on when steps are put behind its components. -/
theorem text_ofComponents_append {base : List Component} (notEmpty : base ≠ []) :
    ∃ joint : String, ∀ steps : List Component, steps ≠ [] →
      (ofComponents (base ++ steps)).text =
        (ofComponents base).text ++ joint ++ "/".intercalate (steps.map Component.text) := by
  obtain ⟨first, rest, rfl⟩ := List.exists_cons_of_ne_nil notEmpty
  by_cases root : first = .root
  · subst root
    refine ⟨if rest.map Component.text = [] then "" else "/", fun steps some_ => ?_⟩
    change "/" ++ "/".intercalate ((rest ++ steps).map Component.text) = "/" ++ _ ++ _ ++ _
    rw [List.map_append, intercalate_append _ _ (by simpa using some_)]
    simp only [String.append_assoc]
  · have plain : ∀ components : List Component, ofComponents (first :: components) =
        of ("/".intercalate ((first :: components).map Component.text)) := by
      intro components
      cases first with
      | root => exact absurd rfl root
      | _ => rfl
    refine ⟨"/", fun steps some_ => ?_⟩
    rw [List.cons_append, plain, plain]
    change "/".intercalate ((first :: rest ++ steps).map Component.text) = _
    rw [List.map_append, intercalate_append _ _ (by simpa using some_)]
    rfl

theorem text_ofComponents {steps : List Component} (known : ∀ component ∈ steps, component.IsStep) :
    (ofComponents steps).text = "/".intercalate (steps.map Component.text) :=
  congrArg Path.text (ofComponents_eq_ofCut known .none)

theorem forwardSlashes_eq_empty {text : String} (empty : forwardSlashes text = "") : text = "" := by
  rw [← String.toList_inj] at empty ⊢
  simpa [forwardSlashes, String.toList_map] using empty

/-- Paths that go on from the same components resemble each other if what follows does. -/
theorem resembles_append_iff (base : List Component) {steps others : List Component}
    (known : ∀ component ∈ steps, component.IsStep)
    (othersKnown : ∀ component ∈ others, component.IsStep) :
    (ofComponents (base ++ steps)).Resembles (ofComponents (base ++ others)) ↔
      (ofComponents steps).Resembles (ofComponents others) := by
  by_cases none : base = []
  · simp [none]
  obtain ⟨joint, goesOn⟩ := text_ofComponents_append none
  have longer : ∀ more : List Component, more ≠ [] → (∀ component ∈ more, component.IsStep) →
      forwardSlashes (ofComponents base).text ≠ forwardSlashes (ofComponents (base ++ more)).text ∧
        forwardSlashes (ofComponents []).text ≠ forwardSlashes (ofComponents more).text := by
    intro more some_ isStep
    have notEmpty : "/".intercalate (more.map Component.text) ≠ "" := by
      obtain ⟨c, last, -⟩ := getLast?_texts isStep some_
      rintro empty
      simp [empty] at last
    rw [goesOn more some_, text_ofComponents isStep]
    constructor
    · intro same
      rw [String.append_assoc, forwardSlashes_append, ← String.toList_inj, String.toList_append,
        List.self_eq_append_right, String.toList_eq_nil_iff] at same
      exact notEmpty (String.append_eq_empty_iff.1 (forwardSlashes_eq_empty same)).2
    · intro same
      exact notEmpty (forwardSlashes_eq_empty (same.symm.trans (forwardSlashes_eq_self (by decide))))
  unfold Resembles
  by_cases noSteps : steps = []
  · subst noSteps
    by_cases noOthers : others = []
    · simp [noOthers]
    · rw [List.append_nil]
      exact iff_of_false (longer others noOthers othersKnown).1 (longer others noOthers othersKnown).2
  · by_cases noOthers : others = []
    · subst noOthers
      rw [List.append_nil]
      exact iff_of_false (longer steps noSteps known).1.symm (longer steps noSteps known).2.symm
    · rw [goesOn steps noSteps, goesOn others noOthers, text_ofComponents known,
        text_ofComponents othersKnown, forwardSlashes_append, forwardSlashes_append _
          ("/".intercalate (others.map Component.text))]
      exact String.append_right_inj _

/-- Behind its first component a path has steps. -/
theorem isStep_of_mem_drop (lead : Lead) {steps : List Component}
    (known : ∀ component ∈ steps, component.IsStep) {count : Nat} (some_ : count ≠ 0) :
    ∀ component ∈ (lead.components ++ steps).drop count, component.IsStep := by
  intro component member
  obtain ⟨count, rfl⟩ := Nat.exists_eq_succ_of_ne_zero some_
  cases lead with
  | none => exact known component (List.mem_of_mem_drop member)
  | root => exact known component (List.mem_of_mem_drop member)
  | here => exact known component (List.mem_of_mem_drop member)

end Path

namespace Resolution.Shape

open Path

variable {context path left right : Path} {lead leftLead rightLead : Lead}
  {steps leftSteps rightSteps : List Component}

theorem components_eq (shape : Shape path lead steps) : path.components = lead.components ++ steps := by
  rw [shape.path_eq, components_ofComponents shape.known]

theorem startsWith_iff (shape : Shape path lead steps) :
    path.startsWith context = true ↔ context.components <+: lead.components ++ steps := by
  rw [startsWith, shape.components_eq, List.isPrefixOf_iff_prefix]

theorem stripPrefix?_eq (shape : Shape path lead steps) (context : Path) :
    path.stripPrefix? context = if path.startsWith context then
      some (ofComponents ((lead.components ++ steps).drop context.components.length)) else none := by
  simp only [shape.startsWith_iff]
  rw [shape.path_eq, stripPrefix?_ofComponents shape.known]

/-- What follows the context in files below it is written alike if the files are. -/
theorem resembles_drop_iff (leftShape : Shape left leftLead leftSteps)
    (rightShape : Shape right rightLead rightSteps) (leftBelow : left.startsWith context = true)
    (rightBelow : right.startsWith context = true) :
    (ofComponents ((leftLead.components ++ leftSteps).drop context.components.length)).Resembles
        (ofComponents ((rightLead.components ++ rightSteps).drop context.components.length)) ↔
      left.Resembles right := by
  by_cases none : context.components = []
  · rw [none, List.length_nil, List.drop_zero, List.drop_zero, ← leftShape.path_eq,
      ← rightShape.path_eq]
  · have some_ : context.components.length ≠ 0 := by simpa using none
    obtain ⟨leftRest, leftSplit⟩ := leftShape.startsWith_iff.1 leftBelow
    obtain ⟨rightRest, rightSplit⟩ := rightShape.startsWith_iff.1 rightBelow
    have leftKnown := isStep_of_mem_drop leftLead leftShape.known some_
    have rightKnown := isStep_of_mem_drop rightLead rightShape.known some_
    rw [leftShape.path_eq, rightShape.path_eq]
    rw [← leftSplit, List.drop_left] at leftKnown ⊢
    rw [← rightSplit, List.drop_left] at rightKnown ⊢
    exact (resembles_append_iff context.components leftKnown rightKnown).symm

/-- Two files have one identifier exactly if they are mistaken for each other. -/
theorem moduleId_eq_iff (leftShape : Shape left leftLead leftSteps)
    (rightShape : Shape right rightLead rightSteps) :
    moduleId context left = moduleId context right ↔ context.Mistaken left right := by
  have dotted : ∀ text : String, "./" ++ forwardSlashes text = forwardSlashes ("./" ++ text) := by
    intro text
    rw [forwardSlashes_append, @forwardSlashes_eq_self "./" (by decide)]
  have leftRest := leftShape.stripPrefix?_eq context
  have rightRest := rightShape.stripPrefix?_eq context
  unfold moduleId Mistaken Poses
  cases leftBelow : left.startsWith context <;> cases rightBelow : right.startsWith context <;>
    simp only [leftBelow, rightBelow, Bool.false_eq_true, if_false, if_true] at leftRest rightRest <;>
    simp only [leftRest, rightRest, dotted]
  · -- Both lie elsewhere.
    simp [Resembles]
  · -- The right one lies below the context.
    simp [Resembles, of, eq_comm]
  · -- The left one lies below the context.
    simp [Resembles, of, eq_comm]
  · -- Both lie below the context.
    rw [← resembles_drop_iff leftShape rightShape leftBelow rightBelow]
    simp [Resembles, ← dotted]

theorem lead_of_dotted (text : String) : (of ("./" ++ text)).cut.lead = .here := by
  have shape : (of ("./" ++ text)).text.toList = ['.'] ++ '/' :: text.toList := by
    simp [of, String.toList_append]
  rw [cut, Cut.ofText, shape, Cut.segmentsOf_append_slash]
  rfl

theorem ne_nil_of_startsWith_eq_false (elsewhere : path.startsWith context = false) :
    context.components ≠ [] := by
  intro empty
  rw [startsWith, empty] at elsewhere
  simp at elsewhere

/-- What follows a context in the text of a path has no backslashes if the path has none. -/
theorem plain_rest (spelled : path.Spelled) (plain : '\\' ∉ path.text.toList)
    {base rest : List Component} (split : path.components = base ++ rest) (notEmpty : base ≠ [])
    (known : ∀ component ∈ rest, component.IsStep) :
    '\\' ∉ (ofComponents rest).text.toList := by
  by_cases none : rest = []
  · subst none
    decide
  · obtain ⟨joint, goesOn⟩ := text_ofComponents_append notEmpty
    rw [text_ofComponents known]
    intro inside
    rw [← spelled, split, goesOn rest none, String.toList_append] at plain
    exact plain (List.mem_append_right _ inside)

/-- Among files that are written without backslashes only `./index.js` poses, as the index of
the context. -/
theorem poses_iff (innerShape : Shape left leftLead leftSteps)
    (outerShape : Shape right rightLead rightSteps) (innerPlain : '\\' ∉ left.text.toList)
    (outerPlain : '\\' ∉ right.text.toList) :
    context.Poses left right ↔ right = .of "./index.js" ∧ right.startsWith context = false ∧
      left.components = context.components ++ [.name "index.js"] := by
  have known : right.startsWith context = false → ∀ rest, left.components = context.components ++ rest →
      ∀ component ∈ rest, component.IsStep := by
    intro elsewhere rest split
    have isStep := isStep_of_mem_drop leftLead innerShape.known
      (List.length_eq_zero_iff.not.2 (ne_nil_of_startsWith_eq_false elsewhere))
    rwa [← innerShape.components_eq, split, List.drop_left] at isStep
  constructor
  · rintro ⟨rest, follows, elsewhere, resembles⟩
    rw [innerShape.stripPrefix?_eq] at follows
    split at follows
    · next below =>
      obtain ⟨steps, split⟩ := innerShape.startsWith_iff.1 below
      rw [← split, List.drop_left] at follows
      obtain rfl := Option.some.inj follows
      have isStep := known elsewhere steps (innerShape.components_eq.trans split.symm)
      have plain := plain_rest innerShape.spelled innerPlain
        (innerShape.components_eq.trans split.symm) (ne_nil_of_startsWith_eq_false elsewhere) isStep
      have written : right = of ("./" ++ (ofComponents steps).text) := by
        refine ext_text ?_
        have dotted : '\\' ∉ ("./" ++ (ofComponents steps).text).toList := by
          simpa [String.toList_append] using plain
        rw [Resembles, forwardSlashes_eq_self outerPlain] at resembles
        exact resembles.trans (forwardSlashes_eq_self dotted)
      obtain rfl : rightLead = .here := by
        have lead := lead_of_dotted (ofComponents steps).text
        rw [← written, outerShape.path_eq, cut_ofComponents outerShape.known] at lead
        exact lead
      rcases outerShape.here rfl with rfl | rfl
      · have texts := congrArg (fun path : Path => path.text.toList) (written.symm.trans outerShape.path_eq)
        simp [of, String.toList_append, ofComponents, Lead.components, Component.text] at texts
      · have index : right = of "./index.js" := outerShape.path_eq
        refine ⟨index, elsewhere, ?_⟩
        have texts : "./" ++ (ofComponents steps).text = "./" ++ "index.js" :=
          congrArg Path.text (written.symm.trans index)
        have rest : ofComponents steps = of "index.js" :=
          ext_text ((String.append_right_inj "./").1 texts)
        have components := congrArg Path.components rest
        rw [show ofComponents steps = ofComponents (Lead.none.components ++ steps) from rfl,
          components_ofComponents isStep .none] at components
        rw [innerShape.components_eq, ← split]
        exact congrArg _ components
    · cases follows
  · rintro ⟨rfl, elsewhere, split⟩
    have below : left.startsWith context = true := by
      rw [startsWith, split, List.isPrefixOf_iff_prefix]
      exact List.prefix_append _ _
    refine ⟨of "index.js", ?_, elsewhere, rfl⟩
    rw [innerShape.stripPrefix?_eq, if_pos below, ← innerShape.components_eq, split, List.drop_left]
    rfl

end Resolution.Shape

namespace Build

variable {view : FileView} {options : Options}

/-- No two of some files are mistaken for each other. -/
def KeptApart (context : Path) (paths : List Path) : Prop :=
  ∀ left ∈ paths, ∀ right ∈ paths, context.Mistaken left right → left = right

/-- Below an absolute context all that is needed is absolute. -/
theorem Needed.canonical (absolute : options.context.isAbsolute = true) {path : Path}
    (needed : Needed view options path) : path.Canonical := by
  induction needed with
  | entry listed found =>
    exact Resolution.canonical_of_mem_candidates absolute
      (Resolution.mem_candidates_of_answer_found found)
  | @require issuer path content request needed read asked found canonical =>
    refine Resolution.canonical_of_mem_candidates ?_
      (Resolution.mem_candidates_of_answer_found found)
    cases parent : issuer.parent? with
    | none => exact absolute
    | some above => exact Path.isAbsolute_parent canonical.isAbsolute parent

/-- Files that are written without backslashes are kept apart, unless `./index.js` poses as the
index of a relative context. -/
theorem keptApart_iff_of_plain (context : Path) {paths : List Path}
    (shaped : ∀ path ∈ paths, ∃ lead steps, Resolution.Shape path lead steps)
    (plain : ∀ path ∈ paths, '\\' ∉ path.text.toList) :
    KeptApart context paths ↔
      ¬ (.of "./index.js" ∈ paths ∧ (Path.of "./index.js").startsWith context = false ∧
        ∃ path ∈ paths, path.components = context.components ++ [.name "index.js"]) := by
  have posing : ∀ inner ∈ paths, ∀ outer ∈ paths, context.Poses inner outer ↔
      outer = .of "./index.js" ∧ outer.startsWith context = false ∧
        inner.components = context.components ++ [.name "index.js"] := by
    intro inner isInner outer isOuter
    obtain ⟨_, _, innerShape⟩ := shaped inner isInner
    obtain ⟨_, _, outerShape⟩ := shaped outer isOuter
    exact innerShape.poses_iff outerShape (plain inner isInner) (plain outer isOuter)
  constructor
  · rintro apart ⟨dotted, elsewhere, path, member, split⟩
    have poses := (posing path member _ dotted).2 ⟨rfl, elsewhere, split⟩
    obtain rfl := apart path member _ dotted (.inr (.inl poses))
    rw [Path.startsWith, split, Bool.eq_false_iff, ne_eq, List.isPrefixOf_iff_prefix] at elsewhere
    exact elsewhere (List.prefix_append _ _)
  · rintro none left isLeft right isRight (⟨-, resembles⟩ | poses | poses)
    · rw [Path.Resembles, forwardSlashes_eq_self (plain left isLeft),
        forwardSlashes_eq_self (plain right isRight)] at resembles
      exact Path.ext_text resembles
    · obtain ⟨rfl, elsewhere, split⟩ := (posing left isLeft right isRight).1 poses
      exact absurd ⟨isRight, elsewhere, left, isLeft, split⟩ none
    · obtain ⟨rfl, elsewhere, split⟩ := (posing right isRight left isLeft).1 poses
      exact absurd ⟨isLeft, elsewhere, right, isRight, split⟩ none

/-- The modules of a build that did not fail into a compilation without modules. -/
theorem Scan.Explored.get?_finish {scan : Scan} {initial : Compilation}
    (explored : Scan.Explored view options initial scan) (fresh : initial.modules = Table.empty)
    (digest : ByteArray → Fingerprint) (cache : Option ArtifactCache) (success : scan.failure = none)
    (id : String) :
    ((finish digest options cache scan).compilation.modules.get? id).map Module.path =
      scan.seen.find? fun path => moduleId options.context path == id := by
  obtain ⟨present, absent⟩ := @get?_renderAll (fun _ _ => True) digest _ explored.sorted
    (fun _ _ _ => trivial) ⟨scan.compilation, cache⟩ (fun _ _ _ _ _ => trivial) id
  rw [(finish_eq digest options cache success).1]
  rw [explored.get?_modules id] at present absent
  cases search : scan.seen.find? fun path => moduleId options.context path == id with
  | none =>
    rw [absent (by rw [search]; rfl)]
    simp only [explored.outcome.1, fresh]
    rfl
  | some path =>
    obtain ⟨module, made, found⟩ := present _ (by rw [search]; rfl)
    rw [found, Option.map_some, made.path]
    rfl

theorem Scan.Explored.sizes_finish {scan : Scan} {initial : Compilation}
    (explored : Scan.Explored view options initial scan) (noModules : initial.modules = Table.empty)
    (noFiles : initial.files = Table.empty) (digest : ByteArray → Fingerprint)
    (cache : Option ArtifactCache) (success : scan.failure = none) :
    (finish digest options cache scan).compilation.modules.size =
        (scan.seen.map (moduleId options.context)).dedup.length ∧
      (finish digest options cache scan).compilation.files.size = scan.seen.length := by
  constructor
  · have sorted : (finish digest options cache scan).compilation.modules.Sorted := by
      rw [(finish_eq digest options cache success).1]
      refine sorted_renderAll digest scan.modules ?_
      rw [explored.outcome.1, noModules]
      exact Table.sorted_empty
    have sizes := sorted.size_eq id (fun _ _ => Std.LawfulEqCmp.compare_eq_iff_eq)
      (scan.seen.map (moduleId options.context)) fun key => by
        rw [Table.contains_eq_isSome_get?, ← Option.isSome_map (f := Module.path),
          explored.get?_finish noModules digest cache success key, List.find?_isSome, List.map_id,
          id, List.mem_map]
        simp only [beq_iff_eq]
    rwa [List.map_id] at sizes
  · have files : (finish digest options cache scan).compilation.files = scan.compilation.files :=
      (sameWatch_finish digest options cache scan).1
    have sorted : scan.compilation.files.Sorted := by
      rw [explored.files, noFiles]
      exact Table.sorted_empty.foldr_insert _ _ _
    rw [files, sorted.size_eq Path.components Path.compare_eq_iff scan.seen
      fun key => ?_, List.dedup_eq_self.2 explored.nodup_components, List.length_map]
    rw [explored.files, PathSet.contains_foldr_add, noFiles, Table.contains_empty, Bool.false_or,
      List.any_eq_true, List.mem_map]
    exact exists_congr fun other => and_congr_right' ((Path.same_iff key other).trans eq_comm)

theorem nodup_ids_iff (context : Path) {paths : List Path} (distinct : paths.Nodup)
    (shaped : ∀ path ∈ paths, ∃ lead steps, Resolution.Shape path lead steps) :
    (paths.map (moduleId context)).Nodup ↔ KeptApart context paths := by
  rw [List.nodup_map_iff_inj_on distinct]
  refine forall₄_congr fun left isLeft right isRight => ?_
  obtain ⟨_, _, leftShape⟩ := shaped left isLeft
  obtain ⟨_, _, rightShape⟩ := shaped right isRight
  rw [leftShape.moduleId_eq_iff rightShape]

/-- Everything is found under its own label if and only if labels differ. -/
theorem find?_own_iff {paths : List Path} (distinct : paths.Nodup) (label : Path → String) :
    (∀ path ∈ paths, (paths.find? fun other => label other == label path) = some path) ↔
      (paths.map label).Nodup := by
  rw [List.nodup_map_iff_inj_on distinct]
  constructor
  · intro own left isLeft right isRight same
    have found := own left isLeft
    rw [same] at found
    exact Option.some.inj (found.symm.trans (own right isRight))
  · intro differ path isRead
    cases search : paths.find? fun other => label other == label path with
    | none => exact absurd (beq_self_eq_true _) (List.find?_eq_none.1 search path isRead)
    | some other =>
      have same := List.find?_some search
      rw [differ other (List.mem_of_find?_eq_some search) path isRead (beq_iff_eq.1 same)]

end Build

end Bundler
