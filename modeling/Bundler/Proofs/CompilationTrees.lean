import Bundler.Proofs.Build.Rebuilds
import Bundler.Proofs.Compiler.Bailing

/-!
# Trees of compilations

A compilation takes over the assets and paths of a child once, when the child is attached. The child
is not edited after that, and edits of the parent drop no path and report every asset that they do
not take, so the root speaks for the whole tree. `get?_edit` and `errors_edit` say what an edit does
to assets and errors, `Built.covers` is about paths, and `firstError?_eq_some_iff` finds the place
of the first error.

A compilation in a tree is named by the way to it, the list of child positions from the root. The
order of such lists in which a list comes after its beginnings is the preorder of the tree.
-/

namespace Bundler.Compilation

/-! ## Places in a tree -/

/-- The compilation at the end of a way down, if there is one. -/
def at? (compilation : Compilation) : List Nat → Option Compilation
  | [] => some compilation
  | position :: way => compilation.children[position]?.bind fun child => child.at? way

theorem at?_cons_eq_some_iff {compilation nested : Compilation} {position : Nat}
    {way : List Nat} : compilation.at? (position :: way) = some nested ↔
      ∃ child, compilation.children[position]? = some child ∧ child.at? way = some nested :=
  Option.bind_eq_some_iff

theorem contains_iff {compilation nested : Compilation} :
    compilation.Contains nested ↔ ∃ way, compilation.at? way = some nested := by
  constructor
  · intro contains
    induction contains with
    | self compilation => exact ⟨[], rfl⟩
    | attached member _ ih =>
      obtain ⟨position, found⟩ := List.mem_iff_getElem?.1 member
      obtain ⟨way, reached⟩ := ih
      exact ⟨position :: way, at?_cons_eq_some_iff.2 ⟨_, found, reached⟩⟩
  · rintro ⟨way, reached⟩
    induction way generalizing compilation with
    | nil =>
      obtain rfl := Option.some.inj reached
      exact .self _
    | cons position way ih =>
      obtain ⟨child, found, reached⟩ := at?_cons_eq_some_iff.1 reached
      exact .attached (List.mem_of_getElem? found) (ih reached)

/-- What holds of a compilation if it holds of its children holds of all. -/
theorem induct {holds : Compilation → Prop}
    (node : ∀ compilation, (∀ child ∈ compilation.children, holds child) → holds compilation)
    (compilation : Compilation) : holds compilation :=
  node compilation fun child _ => induct node child
termination_by sizeOf compilation
decreasing_by
  rename_i member
  obtain ⟨record, children⟩ := compilation
  have smaller := List.sizeOf_lt_of_mem member
  simp only [mk.sizeOf_spec] at smaller ⊢
  omega

/-! ## The first error -/

theorem hasErrors_iff_at {compilation : Compilation} : compilation.hasErrors = true ↔
    ∃ way nested, compilation.at? way = some nested ∧ nested.errors ≠ [] := by
  rw [hasErrors_iff, Erroneous]
  simp only [contains_iff, ← exists_and_right]
  exact exists_comm

theorem hasWarnings_iff_at {compilation : Compilation} : compilation.hasWarnings = true ↔
    ∃ way nested, compilation.at? way = some nested ∧ nested.warnings ≠ [] := by
  simp only [hasWarnings, List.any_eq_true, mem_tree, contains_iff]
  constructor
  · rintro ⟨_, ⟨nested, ⟨way, reached⟩, rfl⟩, warned⟩
    exact ⟨way, nested, reached, by simpa using warned⟩
  · rintro ⟨way, nested, reached, warned⟩
    exact ⟨_, ⟨nested, ⟨way, reached⟩, rfl⟩, by simpa using warned⟩

/-- The first error of a compilation is its own first one, or else the first one of a child. -/
theorem firstError?_step (compilation : Compilation) : compilation.firstError? =
    compilation.errors.head?.or (compilation.children.findSome? firstError?) := by
  rw [firstError?_eq, allErrors_eq, List.head?_append, List.head?_flatMap, funext firstError?_eq]

theorem firstError?_eq_none_iff_at {compilation : Compilation} :
    compilation.firstError? = none ↔
      ∀ way nested, compilation.at? way = some nested → nested.errors = [] := by
  rw [firstError?_eq_none_iff, ← hasErrors_iff, hasErrors_iff_at]
  push Not
  rfl

/-- The first error is the first one of the first compilation that has any, in preorder. -/
theorem firstError?_eq_some_iff {error : Diagnostic} (compilation : Compilation) :
    compilation.firstError? = some error ↔
      ∃ way nested, compilation.at? way = some nested ∧ nested.errors.head? = some error ∧
        ∀ earlier < way, ∀ other, compilation.at? earlier = some other → other.errors = [] := by
  induction compilation using induct with
  | node compilation ih =>
    rw [firstError?_step]
    cases own : compilation.errors with
    | cons first rest =>
      -- The way to the root is before all others.
      constructor
      · intro same
        exact ⟨[], compilation, rfl, own ▸ same, fun _ before => absurd before (List.not_lt_nil _)⟩
      · rintro ⟨_ | ⟨position, way⟩, nested, reached, found, clean⟩
        · obtain rfl := Option.some.inj reached
          rw [own] at found
          exact found
        · rw [clean [] (List.nil_lt_cons _ _) compilation rfl] at own
          cases own
    | nil =>
      rw [List.head?_nil, Option.none_or, List.findSome?_eq_some_iff]
      -- What is before a place in a child is the root, the trees of the children before that child,
      -- and what is before the place in the child itself.
      constructor
      · rintro ⟨before, child, after, split, first, none⟩
        have member : child ∈ compilation.children := by simp [split]
        have position : compilation.children[before.length]? = some child := by simp [split]
        obtain ⟨way, nested, reached, found, clean⟩ := (ih child member).1 first
        refine ⟨before.length :: way, nested,
          at?_cons_eq_some_iff.2 ⟨child, position, reached⟩, found,
          fun earlier less other place => ?_⟩
        cases earlier with
        | nil =>
          obtain rfl := Option.some.inj place
          exact own
        | cons index rest =>
          obtain ⟨sibling, listed, below⟩ := at?_cons_eq_some_iff.1 place
          obtain less | ⟨rfl, before⟩ := List.cons_lt_cons_iff.1 less
          · have sooner : sibling ∈ before := by
              rw [split, List.getElem?_append_left less] at listed
              exact List.mem_of_getElem? listed
            exact firstError?_eq_none_iff_at.1 (none sibling sooner) rest other below
          · obtain rfl := Option.some.inj (position.symm.trans listed)
            exact clean rest before other below
      · rintro ⟨_ | ⟨index, way⟩, nested, reached, found, clean⟩
        · obtain rfl := Option.some.inj reached
          rw [own] at found
          cases found
        · obtain ⟨child, listed, below⟩ := at?_cons_eq_some_iff.1 reached
          obtain ⟨inside, rfl⟩ := List.getElem?_eq_some_iff.1 listed
          refine ⟨compilation.children.take index, _, compilation.children.drop (index + 1), by simp,
            (ih _ (List.getElem_mem inside)).2 ⟨way, nested, below, found, ?_⟩, ?_⟩
          · intro earlier less other place
            exact clean (index :: earlier) (List.cons_lt_cons_iff.2 (.inr ⟨rfl, less⟩)) other
              (at?_cons_eq_some_iff.2 ⟨_, listed, place⟩)
          · intro sibling sooner
            obtain ⟨place, less, rfl⟩ := List.mem_take_iff_getElem.1 sooner
            refine firstError?_eq_none_iff_at.2 fun rest other lies => ?_
            exact clean (place :: rest) (List.cons_lt_cons_iff.2 (.inl (by omega))) other
              (at?_cons_eq_some_iff.2 ⟨_, List.getElem?_eq_getElem (by omega), lies⟩)

/-! ## Emissions -/

/-- Another content is registered for the name. -/
def contradicts (compilation : Compilation) (emission : String × ByteArray) : Bool :=
  (compilation.assets.get? emission.1).any fun asset => asset.content ≠ emission.2

/-- The errors of emissions of which no two have the same name. -/
def conflicts (compilation : Compilation) (emissions : List (String × ByteArray)) :
    List Diagnostic :=
  (emissions.filter compilation.contradicts).map fun emission => .assetConflict emission.1

/-- Names are given contents, one after the other. -/
def emitAll (compilation : Compilation) (emissions : List (String × ByteArray)) : Compilation :=
  emissions.foldl (fun compilation emission => compilation.emitAsset emission.1 emission.2)
    compilation

theorem emitAsset_eq (compilation : Compilation) (name : String) (content : ByteArray) :
    compilation.emitAsset name content =
      { compilation with
        assets := if compilation.assets.contains name then compilation.assets
          else compilation.assets.insert name ⟨content, false⟩
        errors := compilation.errors ++ compilation.conflicts [(name, content)] } := by
  obtain ⟨record, children⟩ := compilation
  rw [emitAsset, Table.contains_eq_isSome_get?]
  cases held : record.assets.get? name with
  | none => simp [conflicts, contradicts, held]
  | some asset =>
    by_cases same : asset.content = content <;>
      simp [conflicts, contradicts, held, same, pushError]

/-- An emission under another name is no reason for a conflict. -/
theorem contradicts_emitAsset_of_ne (compilation : Compilation) {name : String}
    (content : ByteArray) {emission : String × ByteArray} (apart : name ≠ emission.1) :
    (compilation.emitAsset name content).contradicts emission =
      compilation.contradicts emission := by
  rw [contradicts, Build.get?_emitAsset, if_neg apart, Option.or_none, contradicts]

/-- Everything but the assets and errors stays. -/
theorem emitAll_frame (compilation : Compilation) (emissions : List (String × ByteArray)) :
    compilation.emitAll emissions =
      { compilation with
        assets := (compilation.emitAll emissions).assets
        errors := (compilation.emitAll emissions).errors } := by
  induction emissions generalizing compilation with
  | nil =>
    obtain ⟨record, children⟩ := compilation
    rfl
  | cons emission rest ih =>
    change (compilation.emitAsset emission.1 emission.2).emitAll rest =
      { compilation with
        assets := ((compilation.emitAsset emission.1 emission.2).emitAll rest).assets
        errors := ((compilation.emitAsset emission.1 emission.2).emitAll rest).errors }
    rw [ih, emitAsset_eq]

/-- What is registered stays, and a name that is new gets its first content. -/
theorem get?_emitAll (compilation : Compilation) (emissions : List (String × ByteArray))
    (name : String) : (compilation.emitAll emissions).assets.get? name =
      (compilation.assets.get? name).or
        ((emissions.lookup name).map fun content => ⟨content, false⟩) := by
  induction emissions generalizing compilation with
  | nil => simp [emitAll]
  | cons emission rest ih =>
    change ((compilation.emitAsset emission.1 emission.2).emitAll rest).assets.get? name = _
    rw [ih, Build.get?_emitAsset, Option.or_assoc, List.lookup_cons]
    by_cases same : emission.1 = name
    · simp [same]
    · rw [if_neg same, Option.none_or, beq_false_of_ne (Ne.symm same)]

/-- Emissions under different names are judged by what is registered before all of them. -/
theorem errors_emitAll (compilation : Compilation) {emissions : List (String × ByteArray)}
    (apart : (emissions.map Prod.fst).Nodup) : (compilation.emitAll emissions).errors =
      compilation.errors ++ compilation.conflicts emissions := by
  induction emissions generalizing compilation with
  | nil => simp [emitAll, conflicts]
  | cons emission rest ih =>
    obtain ⟨new, apart⟩ := List.nodup_cons.1 apart
    have later : rest.filter (compilation.emitAsset emission.1 emission.2).contradicts =
        rest.filter compilation.contradicts := by
      refine List.filter_congr fun other member => contradicts_emitAsset_of_ne _ _ ?_
      intro same
      exact new (same ▸ List.mem_map_of_mem member)
    change ((compilation.emitAsset emission.1 emission.2).emitAll rest).errors = _
    rw [ih _ apart, conflicts, later, emitAsset_eq, List.append_assoc]
    congr 1
    rw [conflicts, conflicts, ← List.map_append, ← List.filter_append]
    rfl

theorem sorted_emitAll {compilation : Compilation} (sorted : compilation.assets.Sorted)
    (emissions : List (String × ByteArray)) : (compilation.emitAll emissions).assets.Sorted := by
  induction emissions generalizing compilation with
  | nil => exact sorted
  | cons emission rest ih =>
    have next : (compilation.emitAsset emission.1 emission.2).assets.Sorted := by
      rw [emitAsset_eq]
      split
      · exact sorted
      · exact sorted.insert _ _
    exact ih next

/-! ## Edits -/

/-- The names and contents that an edit emits, in order. -/
def emissions (compilation : Compilation) : Edit → List (String × ByteArray)
  | .emitAsset name content => [(name, content)]
  | .emitNames name => [(name, (",".intercalate compilation.assetNames).toUTF8)]
  | .addChild child => child.assets.entries.map fun entry => (entry.1, entry.2.content)
  | _ => []

/-- The error that an edit pushes. -/
def Edit.pushed : Edit → List Diagnostic
  | .pushError error => [error]
  | _ => []

/-- The edit replaces or drops the asset of a name. -/
def Edit.Revises (edit : Edit) (name : String) : Prop :=
  (∃ content, edit = .updateAsset name content) ∨ edit = .deleteAsset name

/-- The child that an edit attaches. -/
def Edit.attached : Edit → List Compilation
  | .addChild child => [child]
  | _ => []

/-- The compilation after edits. -/
def after (compilation : Compilation) (edits : List Edit) : Compilation :=
  edits.foldl (fun compilation edit => (compilation.edit edit).2) compilation

theorem edit_emitAsset (compilation : Compilation) (name : String) (content : ByteArray) :
    (compilation.edit (.emitAsset name content)).2 =
      compilation.emitAll (compilation.emissions (.emitAsset name content)) := rfl

theorem edit_emitNames (compilation : Compilation) (name : String) :
    (compilation.edit (.emitNames name)).2 =
      compilation.emitAll (compilation.emissions (.emitNames name)) := rfl

theorem addChild_eq (compilation child : Compilation) :
    compilation.addChild child =
      { compilation with
        assets := (compilation.emitAll (compilation.emissions (.addChild child))).assets
        errors := (compilation.emitAll (compilation.emissions (.addChild child))).errors
        files := compilation.files.addAll child.files.keys
        missing := compilation.missing.addAll child.missing.keys
        children := compilation.children ++ [child] } := by
  have joined : child.assets.entries.foldl
      (fun compilation entry => compilation.emitAsset entry.1 entry.2.content) compilation =
        compilation.emitAll (compilation.emissions (.addChild child)) := by
    rw [emitAll, emissions, List.foldl_map]
  rw [addChild, joined, emitAll_frame]

/-- An asset that an edit does not revise stays, and a name that is new gets the first content that
is emitted for it. -/
theorem get?_edit (compilation : Compilation) {edit : Edit} {name : String}
    (spared : ¬ edit.Revises name) : (compilation.edit edit).2.assets.get? name =
      (compilation.assets.get? name).or
        (((compilation.emissions edit).lookup name).map fun content => ⟨content, false⟩) := by
  cases edit with
  | emitAsset => rw [edit_emitAsset, get?_emitAll]
  | emitNames => rw [edit_emitNames, get?_emitAll]
  | addChild child =>
    simp only [Compilation.edit, addChild_eq]
    exact get?_emitAll compilation _ name
  | updateAsset other content =>
    have apart : name ≠ other := fun same => spared (.inl ⟨content, by rw [same]⟩)
    simp only [Compilation.edit, updateAsset, emissions, List.lookup_nil, Option.map_none,
      Option.or_none]
    split
    · simp [Table.get?_modify, apart]
    · rfl
  | deleteAsset other =>
    have apart : name ≠ other := fun same => spared (.inr (by rw [same]))
    simp [Compilation.edit, deleteAsset, emissions, Table.get?_erase, apart]
  | _ =>
    simp [Compilation.edit, emissions, pushError, pushWarning, addFile, addMissing, addChunk,
      addModule]

/-- An edit adds the error that it pushes, and one for each emission that contradicts what is
registered. -/
theorem errors_edit (compilation : Compilation) {edit : Edit}
    (apart : ((compilation.emissions edit).map Prod.fst).Nodup) :
    (compilation.edit edit).2.errors =
      compilation.errors ++ edit.pushed ++ compilation.conflicts (compilation.emissions edit) := by
  cases edit with
  | emitAsset =>
    simp only [edit_emitAsset, errors_emitAll compilation apart, Edit.pushed, List.append_nil]
  | emitNames =>
    simp only [edit_emitNames, errors_emitAll compilation apart, Edit.pushed, List.append_nil]
  | addChild child =>
    simp only [Compilation.edit, addChild_eq, Edit.pushed, List.append_nil]
    exact errors_emitAll compilation apart
  | updateAsset name content =>
    simp only [Compilation.edit, updateAsset]
    split <;> simp [Edit.pushed, emissions, conflicts]
  | _ =>
    simp [Compilation.edit, emissions, Edit.pushed, conflicts, deleteAsset, pushError, pushWarning,
      addFile, addMissing, addChunk, addModule]

theorem sorted_edit {compilation : Compilation} (sorted : compilation.assets.Sorted) (edit : Edit) :
    (compilation.edit edit).2.assets.Sorted := by
  cases edit with
  | emitAsset =>
    rw [edit_emitAsset]
    exact sorted_emitAll sorted _
  | emitNames =>
    rw [edit_emitNames]
    exact sorted_emitAll sorted _
  | addChild child =>
    simp only [Compilation.edit, addChild_eq]
    exact sorted_emitAll sorted _
  | updateAsset name content =>
    simp only [Compilation.edit, updateAsset]
    split
    · exact sorted.modify _ _
    · exact sorted
  | deleteAsset name => exact sorted.erase name
  | _ => exact sorted

/-- An asset stays until it is revised. -/
theorem get?_after {compilation : Compilation} {edits : List Edit} {name : String} {asset : Asset}
    (held : compilation.assets.get? name = some asset)
    (spared : ∀ edit ∈ edits, ¬ edit.Revises name) :
    (compilation.after edits).assets.get? name = some asset := by
  induction edits generalizing compilation with
  | nil => exact held
  | cons edit edits ih =>
    obtain ⟨first, spared⟩ := List.forall_mem_cons.1 spared
    have kept : (compilation.edit edit).2.assets.get? name = some asset := by
      rw [get?_edit compilation first, held, Option.some_or]
    exact ih kept spared

/-! ## What edits keep -/

/-- The compilation has all paths of another one. -/
def Covers (compilation other : Compilation) : Prop :=
  ∀ path, (other.files.contains path = true → compilation.files.contains path = true) ∧
    (other.missing.contains path = true → compilation.missing.contains path = true)

theorem Covers.refl (compilation : Compilation) : compilation.Covers compilation :=
  fun _ => ⟨id, id⟩

theorem Covers.trans {first second third : Compilation} (upper : first.Covers second)
    (lower : second.Covers third) : first.Covers third := fun path =>
  ⟨fun held => (upper path).1 ((lower path).1 held),
    fun held => (upper path).2 ((lower path).2 held)⟩

/-- Diagnostics, children and paths are added at most. -/
structure Keeps (before after : Compilation) : Prop where
  errors : before.errors <+: after.errors
  warnings : before.warnings <+: after.warnings
  children : before.children <+: after.children
  paths : after.Covers before

theorem Keeps.refl (compilation : Compilation) : Keeps compilation compilation :=
  ⟨List.prefix_refl _, List.prefix_refl _, List.prefix_refl _, .refl _⟩

theorem Keeps.trans {first second third : Compilation} (former : Keeps first second)
    (latter : Keeps second third) : Keeps first third where
  errors := former.errors.trans latter.errors
  warnings := former.warnings.trans latter.warnings
  children := former.children.trans latter.children
  paths := latter.paths.trans former.paths

theorem keeps_emitAll (compilation : Compilation) (emissions : List (String × ByteArray)) :
    compilation.Keeps (compilation.emitAll emissions) := by
  induction emissions generalizing compilation with
  | nil => exact .refl _
  | cons emission rest ih =>
    refine Keeps.trans ?_ (ih (compilation.emitAsset emission.1 emission.2))
    rw [emitAsset_eq]
    exact { Keeps.refl compilation with errors := List.prefix_append _ _ }

theorem keeps_edit (compilation : Compilation) (edit : Edit) :
    compilation.Keeps (compilation.edit edit).2 := by
  cases edit with
  | emitAsset =>
    rw [edit_emitAsset]
    exact keeps_emitAll compilation _
  | emitNames =>
    rw [edit_emitNames]
    exact keeps_emitAll compilation _
  | addChild child =>
    simp only [Compilation.edit, addChild_eq]
    exact { Keeps.refl compilation with
      errors := (keeps_emitAll compilation _).errors
      children := List.prefix_append _ _
      paths := fun _ =>
        ⟨PathSet.contains_addAll_of_contains _, PathSet.contains_addAll_of_contains _⟩ }
  | updateAsset name content =>
    simp only [Compilation.edit, updateAsset]
    split <;> exact { Keeps.refl compilation with }
  | pushError error => exact { Keeps.refl compilation with errors := List.prefix_append _ _ }
  | pushWarning warning => exact { Keeps.refl compilation with warnings := List.prefix_append _ _ }
  | addFile path =>
    exact { Keeps.refl compilation with
      paths := fun other =>
        ⟨fun held => by simp [Compilation.edit, Compilation.addFile, held], id⟩ }
  | addMissing path =>
    exact { Keeps.refl compilation with
      paths := fun other =>
        ⟨id, fun held => by simp [Compilation.edit, Compilation.addMissing, held]⟩ }
  | _ => exact { Keeps.refl compilation with }

theorem keeps_after (compilation : Compilation) (edits : List Edit) :
    compilation.Keeps (compilation.after edits) := by
  induction edits generalizing compilation with
  | nil => exact .refl _
  | cons edit edits ih => exact (keeps_edit compilation edit).trans (ih _)

theorem children_edit (compilation : Compilation) (edit : Edit) :
    (compilation.edit edit).2.children = compilation.children ++ edit.attached := by
  cases edit with
  | emitAsset =>
    rw [edit_emitAsset, emitAll_frame]
    simp [Edit.attached]
  | emitNames =>
    rw [edit_emitNames, emitAll_frame]
    simp [Edit.attached]
  | addChild child => simp only [Compilation.edit, addChild_eq, Edit.attached]
  | updateAsset name content =>
    simp only [Compilation.edit, updateAsset]
    split <;> simp [Edit.attached]
  | _ =>
    simp [Compilation.edit, Edit.attached, deleteAsset, pushError, pushWarning, addFile, addMissing,
      addChunk, addModule]

/-! ## Built compilations -/

/-- Made by edits, with children that were made by edits before. -/
inductive Built : Compilation → Prop where
  | fresh (id : Nat) (name : Option String) (bail : Bool) :
      Built { id := id, name := name, bail := bail }
  | edited {compilation : Compilation} (edit : Edit) (built : Built compilation)
      (attached : ∀ child ∈ edit.attached, Built child) : Built (compilation.edit edit).2

theorem covers_attached (compilation : Compilation) {edit : Edit} {child : Compilation}
    (attached : child ∈ edit.attached) : (compilation.edit edit).2.Covers child := by
  cases edit with
  | addChild other =>
    obtain rfl := List.mem_singleton.1 attached
    intro path
    simp only [Compilation.edit, addChild_eq, PathSet.contains_addAll, ← PathSet.contains_eq_any]
    exact ⟨fun held => by simp [held], fun held => by simp [held]⟩
  | _ => cases attached

namespace Built

variable {compilation : Compilation}

theorem after (built : compilation.Built) {edits : List Edit}
    (attached : ∀ edit ∈ edits, ∀ child ∈ edit.attached, child.Built) :
    (compilation.after edits).Built := by
  induction edits generalizing compilation with
  | nil => exact built
  | cons edit edits ih =>
    obtain ⟨first, rest⟩ := List.forall_mem_cons.1 attached
    exact ih (built.edited edit first) rest

theorem sorted (built : compilation.Built) : compilation.assets.Sorted := by
  induction built with
  | fresh => exact Table.sorted_empty
  | edited edit _ _ ih => exact sorted_edit ih edit

/-- The paths of a compilation are among those of all that it was attached to, directly or not. -/
theorem covers (built : compilation.Built) {nested : Compilation}
    (contains : compilation.Contains nested) : compilation.Covers nested := by
  induction built with
  | fresh =>
    cases contains with
    | self => exact .refl _
    | attached member => cases member
  | @edited compilation edit built _ ih inner =>
    cases contains with
    | self => exact .refl _
    | @attached _ child _ member contains =>
      rw [children_edit] at member
      rcases List.mem_append.1 member with old | new
      · exact (keeps_edit compilation edit).paths.trans (ih (.attached old contains))
      · exact (covers_attached compilation new).trans (inner child new contains)

end Built

theorem nodup_emissions (compilation : Compilation) {edit : Edit}
    (attached : ∀ child ∈ edit.attached, child.Built) :
    ((compilation.emissions edit).map Prod.fst).Nodup := by
  cases edit with
  | addChild child =>
    have distinct := (attached child List.mem_cons_self).sorted.nodup_keys
    simpa [emissions, Table.keys, Function.comp_def] using distinct
  | _ => simp [emissions]

/-! ## The tree as a whole -/

/-- Whatever edits made a compilation and its children:

* later edits keep its diagnostics, children and paths, and each asset until it is updated or
  deleted;
* an edit adds the error that it pushes, if any, and one conflict for each emission of another
  content than is registered, and registers the first content for each new name only;
* it has the paths of every compilation in its tree;
* it has errors or warnings exactly if one in its tree has, and its first error is that of the first
  one with errors in preorder. -/
theorem nothing_lost {compilation : Compilation} (built : compilation.Built) :
    (∀ edits : List Edit, compilation.Keeps (compilation.after edits) ∧
      ∀ name asset, compilation.assets.get? name = some asset →
        (∀ edit ∈ edits, ¬ edit.Revises name) →
        (compilation.after edits).assets.get? name = some asset) ∧
    (∀ edit : Edit, (∀ child ∈ edit.attached, child.Built) →
      (compilation.edit edit).2.errors =
        compilation.errors ++ edit.pushed ++ compilation.conflicts (compilation.emissions edit) ∧
      ∀ name, ¬ edit.Revises name → (compilation.edit edit).2.assets.get? name =
        (compilation.assets.get? name).or
          (((compilation.emissions edit).lookup name).map fun content => ⟨content, false⟩)) ∧
    (∀ way nested, compilation.at? way = some nested → compilation.Covers nested) ∧
    (compilation.hasErrors = true ↔
      ∃ way nested, compilation.at? way = some nested ∧ nested.errors ≠ []) ∧
    (compilation.hasWarnings = true ↔
      ∃ way nested, compilation.at? way = some nested ∧ nested.warnings ≠ []) ∧
    ∀ error, compilation.firstError? = some error ↔
      ∃ way nested, compilation.at? way = some nested ∧ nested.errors.head? = some error ∧
        ∀ earlier < way, ∀ other, compilation.at? earlier = some other → other.errors = [] := by
  refine ⟨fun edits => ⟨keeps_after compilation edits, fun name asset => get?_after⟩,
    fun edit attached => ⟨?_, fun name => get?_edit compilation⟩,
    fun way nested reached => built.covers (contains_iff.2 ⟨way, reached⟩), hasErrors_iff_at,
    hasWarnings_iff_at, fun error => firstError?_eq_some_iff compilation⟩
  exact errors_edit compilation (nodup_emissions compilation attached)

/-- A compilation with a file, an asset and an error. -/
def lowest : Compilation :=
  ({ id := 2 } : Compilation).after
    [.addFile (.of "/p/low.js"), .emitAsset "main.js" "low".toUTF8,
      .pushError ⟨.plugin, "low", none⟩]

/-- It is attached to one that has no error, and that one to a root with another content for the
same asset. -/
def threeLevels : Compilation :=
  ({ id := 0 } : Compilation).after
    [.emitAsset "main.js" "root".toUTF8,
      .addChild (({ id := 1 } : Compilation).after [.addChild lowest])]

/-- The root reports the conflict as its only error, and as the first one in the tree; it has the
file, and it keeps its asset. -/
theorem nothing_lost_threeLevels :
    threeLevels.Built ∧ threeLevels.errors = [.assetConflict "main.js"] ∧
      threeLevels.firstError? = some (.assetConflict "main.js") ∧
      threeLevels.files.contains (.of "/p/low.js") = true ∧
      (threeLevels.after [.emitAsset "main.js" "late".toUTF8]).assets.get? "main.js" =
        some ⟨"root".toUTF8, false⟩ := by
  have lowestBuilt : lowest.Built := by
    refine (Built.fresh 2 none false).after ?_
    simp [Edit.attached]
  have middleBuilt : (({ id := 1 } : Compilation).after [.addChild lowest]).Built := by
    refine (Built.fresh 1 none false).after ?_
    simpa [Edit.attached] using lowestBuilt
  have built : threeLevels.Built := by
    refine (Built.fresh 0 none false).after ?_
    simpa [Edit.attached] using middleBuilt
  obtain ⟨later, -, covers, -, -, first⟩ := nothing_lost built
  have errors : threeLevels.errors = [.assetConflict "main.js"] := by decide +kernel
  refine ⟨built, errors, (first _).2 ⟨[], _, rfl, by rw [errors]; rfl, by simp⟩,
    (covers [0, 0] lowest rfl _).1 (by decide +kernel),
    (later _).2 "main.js" _ (by decide +kernel) ?_⟩
  simp [Edit.Revises]

end Bundler.Compilation
