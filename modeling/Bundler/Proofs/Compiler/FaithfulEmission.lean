import Bundler.Proofs.Compiler.Clients
import Bundler.Proofs.Compiler.StoredOutput

/-!
# Faithful emission

What the emission of a compilation leaves in a store in memory. `Emits` says which assets were
written, and that nothing else was: the first ones in the order of their names, each whole
and in its place, besides directories on the way to a target. `emission_faithful` says so
for every emission into a store whose targets are different paths, and that an emission
that succeeded can be repeated without a change.
-/

namespace Bundler

variable {S : Setting} {output : StorageId}

open MemoryFiles (Answers Frame mkdirAction writeAction run_bind stored)

/-! ## Flags -/

/-- The compilation with the assets of these names marked as written. -/
def Compilation.flagged (compilation : Compilation) (written : List String) : Compilation :=
  { compilation with
    assets := compilation.assets.map fun name asset =>
      if name ∈ written then { asset with emitted := true } else asset }

namespace Compilation

variable (compilation : Compilation) (name : String)

theorem markEmitted_eq : compilation.markEmitted name = compilation.flagged [name] := by
  have same : (compilation.assets.modify name fun asset => { asset with emitted := true }) =
      compilation.assets.map fun other asset =>
        if other ∈ [name] then { asset with emitted := true } else asset := by
    refine congrArg Table.mk (List.map_congr_left fun entry _ => ?_)
    simp only [beq_iff_eq, Std.LawfulEqCmp.compare_eq_iff_eq, List.mem_singleton,
      eq_comm (a := name)]
    split <;> rfl
  rw [markEmitted, flagged, same]

@[simp] theorem flagged_nil : compilation.flagged [] = compilation := by
  have same : (compilation.assets.map fun other asset =>
      if other ∈ [] then { asset with emitted := true } else asset) = compilation.assets :=
    congrArg Table.mk (by simp)
  rw [flagged, same]
  cases compilation
  rfl

theorem flagged_flagged (first second : List String) :
    (compilation.flagged first).flagged second = compilation.flagged (first ++ second) := by
  have same : ((compilation.assets.map fun other asset =>
      if other ∈ first then { asset with emitted := true } else asset).map fun other asset =>
        if other ∈ second then { asset with emitted := true } else asset) =
      compilation.assets.map fun other asset =>
        if other ∈ first ++ second then { asset with emitted := true } else asset := by
    refine congrArg Table.mk (List.map_map.trans (List.map_congr_left fun entry _ => ?_))
    simp only [Function.comp_apply, List.mem_append]
    by_cases inFirst : entry.1 ∈ first <;> by_cases inSecond : entry.1 ∈ second <;>
      simp [inFirst, inSecond]
  rw [flagged, flagged, flagged, ← same]

/-- Flags that are set need not be set again. -/
theorem markEmitted_flagged {written : List String} (member : name ∈ written) :
    (compilation.flagged written).markEmitted name = compilation.flagged written := by
  have same : ∀ other, other ∈ written ++ [name] ↔ other ∈ written := by
    intro other
    rw [List.mem_append, List.mem_singleton]
    exact or_iff_left_of_imp fun equal => equal ▸ member
  rw [markEmitted_eq, flagged_flagged, flagged, flagged]
  simp only [same]

theorem get?_flagged (written : List String) :
    (compilation.flagged written).assets.get? name = (compilation.assets.get? name).map
      fun asset => if name ∈ written then { asset with emitted := true } else asset :=
  Table.get?_map_key _ _ _

theorem assetNames_flagged (written : List String) :
    (compilation.flagged written).assetNames = compilation.assetNames :=
  List.map_map

/-- A mark keeps the content of every asset. -/
theorem get?_markEmitted {other : String} {asset : Asset}
    (held : (compilation.markEmitted name).assets.get? other = some asset) :
    ∃ before, compilation.assets.get? other = some before ∧ asset.content = before.content := by
  rw [markEmitted, Table.get?_modify] at held
  split at held
  · obtain ⟨before, found, rfl⟩ := Option.map_eq_some_iff.1 held
    exact ⟨before, found, rfl⟩
  · exact ⟨asset, held, rfl⟩

end Compilation

/-! ## Writes -/

/-- The file that a deed wrote to an output, with its content. -/
def Deed.written? (output : StorageId) : Deed S → Option (Path × ByteArray)
  | .call (.write other path content) (.ok ()) =>
    if other = output then some (path, content) else none
  | _ => none

theorem Deed.written?_of_aside {deed : Deed S} (aside : ¬ deed.Stores output) :
    deed.written? output = none := by
  unfold written?
  split
  · exact if_neg aside
  · rfl

namespace Compiler

variable {compiler : CompilerId} {base : Path} {compilation : Compilation}
  {deeds : List (Deed S)}

theorem written_of_aside (aside : ∀ deed ∈ deeds, ¬ deed.Stores output) :
    deeds.filterMap (Deed.written? output) = [] :=
  List.filterMap_eq_nil_iff.2 fun deed member => deed.written?_of_aside (aside deed member)

/-- Making directories writes nothing. -/
theorem written_of_prepares {result : Except FileFault Unit} (prepared : Prepares output deeds result) :
    deeds.filterMap (Deed.written? output) = [] := by
  have unwritten : ∀ {deeds : List (Deed S)}, OnlyDirectories output deeds →
      deeds.filterMap (Deed.written? output) = [] := by
    intro deeds directories
    refine List.filterMap_eq_nil_iff.2 fun deed member => ?_
    obtain ⟨path, reply, rfl⟩ := directories deed member
    rfl
  cases result with
  | ok value => exact unwritten prepared
  | error fault =>
    obtain ⟨earlier, path, rfl, directories, -⟩ := prepared
    rw [List.filterMap_append, unwritten directories]
    rfl

/-- One asset is written once if it is, and else nothing is. -/
theorem written_of_emitOne {name : String} {content : ByteArray} {result : Except RunError Unit}
    (play : ((emitter compiler output).emitOne base name content).Play deeds result) :
    (result = .ok () ∧
      deeds.filterMap (Deed.written? output) = [(base.join (.of name), content)]) ∨
    ∃ error, result = .error error ∧ deeds.filterMap (Deed.written? output) = [] := by
  rcases writesOne_of_emitOne play with
    ⟨directory, fault, prepared, rfl⟩ | ⟨directories, reply, prepared, rfl, rfl⟩
  · exact .inr ⟨_, rfl, written_of_prepares prepared⟩
  · rw [List.filterMap_append, written_of_prepares prepared]
    cases reply with
    | ok value => exact .inl ⟨rfl, by simp [Deed.written?]⟩
    | error fault => exact .inr ⟨_, rfl, rfl⟩

end Compiler

/-! ## One asset in a store -/

namespace MemoryFiles

variable {store : MemoryFiles} {base : Path}

/-- A directory is prepared with nothing but the way to it, and is there if that succeeds. -/
theorem prepare_leaves {path : Path} {result : Except RunError Unit} {after : MemoryFiles}
    (run : (stored.prepare path).run store = (result, after)) :
    Frame (fun _ => False) (fun other => path.startsWith other = true) store after ∧
      (store.Ordered → after.Ordered) ∧ (result = .ok () → after.contains path = true) := by
  have prepared : (stored.prepare path).run store =
      (Emitter.failingAt path ((mkdirp mkdirAction path.components.length path).run store).1,
        ((mkdirp mkdirAction path.components.length path).run store).2) := rfl
  rw [prepared] at run
  obtain ⟨rfl, rfl⟩ := Prod.mk.inj run
  refine ⟨frame_mkdirp _ path store, fun ordered => ordered.mkdirp _ path, fun ok => ?_⟩
  cases made : ((mkdirp mkdirAction path.components.length path).run store).1 with
  | ok value => exact contains_of_mkdirp made
  | error fault =>
    rw [made] at ok
    cases ok

/-- A directory that is there is prepared without a change. -/
theorem run_prepare_of_contains {path : Path} (there : store.contains path = true) :
    (stored.prepare path).run store = (.ok (), store) := by
  have prepared : (stored.prepare path).run store =
      (Emitter.failingAt path ((mkdirp mkdirAction path.components.length path).run store).1,
        ((mkdirp mkdirAction path.components.length path).run store).2) := rfl
  rw [prepared, mkdirp_of_contains there]
  rfl

/-- The way to a target was made, or could not be; then the target is written. -/
theorem run_emitOne (there : store.contains base = true) (name : String) (content : ByteArray) :
    ∃ middle : MemoryFiles,
      Frame (fun _ => False) (fun path => ∃ parent, (base.join (.of name)).parent? = some parent ∧
        parent.startsWith path = true) store middle ∧
      (store.Ordered → middle.Ordered) ∧
      ((∃ error, (stored.emitOne base name content).run store = (.error error, middle)) ∨
        (∀ parent, (base.join (.of name)).parent? = some parent → middle.contains parent = true) ∧
          (stored.emitOne base name content).run store =
            (Emitter.failingAt (base.join (.of name))
              (writeAction (base.join (.of name)) content middle).1,
              (writeAction (base.join (.of name)) content middle).2)) := by
  rw [Emitter.emitOne]
  cases isParent : (base.join (.of name)).parent? with
  | none => exact ⟨store, .refl store, id, .inr ⟨by simp, rfl⟩⟩
  | some parent =>
    dsimp only
    by_cases same : parent.same base = true
    · refine ⟨store, .refl store, id, .inr ⟨fun other isOther => ?_, ?_⟩⟩
      · obtain rfl := Option.some.inj isOther
        rw [contains_congr same]
        exact there
      · rw [if_pos same]
        rfl
    · rw [if_neg same, run_bind]
      cases prepared : (stored.prepare parent).run store with
      | mk reply middle =>
        obtain ⟨frame, ordered, made⟩ := prepare_leaves prepared
        refine ⟨middle, frame.mono (fun _ => id) fun _ begins => ⟨parent, rfl, begins⟩, ordered, ?_⟩
        cases reply with
        | error error => exact .inl ⟨error, rfl⟩
        | ok value =>
          refine .inr ⟨fun other isOther => ?_, rfl⟩
          obtain rfl := Option.some.inj isOther
          exact made rfl

/-- An asset that is written lies in place, and otherwise nothing is written. -/
theorem emitOne_leaves (there : store.contains base = true) {name : String} {content : ByteArray}
    {result : Except RunError Unit} {after : MemoryFiles}
    (run : (stored.emitOne base name content).run store = (result, after)) :
    Frame (fun path => result = .ok () ∧ path.same (base.join (.of name)) = true)
        (fun path => ∃ parent, (base.join (.of name)).parent? = some parent ∧
          parent.startsWith path = true) store after ∧
      (result = .ok () → after.Lies (base.join (.of name)) content) ∧
      (store.Ordered → after.Ordered) := by
  obtain ⟨middle, made, ordered, ⟨error, failed⟩ | ⟨above, went⟩⟩ :=
    run_emitOne there name content
  · rw [failed] at run
    cases run
    exact ⟨made.mono (fun _ => False.elim) fun _ => id, nofun, ordered⟩
  · cases written : middle.write (base.join (.of name)) content with
    | error fault =>
      have action : writeAction (base.join (.of name)) content middle = (.error fault, middle) := by
        rw [writeAction, written]
      rw [went, action] at run
      cases run
      exact ⟨made.mono (fun _ => False.elim) fun _ => id, nofun, ordered⟩
    | ok later =>
      have action : writeAction (base.join (.of name)) content middle = (.ok (), later) := by
        rw [writeAction, written]
      rw [went, action] at run
      cases run
      refine ⟨?_, fun _ => lies_of_write written above, fun sorted => (ordered sorted).write written⟩
      exact (made.mono (fun _ => False.elim) fun _ => id).trans
        ((frame_write written).mono (fun _ same => ⟨rfl, same⟩) fun _ => id)

/-- An asset that lies in place is written again without a change. -/
theorem run_emitOne_of_lies (ordered : store.Ordered) {name : String} {content : ByteArray}
    (lies : store.Lies (base.join (.of name)) content) :
    (stored.emitOne base name content).run store = (.ok (), store) := by
  have written : (stored.write (base.join (.of name)) content).run store = (.ok (), store) := by
    rw [MemoryFiles.run_stored_write, writeAction, ordered.write_of_lies lies]
  rw [Emitter.emitOne]
  cases isParent : (base.join (.of name)).parent? with
  | none =>
    dsimp only
    rw [pure_bind]
    dsimp only
    rw [run_bind, written]
    rfl
  | some parent =>
    dsimp only
    split
    · rw [pure_bind]
      dsimp only
      rw [run_bind, written]
      rfl
    · rw [run_bind, run_prepare_of_contains (lies.above parent isParent)]
      dsimp only
      rw [run_bind, written]
      rfl

/-- Assets that are marked and lie in place are written again without a change. -/
theorem run_emitNamed_of_lies (ordered : store.Ordered) {compilation : Compilation}
    {names : List String}
    (lies : ∀ name ∈ names, ∃ asset, compilation.assets.get? name = some asset ∧
      compilation.markEmitted name = compilation ∧ store.Lies (base.join (.of name)) asset.content) :
    (stored.emitNamed base names compilation).run store = ((.ok (), compilation), store) := by
  induction names with
  | nil => rfl
  | cons name names ih =>
    obtain ⟨asset, found, marked, inPlace⟩ := lies name List.mem_cons_self
    rw [Emitter.emitNamed, found]
    dsimp only
    rw [run_bind, run_emitOne_of_lies ordered inPlace]
    dsimp only
    rw [run_bind, marked]
    exact ih fun other member => lies other (List.mem_cons_of_mem _ member)

end MemoryFiles

namespace Compiler

variable {compiler : CompilerId} {base : Path} {compilation : Compilation}
  {store after : MemoryFiles} {deeds : List (Deed S)}

/-! ## All assets in a store -/

/-- What the emission of the assets of these names leaves behind if it writes the first of
them. -/
structure Emits (output : StorageId) (base : Path) (compilation : Compilation)
    (names written : List String) (store : MemoryFiles) (deeds : List (Deed S))
    (after : MemoryFiles) : Prop where
  /-- Each of them is written once and whole, and nothing else is. -/
  calls : List.Forall₂ (fun name call => ∃ asset, compilation.assets.get? name = some asset ∧
    call = (base.join (.of name), asset.content)) written (deeds.filterMap (Deed.written? output))
  /-- All else stays, but for directories on the way to a target. -/
  frame : Frame (fun path => ∃ name ∈ written, path.same (base.join (.of name)) = true)
    (fun path => ∃ name ∈ names, ∃ parent, (base.join (.of name)).parent? = some parent ∧
      parent.startsWith path = true) store after
  lies : ∀ name ∈ written, ∃ asset, compilation.assets.get? name = some asset ∧
    after.Lies (base.join (.of name)) asset.content
  ordered : store.Ordered → after.Ordered

/-- No two of these names have one target. -/
def Apart (base : Path) (names : List String) : Prop :=
  names.Pairwise fun left right => (base.join (.of left)).same (base.join (.of right)) = false

/-- Nothing is written before the first asset is. -/
theorem Emits.none {name : String} {names : List String} (unwritten : deeds.filterMap (Deed.written? output) = [])
    {wrote : Path → Prop} (frame : Frame wrote (fun path => ∃ parent,
      (base.join (.of name)).parent? = some parent ∧ parent.startsWith path = true) store after)
    (nothing : ∀ path, ¬ wrote path) (ordered : store.Ordered → after.Ordered) :
    Emits output base compilation (name :: names) [] store deeds after where
  calls := by
    rw [unwritten]
    exact .nil
  frame := frame.mono (fun path written => absurd written (nothing path))
    fun path made => ⟨name, List.mem_cons_self, made⟩
  lies := by simp
  ordered := ordered

/-- An asset was written, and then those after it. -/
theorem Emits.cons {name : String} {names written : List String} {asset : Asset}
    {middle : MemoryFiles} {first rest : List (Deed S)}
    (held : compilation.assets.get? name = some asset)
    (call : first.filterMap (Deed.written? output) = [(base.join (.of name), asset.content)])
    (frame : Frame (fun path => path.same (base.join (.of name)) = true) (fun path => ∃ parent,
      (base.join (.of name)).parent? = some parent ∧ parent.startsWith path = true) store middle)
    (lies : middle.Lies (base.join (.of name)) asset.content)
    (ordered : store.Ordered → middle.Ordered)
    (apart : ∀ other ∈ written, (base.join (.of name)).same (base.join (.of other)) = false)
    (emits : Emits output base (compilation.markEmitted name) names written middle rest after) :
    Emits output base compilation (name :: names) (name :: written) store (first ++ rest) after where
  calls := by
    rw [List.filterMap_append, call, List.singleton_append]
    refine .cons ⟨asset, held, rfl⟩ (emits.calls.imp ?_)
    rintro other _ ⟨marked, found, rfl⟩
    obtain ⟨before, same, content⟩ := compilation.get?_markEmitted name found
    exact ⟨before, same, by rw [content]⟩
  frame := by
    refine Frame.trans (frame.mono ?_ ?_) (emits.frame.mono ?_ ?_)
    · exact fun path same => ⟨name, List.mem_cons_self, same⟩
    · exact fun path made => ⟨name, List.mem_cons_self, made⟩
    · exact fun path ⟨other, member, same⟩ => ⟨other, List.mem_cons_of_mem _ member, same⟩
    · exact fun path ⟨other, member, made⟩ => ⟨other, List.mem_cons_of_mem _ member, made⟩
  lies other member := by
    rcases List.mem_cons.1 member with rfl | member
    · refine ⟨asset, held, lies.frame emits.frame ?_⟩
      rintro ⟨later, inside, same⟩
      rw [apart later inside] at same
      cases same
    · obtain ⟨marked, found, later⟩ := emits.lies other member
      obtain ⟨before, same, content⟩ := compilation.get?_markEmitted name found
      exact ⟨before, same, content ▸ later⟩
  ordered sorted := emits.ordered (ordered sorted)

theorem emits_nil (store : MemoryFiles) (names : List String) :
    Emits output base compilation names [] store ([] : List (Deed S)) store :=
  ⟨.nil, .refl store, by simp, id⟩

/-- What is no business of the output may come first. -/
theorem Emits.after_aside {names written : List String} {told : List (Deed S)}
    (aside : ∀ deed ∈ told, ¬ deed.Stores output)
    (emits : Emits output base compilation names written store deeds after) :
    Emits output base compilation names written store (told ++ deeds) after := by
  refine ⟨?_, emits.frame, emits.lies, emits.ordered⟩
  rw [List.filterMap_append, written_of_aside aside]
  exact emits.calls

/-- The assets of the first names are written, marked, and lie in place. -/
theorem emits_of_emitNamed {names : List String} {result : Except RunError Unit}
    {final : Compilation} (held : ∀ name ∈ names, (compilation.assets.get? name).isSome = true)
    (apart : Apart base names) (there : store.contains base = true)
    (play : ((emitter compiler output).emitNamed base names compilation).Play deeds (result, final))
    (answers : Answers output store deeds after) :
    ∃ written rest, names = written ++ rest ∧ final = compilation.flagged written ∧
      (result = .ok () → rest = []) ∧
      Emits output base compilation names written store deeds after := by
  induction names generalizing compilation store deeds with
  | nil =>
    obtain ⟨rfl, same⟩ := Prog.play_pure.mp play
    cases same
    cases answers
    exact ⟨[], [], rfl, (Compilation.flagged_nil _).symm, fun _ => rfl, emits_nil _ _⟩
  | cons name names ih =>
    obtain ⟨asset, found⟩ := Option.isSome_iff_exists.1 (held name List.mem_cons_self)
    obtain ⟨apartHere, apartLater⟩ := List.pairwise_cons.1 apart
    rw [Emitter.emitNamed, found] at play
    obtain ⟨first, wrote, others, writing, telling, rfl⟩ := Prog.play_bind.mp play
    obtain ⟨middle, earlier, later⟩ := answers.split
    have mirrors : ((emitter compiler output).emitOne base name asset.content : Prog S _).Mirrors
        output (fun _ => True) (stored.emitOne base name asset.content) := mirrors_emitOne _ _
    have run := mirrors.run writing earlier fun _ _ => trivial
    obtain ⟨frame, lies, ordered⟩ := MemoryFiles.emitOne_leaves there run
    rcases written_of_emitOne writing with ⟨rfl, call⟩ | ⟨error, rfl, call⟩
    · obtain ⟨told, answer, last, tells, ended, rfl⟩ := Prog.play_bind.mp telling
      obtain ⟨between, telling, lasting⟩ := later.split
      have aside : ∀ deed ∈ told, ¬ deed.Stores output := aside_of_observe tells
      obtain rfl := telling.eq_of_aside aside
      have wrote := frame.mono (fun _ => And.right) fun _ => id
      cases answer with
      | error error =>
        obtain ⟨rfl, same⟩ := Prog.play_pure.mp ended
        cases same
        cases lasting
        refine ⟨[name], names, rfl, compilation.markEmitted_eq name, (fun ok => by cases ok), ?_⟩
        exact .cons found call wrote (lies rfl) ordered (by simp) ((emits_nil _ _).after_aside aside)
      | ok value =>
        have held : ∀ other ∈ names,
            ((compilation.markEmitted name).assets.get? other).isSome = true := fun other member =>
          assets_markEmitted_isSome (held other (List.mem_cons_of_mem _ member))
        obtain ⟨written, rest, rfl, rfl, whole, emits⟩ :=
          ih held apartLater (frame.contains there) ended lasting
        refine ⟨name :: written, rest, rfl, ?_, whole, ?_⟩
        · rw [Compilation.markEmitted_eq, Compilation.flagged_flagged, List.singleton_append]
        · exact .cons found call wrote (lies rfl) ordered
            (fun other member => apartHere other (List.mem_append_left _ member))
            (emits.after_aside aside)
    · obtain ⟨rfl, same⟩ := Prog.play_pure.mp telling
      cases same
      cases later
      refine ⟨[], name :: names, rfl, (Compilation.flagged_nil _).symm, (fun ok => by cases ok), ?_⟩
      rw [List.append_nil]
      exact .none call frame (fun _ wrote => by cases wrote.1) ordered

/-! ## Emission -/

/-- What an emission leaves behind that wrote the assets of these names. -/
structure Leaves (output : StorageId) (base : Path) (compilation : Compilation)
    (written : List String) (store : MemoryFiles) (deeds : List (Deed S)) (final : Compilation)
    (after : MemoryFiles) : Prop where
  /-- Each of them was written once and whole, in this order, and nothing else was. -/
  calls : List.Forall₂ (fun name call => ∃ asset, compilation.assets.get? name = some asset ∧
    call = (base.join (.of name), asset.content)) written (deeds.filterMap (Deed.written? output))
  /-- These and no others were marked. -/
  flags : final = compilation.flagged written
  /-- Each target holds the content of its asset. -/
  targets : ∀ name ∈ written, ∃ asset, compilation.assets.get? name = some asset ∧
    after.read (base.join (.of name)) = .ok asset.content
  /-- Every other file is there as before. -/
  files : ∀ path, (∀ name ∈ written, path.same (base.join (.of name)) = false) → ∀ content,
    after.read path = .ok content ↔ store.read path = .ok content
  directories : ∀ path, store.isDirectory path = true → after.isDirectory path = true
  /-- Any other new entry is a directory on the way to the output or to a target. -/
  entries : ∀ path, after.contains path = true → store.contains path = true ∨
    (∃ name ∈ written, path.same (base.join (.of name)) = true) ∨
    after.isDirectory path = true ∧ (base.startsWith path = true ∨
      ∃ name ∈ compilation.assetNames, ∃ parent, (base.join (.of name)).parent? = some parent ∧
        parent.startsWith path = true)

/-- The compilation can be emitted once more: with any observers that do not fail this
succeeds, and neither the compilation nor the store is changed. -/
structure Repeats (S : Setting) (compiler : CompilerId) (output : StorageId) (base : Path)
    (compilation : Compilation) (store : MemoryFiles) : Prop where
  possible : ∀ record : CompilerRecord S, ∃ deeds : List (Deed S),
    ((emitter compiler output).emitAll base compilation).Play deeds (.ok (), compilation) ∧
      Answers output store deeds store ∧ ∀ deed ∈ deeds, deed.Unopposed ∧ deed.Finds record
  unchanged : ∀ (deeds : List (Deed S)) result final after,
    ((emitter compiler output).emitAll base compilation).Play deeds (result, final) →
    Answers output store deeds after → (∀ deed ∈ deeds, deed.Unopposed) →
      result = .ok () ∧ final = compilation ∧ after = store

theorem repeats_of_run
    (run : (stored.emitAll base compilation).run store = ((.ok (), compilation), store)) :
    Repeats S compiler output base compilation store := by
  have unchanged : ∀ (deeds : List (Deed S)) result final after,
      ((emitter compiler output).emitAll base compilation).Play deeds (result, final) →
      Answers output store deeds after → (∀ deed ∈ deeds, deed.Unopposed) →
        result = .ok () ∧ final = compilation ∧ after = store := by
    intro deeds result final after play answers unopposed
    have same := (mirrors_emitAll compilation).run play answers unopposed
    rw [run] at same
    cases same
    exact ⟨rfl, rfl, rfl⟩
  refine ⟨fun record => ?_, unchanged⟩
  have allows : AllowsPhases compiler (fun _ : Op S => True) (fun _ => True) := by
    constructor <;> intros <;> trivial
  have within : ((emitter compiler output).emitAll base compilation : Prog S _).Within
      (fun _ => True) (fun _ => True) := allows.within_emitAll
  obtain ⟨deeds, ⟨result, final⟩, after, play, answers, content⟩ :=
    within.exists_answered record store
  obtain ⟨rfl, rfl, rfl⟩ := unchanged deeds result final after play answers fun deed member =>
    (content deed member).1
  exact ⟨deeds, play, answers, content⟩

/-- When all assets were written, their emission does nothing on the store that it left. -/
theorem Emits.run_again
    (emits : Emits output base compilation compilation.assetNames compilation.assetNames store
      deeds after) (ordered : store.Ordered) (there : store.contains base = true) :
    (stored.emitAll base (compilation.flagged compilation.assetNames)).run after =
      ((.ok (), compilation.flagged compilation.assetNames), after) := by
  have lies : ∀ name ∈ compilation.assetNames, ∃ asset,
      (compilation.flagged compilation.assetNames).assets.get? name = some asset ∧
        (compilation.flagged compilation.assetNames).markEmitted name =
          compilation.flagged compilation.assetNames ∧
        after.Lies (base.join (.of name)) asset.content := by
    intro name member
    obtain ⟨asset, found, inPlace⟩ := emits.lies name member
    refine ⟨{ asset with emitted := true }, ?_, ?_, inPlace⟩
    · rw [Compilation.get?_flagged, found, Option.map_some, if_pos member]
    · exact compilation.markEmitted_flagged name member
  rw [Emitter.emitAll, run_bind, MemoryFiles.run_prepare_of_contains (emits.frame.contains there),
    Compilation.assetNames_flagged]
  exact MemoryFiles.run_emitNamed_of_lies (emits.ordered ordered) lies

/-- What was written, and the frame of the whole, say what is left behind. -/
theorem leaves_of_frame {written : List String} {final : Compilation}
    (calls : List.Forall₂ (fun name call => ∃ asset, compilation.assets.get? name = some asset ∧
      call = (base.join (.of name), asset.content)) written
      (deeds.filterMap (Deed.written? output)))
    (flags : final = compilation.flagged written)
    (lies : ∀ name ∈ written, ∃ asset, compilation.assets.get? name = some asset ∧
      after.Lies (base.join (.of name)) asset.content)
    (frame : Frame (fun path => ∃ name ∈ written, path.same (base.join (.of name)) = true)
      (fun path => base.startsWith path = true ∨ ∃ name ∈ compilation.assetNames, ∃ parent,
        (base.join (.of name)).parent? = some parent ∧ parent.startsWith path = true) store after) :
    Leaves output base compilation written store deeds final after where
  calls := calls
  flags := flags
  targets name member := by
    obtain ⟨asset, found, inPlace⟩ := lies name member
    exact ⟨asset, found, MemoryFiles.read_eq_ok_iff.2 inPlace.held⟩
  files path apart content := by
    rw [MemoryFiles.read_eq_ok_iff, MemoryFiles.read_eq_ok_iff]
    refine frame.file ?_ content
    rintro ⟨name, member, same⟩
    rw [apart name member] at same
    cases same
  directories path directory := by
    obtain ⟨names, found⟩ := MemoryFiles.isDirectory_iff.1 directory
    obtain ⟨more, later, -⟩ := frame.directory found
    exact MemoryFiles.isDirectory_iff.2 ⟨more, later⟩
  entries path := frame.entry

/-- Every emission into a store in memory, whatever its observers do, writes the first assets in
the order of their names and marks them, each whole and at its target, and leaves all else as
it was but for directories on the way. An emission that succeeds writes all assets, and can
be repeated without a change. -/
theorem emission_faithful {result : Except RunError Unit} {final : Compilation}
    (ordered : store.Ordered) (apart : Apart base compilation.assetNames)
    (play : ((emitter compiler output).emitAll base compilation).Play deeds (result, final))
    (answers : Answers output store deeds after) :
    ∃ written rest, compilation.assetNames = written ++ rest ∧
      Leaves output base compilation written store deeds final after ∧
      (result = .ok () → rest = [] ∧ (∀ entry ∈ final.assets.entries, entry.2.emitted = true) ∧
        Repeats S compiler output base final after) := by
  obtain ⟨first, prepared, others, preparing, emitting, rfl⟩ := Prog.play_bind.mp play
  obtain ⟨middle, earlier, later⟩ := answers.split
  have mirrors : ((emitter compiler output).prepare base : Prog S _).Mirrors output
      (fun _ => True) (stored.prepare base) := mirrors_prepare base
  obtain ⟨way, sorted, made⟩ :=
    MemoryFiles.prepare_leaves (mirrors.run preparing earlier fun _ _ => trivial)
  obtain ⟨reply, prepares, same⟩ := prepares_of_prepare preparing
  have unwritten := written_of_prepares prepares
  clear same
  cases prepared with
  | error error =>
    obtain ⟨rfl, same⟩ := Prog.play_pure.mp emitting
    cases same
    cases later
    refine ⟨[], compilation.assetNames, rfl, ?_, nofun⟩
    rw [List.append_nil]
    refine leaves_of_frame (unwritten ▸ .nil) (Compilation.flagged_nil _).symm (by simp) ?_
    exact way.mono (fun _ => False.elim) fun _ => .inl
  | ok value =>
    have there := made rfl
    obtain ⟨written, rest, names, flags, whole, emits⟩ := emits_of_emitNamed
      (fun name member => Table.isSome_get?_of_mem_keys member) apart there emitting later
    refine ⟨written, rest, names, ?_, fun ok => ?_⟩
    · refine leaves_of_frame ?_ flags emits.lies ?_
      · rw [List.filterMap_append, unwritten]
        exact emits.calls
      · exact (way.mono (fun _ => False.elim) fun _ => .inl).trans
          (emits.frame.mono (fun _ => id) fun _ => .inr)
    · obtain rfl := whole ok
      rw [List.append_nil] at names
      subst names flags
      refine ⟨rfl, fun entry member => ?_, repeats_of_run ?_⟩
      · obtain ⟨old, inside, rfl⟩ := List.mem_map.1 member
        exact congrArg Asset.emitted (if_pos (List.mem_map_of_mem inside))
      · exact emits.run_again (sorted ordered) there

/-- A compilation with one asset in the output directory and one below it. -/
def twoAssets : Compilation :=
  ((default : Compilation).emitAsset "main.js" "1".toUTF8).emitAsset "js/more.js" "2".toUTF8

/-- The assets are written into an empty store, and may be written again. -/
theorem two_assets_emitted : ∃ (deeds : List (Deed Setting.plain)) (final : Compilation)
    (after : MemoryFiles),
    ((emitter 0 0).emitAll (.of "/out") twoAssets).Play deeds (.ok (), final) ∧
      Answers 0 MemoryFiles.empty deeds after ∧
      after.read (.of "/out/js/more.js") = .ok "2".toUTF8 ∧
      Repeats Setting.plain 0 0 (.of "/out") final after := by
  have within : ((emitter 0 0).emitAll (.of "/out") twoAssets : Prog Setting.plain _).Within
      (fun _ => True) Call.Plain :=
    (allowsPhases_plain 0 trivial trivial fun _ => trivial).within_emitAll
  obtain ⟨deeds, ⟨result, final⟩, after, play, answers, content⟩ :=
    within.exists_answered observedCompiler MemoryFiles.empty
  have run := (mirrors_emitAll twoAssets).run play answers fun deed member => (content deed member).1
  have goesWell : ((stored.emitAll (.of "/out") twoAssets).run MemoryFiles.empty).1.1.isOk = true := by
    decide +kernel
  rw [run] at goesWell
  have apart : Apart (.of "/out") twoAssets.assetNames := by
    rw [Apart]
    decide +kernel
  cases result with
  | error error => cases goesWell
  | ok value =>
    obtain ⟨written, rest, names, leaves, whole⟩ :=
      emission_faithful MemoryFiles.ordered_empty apart play answers
    obtain ⟨rfl, -, repeats⟩ := whole rfl
    have listed : "js/more.js" ∈ written := by
      rw [List.append_nil] at names
      rw [← names]
      decide +kernel
    obtain ⟨asset, found, read⟩ := leaves.targets _ listed
    have isAsset : twoAssets.assets.get? "js/more.js" = some ⟨"2".toUTF8, false⟩ := by
      decide +kernel
    rw [isAsset] at found
    obtain rfl := Option.some.inj found
    exact ⟨deeds, final, after, play, answers, read, repeats⟩

end Compiler

end Bundler
