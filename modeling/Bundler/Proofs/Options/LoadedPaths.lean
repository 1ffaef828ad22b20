import Bundler.Options.Reading
import Bundler.Proofs.Path.NormalForm

/-!
# Paths of loaded options

The options in a file are rebased: the context is seen from the directory of the file, the
output path from the context, and both are folded. `Options.loaded_paths` says what comes
out of this. Seen from the current directory the context lies where it should, but it is
written from the root only if the way to it is: a directory that is named by a relative path
is taken as it is written.
-/

namespace Bundler

namespace Path

theorem absolutize_eq (base path : Path) : base.absolutize path = (base.join path).normalize := by
  rw [absolutize, join]
  split <;> rfl

end Path

/-- The directory of a file is the way to it without its last component, or the current
directory where nothing is left of the way. -/
theorem configDirectory_cases (current config : Path) :
    (config.components.length ≤ 1 ∧ configDirectory current config = current) ∨
      ∃ last, (configDirectory current config).components ≠ [] ∧
        config.components = (configDirectory current config).components ++ [last] := by
  unfold configDirectory
  split
  · next parent isParent =>
    obtain ⟨last, -, shape⟩ := Path.components_parent isParent
    split
    · next empty =>
      have nothing : parent.components = [] :=
        Path.components_eq_nil_iff.2 (by simpa [Path.isEmpty] using empty)
      exact .inl ⟨by simp [shape, nothing], rfl⟩
    · next some_ =>
      refine .inr ⟨last, fun nothing => some_ ?_, shape⟩
      simpa [Path.isEmpty] using Path.components_eq_nil_iff.1 nothing
  · next none =>
    refine .inl ⟨?_, rfl⟩
    rcases Path.parent?_eq_none_iff.1 none with shape | shape <;> simp [shape]

/-- The directory of a file is absolute if the file is named so, or by one component alone. -/
theorem isAbsolute_configDirectory_iff {current : Path} (absolute : current.isAbsolute = true)
    (config : Path) :
    (configDirectory current config).isAbsolute = true ↔
      config.isAbsolute = true ∨ config.components.length ≤ 1 := by
  rcases configDirectory_cases current config with ⟨short, same⟩ | ⟨last, some_, shape⟩
  · rw [same]
    exact iff_of_true absolute (.inr short)
  · have size := List.length_pos_iff.2 some_
    rw [Path.isAbsolute_iff_head?, Path.isAbsolute_iff_head?, shape,
      List.head?_append_of_ne_nil _ some_, List.length_append, List.length_singleton]
    exact (or_iff_left (by omega)).symm

namespace Options

/-- Options are loaded from a file that is read and accepted, and rebased to its directory. -/
theorem exists_of_load {current config : Path} {source : String} {options : Options}
    (loaded : loadOptions current config source = .ok options) :
    ∃ file, FileOptions.parse source = .ok file ∧ file.toOptions.validate = .ok () ∧
      options = file.toOptions.rebase (configDirectory current config) := by
  unfold loadOptions at loaded
  split at loaded
  · cases loaded
  · next file parsed =>
    refine ⟨file, parsed, ?_⟩
    unfold FileOptions.check at loaded
    split at loaded
    · cases loaded
    · next accepted checked =>
      split at checked
      · next valid =>
        cases checked
        cases loaded
        exact ⟨valid, rfl⟩
      · cases checked

/-- The paths of loaded options are folded. The context is the one that the file gives, seen from
the directory of the file, and the output path the one that the file gives, seen from the context.
The context starts at the root if it is given so, or if the file is named by an absolute path or
by a single component; the output path if it is given so or the context starts at the root. -/
theorem loaded_paths {current config : Path} {source : String} {options : Options}
    (absolute : current.isAbsolute = true)
    (loaded : loadOptions current config source = .ok options) :
    ∃ file, FileOptions.parse source = .ok file ∧
      options.context = ((configDirectory current config).join file.context).normalize ∧
      options.output.path = (options.context.join file.output.path).normalize ∧
      options.context.Normalized ∧ options.output.path.Normalized ∧
      current.absolutize options.context =
        (current.join (configDirectory current config)).absolutize file.context ∧
      (options.context.isAbsolute = true ↔ file.context.isAbsolute = true ∨
        config.isAbsolute = true ∨ config.components.length ≤ 1) ∧
      (options.output.path.isAbsolute = true ↔
        file.output.path.isAbsolute = true ∨ options.context.isAbsolute = true) := by
  obtain ⟨file, parsed, -, rfl⟩ := exists_of_load loaded
  have context : (file.toOptions.rebase (configDirectory current config)).context =
      ((configDirectory current config).join file.context).normalize :=
    Path.absolutize_eq _ _
  have output : (file.toOptions.rebase (configDirectory current config)).output.path =
      ((file.toOptions.rebase (configDirectory current config)).context.join
        file.output.path).normalize :=
    Path.absolutize_eq _ _
  generalize file.toOptions.rebase (configDirectory current config) = options at context output
  refine ⟨file, parsed, context, output, ?_, ?_, ?_, ?_, ?_⟩
  · exact context ▸ Path.normalized_normalize _
  · exact output ▸ Path.normalized_normalize _
  · have same : (current.join options.context).folded =
        ((current.join (configDirectory current config)).join file.context).folded := by
      rw [context, Path.folded_join_normalize, Path.folded_join_join]
    rw [Path.absolutize_eq, Path.absolutize_eq, Path.normalize, Path.normalize, same]
  · rw [context, Path.isAbsolute_normalize, Path.isAbsolute_join_iff,
      isAbsolute_configDirectory_iff absolute]
  · rw [output, Path.isAbsolute_normalize, Path.isAbsolute_join_iff]

/-- The two paths of loaded options tell that there are such options. -/
theorem exists_of_paths {current config context output : Path} {source : String}
    (seen : (loadOptions current config source).toOption.map
      (fun options => (options.context, options.output.path)) = some (context, output)) :
    ∃ options, loadOptions current config source = .ok options ∧
      options.context = context ∧ options.output.path = output := by
  cases loaded : loadOptions current config source with
  | error fault =>
    rw [loaded] at seen
    cases seen
  | ok options =>
    rw [loaded] at seen
    obtain ⟨isContext, isOutput⟩ := Prod.mk.inj (Option.some.inj seen)
    exact ⟨options, rfl, isContext, isOutput⟩

/-- A file that is named alone is looked up in the current directory, so its options start at
the root. -/
theorem loaded_beside : ∃ options,
    loadOptions (.of "/home") (.of "Packwatch.toml") "entry = './a'" = .ok options ∧
      options.context = .of "/home" ∧ options.output.path.isAbsolute = true ∧
      options.output.path.Normalized := by
  have paths : (loadOptions (.of "/home") (.of "Packwatch.toml") "entry = './a'").toOption.map
      (fun options => (options.context, options.output.path)) =
        some (.of "/home", .of "/home/dist") := by decide +kernel
  obtain ⟨options, loaded, isContext, -⟩ := exists_of_paths paths
  obtain ⟨file, -, -, -, -, normalized, -, context, output⟩ := loaded_paths (by decide) loaded
  have rooted : options.context.isAbsolute = true := context.2 (.inr (.inr (by decide)))
  exact ⟨options, loaded, isContext, output.2 (.inr rooted), normalized⟩

/-- A file in a directory that is named from the current one leaves both paths relative. -/
theorem loaded_below : ∃ options,
    (Path.of "/home").isAbsolute = true ∧
      loadOptions (.of "/home") (.of "sub/Packwatch.toml") "entry = './a'" = .ok options ∧
      options.context = .of "sub" ∧ options.context.isAbsolute = false ∧
      options.output.path = .of "sub/dist" ∧ options.output.path.isAbsolute = false := by
  have paths : (loadOptions (.of "/home") (.of "sub/Packwatch.toml") "entry = './a'").toOption.map
      (fun options => (options.context, options.output.path)) =
        some (.of "sub", .of "sub/dist") := by decide +kernel
  obtain ⟨options, loaded, context, output⟩ := exists_of_paths paths
  exact ⟨options, by decide, loaded, context, context ▸ by decide, output, output ▸ by decide⟩

end Options

end Bundler
