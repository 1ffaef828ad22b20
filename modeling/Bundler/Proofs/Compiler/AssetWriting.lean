import Bundler.Proofs.Compiler.HookCalls
import Bundler.Proofs.Table

/-!
# The writing of assets

The assets of a compilation are written in the order of their names: first the
directories above an asset, then the asset itself, and then the observers of
`asset_emitted` are told of it, before the next asset is begun. `Writes` says where
this is cut when something fails.
-/

namespace Bundler.Compiler

variable {S : Setting}

/-- Nothing was done but making directories. -/
def OnlyDirectories (output : StorageId) (deeds : List (Deed S)) : Prop :=
  ∀ deed ∈ deeds, ∃ path reply, deed = .call (.mkdir output path) reply

/-- Directories were made, or the last thing that was done is a directory that could not
be made. -/
def Prepares (output : StorageId) (deeds : List (Deed S)) : Except FileFault Unit → Prop
  | .ok () => OnlyDirectories output deeds
  | .error fault =>
    ∃ earlier path, deeds = earlier ++ [.call (.mkdir output path) (.error fault)] ∧
      OnlyDirectories output earlier ∧ fault.kind ≠ .alreadyExists

/-- The assets of the given names were written, up to the first failure. -/
inductive Writes (compiler : CompilerId) (output : StorageId) (base : Path) :
    List String → Compilation → List (Deed S) → Except RunError Compilation → Prop where
  | finished (compilation : Compilation) :
      Writes compiler output base [] compilation [] (.ok compilation)
  | unprepared {name rest compilation directories directory fault}
      (prepared : Prepares output directories (.error fault)) :
      Writes compiler output base (name :: rest) compilation directories
        (.error (.io directory fault))
  | unwritten {name rest compilation asset directories fault}
      (held : compilation.assets.get? name = some asset)
      (prepared : Prepares output directories (.ok ())) :
      Writes compiler output base (name :: rest) compilation
        (directories ++ [.call (.write output (base.join (.of name)) asset.content) (.error fault)])
        (.error (.io (base.join (.of name)) fault))
  | untold {name rest compilation asset directories told error}
      (held : compilation.assets.get? name = some asset)
      (prepared : Prepares output directories (.ok ()))
      (fires : Fires compiler .assetEmitted
        (Told compiler (.assetEmitted ⟨name, base.join (.of name), asset.content.size⟩)) () told
        (.error error)) :
      Writes compiler output base (name :: rest) compilation
        (directories ++ .call (.write output (base.join (.of name)) asset.content) (.ok ()) :: told)
        (.error error)
  | written {name rest compilation asset directories told ending others result}
      (held : compilation.assets.get? name = some asset)
      (prepared : Prepares output directories (.ok ()))
      (fires : Fires compiler .assetEmitted
        (Told compiler (.assetEmitted ⟨name, base.join (.of name), asset.content.size⟩)) () told
        (.ok ending))
      (remaining : Writes compiler output base rest (compilation.markEmitted name) others result) :
      Writes compiler output base (name :: rest) compilation
        (directories ++ .call (.write output (base.join (.of name)) asset.content) (.ok ()) ::
          (told ++ others))
        result

/-! ## Directories -/

section Directories

variable {output : StorageId} {deeds first : List (Deed S)} {path : Path}

theorem onlyDirectories_nil : OnlyDirectories output ([] : List (Deed S)) := by
  intro deed member
  cases member

theorem onlyDirectories_cons {reply : Except FileFault Unit}
    (rest : OnlyDirectories output deeds) :
    OnlyDirectories output (.call (.mkdir output path) reply :: deeds) := by
  intro deed member
  rcases List.mem_cons.mp member with rfl | member
  · exact ⟨path, reply, rfl⟩
  · exact rest deed member

theorem OnlyDirectories.append (before : OnlyDirectories output first)
    (after : OnlyDirectories output deeds) : OnlyDirectories output (first ++ deeds) := by
  intro deed member
  rcases List.mem_append.mp member with member | member
  · exact before deed member
  · exact after deed member

/-- A failed attempt that comes first does not matter. -/
theorem Prepares.after_attempt {result : Except FileFault Unit} {reply : Except FileFault Unit}
    (prepared : Prepares output deeds result) :
    Prepares output (.call (.mkdir output path) reply :: deeds) result := by
  cases result with
  | ok value => exact onlyDirectories_cons prepared
  | error fault =>
      obtain ⟨earlier, last, rfl, directories, kind⟩ := prepared
      exact ⟨_ :: earlier, last, rfl, onlyDirectories_cons directories, kind⟩

/-- Directories that were made come before everything else. -/
theorem Prepares.after_directories {result : Except FileFault Unit}
    (before : OnlyDirectories output first) (prepared : Prepares output deeds result) :
    Prepares output (first ++ deeds) result := by
  cases result with
  | ok value => exact before.append prepared
  | error fault =>
      obtain ⟨earlier, last, rfl, directories, kind⟩ := prepared
      exact ⟨first ++ earlier, last, by simp, before.append directories, kind⟩

/-- One directory, made or refused. -/
theorem prepares_single {reply : Except FileFault Unit} :
    Prepares output ([.call (.mkdir output path) reply] : List (Deed S)) (madeOrThere reply) := by
  cases reply with
  | ok value => exact onlyDirectories_cons onlyDirectories_nil
  | error fault =>
      by_cases held : fault.kind = .alreadyExists
      · simp only [madeOrThere, held, if_true]
        exact onlyDirectories_cons onlyDirectories_nil
      · simp only [madeOrThere, held, if_false]
        exact ⟨[], path, rfl, onlyDirectories_nil, held⟩

/-- Making a directory with all those above it only makes directories, and ends with the
first that cannot be made. -/
theorem prepares_of_mkdirp {count : Nat} {result : Except FileFault Unit}
    (play : (mkdirp (fun path => Prog.invoke (.mkdir output path)) count path).Play deeds
      result) :
    Prepares output deeds result := by
  induction count generalizing path deeds result with
  | zero =>
      rw [mkdirp, Prog.play_map] at play
      obtain ⟨reply, made, rfl⟩ := play
      rw [Prog.play_invoke.mp made]
      exact prepares_single
  | succ count ih =>
      rw [mkdirp, Prog.play_invoke_bind] at play
      obtain ⟨attempt, rest, after, rfl⟩ := play
      cases above : missingAbove? path attempt with
      | none =>
          rw [above] at after
          obtain ⟨rfl, rfl⟩ := Prog.play_pure.mp after
          exact prepares_single
      | some parent =>
          rw [above] at after
          obtain ⟨upper, answer, last, before, ended, rfl⟩ := Prog.play_bind.mp after
          apply Prepares.after_attempt
          cases answer with
          | error fault =>
              obtain ⟨rfl, rfl⟩ := Prog.play_pure.mp ended
              rw [List.append_nil]
              exact ih before
          | ok value =>
              obtain ⟨reply, made, rfl⟩ := Prog.play_map.mp ended
              rw [Prog.play_invoke.mp made]
              exact prepares_single.after_directories (ih before)

end Directories

/-! ## Assets -/

variable {compiler : CompilerId} {output : StorageId} {base : Path} {compilation : Compilation}
  {deeds : List (Deed S)}

/-- All assets of a compilation were written, up to the first failure. -/
def WritesAll (compiler : CompilerId) (output : StorageId) (base : Path)
    (compilation : Compilation) (deeds : List (Deed S))
    (result : Except RunError Compilation) : Prop :=
  (∃ fault, Prepares output deeds (.error fault) ∧ result = .error (.io base fault)) ∨
  ∃ directories rest, Prepares output directories (.ok ()) ∧ deeds = directories ++ rest ∧
    Writes compiler output base compilation.assetNames compilation rest result

theorem prepares_of_prepare {directory : Path} {result : Except RunError Unit}
    (play : ((emitter compiler output).prepare directory).Play deeds result) :
    ∃ reply, Prepares output deeds reply ∧ result = Emitter.failingAt directory reply := by
  obtain ⟨reply, made, same⟩ := Prog.play_map.mp play
  exact ⟨reply, prepares_of_mkdirp made, same⟩

/-- One asset was written, or failed to be: its directories, and then its content. -/
def WritesOne (output : StorageId) (target : Path) (content : ByteArray) (deeds : List (Deed S))
    (result : Except RunError Unit) : Prop :=
  (∃ directory fault, Prepares output deeds (.error fault) ∧
    result = .error (.io directory fault)) ∨
  ∃ directories reply, Prepares output directories (.ok ()) ∧
    deeds = directories ++ [.call (.write output target content) reply] ∧
    result = Emitter.failingAt target reply

/-- An asset is written when its directories are there. -/
theorem writesOne_of_prepared {target : Path} (directory : Path) {content : ByteArray}
    {first rest : List (Deed S)} {prepared : Except FileFault Unit}
    {result : Except RunError Unit} (made : Prepares output first prepared)
    (play : Prog.Play
      (match Emitter.failingAt directory prepared with
        | .error error => pure (.error error)
        | .ok () => do
          return Emitter.failingAt target
            (← Prog.invoke (.write output target content)))
      rest result) :
    WritesOne output target content (first ++ rest) result := by
  cases prepared with
  | error fault =>
      obtain ⟨rfl, rfl⟩ := Prog.play_pure.mp play
      exact .inl ⟨directory, fault, by simpa using made, rfl⟩
  | ok value =>
      obtain ⟨reply, wrote, rfl⟩ := Prog.play_map.mp play
      rw [Prog.play_invoke.mp wrote]
      exact .inr ⟨first, reply, made, rfl, rfl⟩

theorem writesOne_of_emitOne {name : String} {content : ByteArray}
    {result : Except RunError Unit}
    (play : ((emitter compiler output).emitOne base name content).Play deeds result) :
    WritesOne output (base.join (.of name)) content deeds result := by
  have nothing : Prepares output ([] : List (Deed S)) (.ok ()) := onlyDirectories_nil
  rw [Emitter.emitOne] at play
  split at play
  · rename_i directory above
    split at play
    · exact writesOne_of_prepared base nothing play
    · obtain ⟨first, prepared, rest, before, after, rfl⟩ := Prog.play_bind.mp play
      obtain ⟨reply, made, rfl⟩ := prepares_of_prepare before
      exact writesOne_of_prepared _ made after
  · exact writesOne_of_prepared base nothing play

/-- A mark takes no asset away. -/
theorem assets_markEmitted_isSome {name other : String}
    (held : (compilation.assets.get? other).isSome = true) :
    ((compilation.markEmitted name).assets.get? other).isSome = true := by
  rw [Compilation.markEmitted, Table.isSome_get?_modify]
  exact held

/-- The assets of names that the compilation has are written one after the other. -/
theorem writes_of_emitNamed {names : List String} {result : Except RunError Unit × Compilation}
    (held : ∀ name ∈ names, (compilation.assets.get? name).isSome = true)
    (play : ((emitter compiler output).emitNamed base names compilation).Play deeds result) :
    Writes compiler output base names compilation deeds (result.1.map fun _ => result.2) := by
  induction names generalizing compilation deeds result with
  | nil =>
      obtain ⟨rfl, rfl⟩ := Prog.play_pure.mp play
      exact .finished compilation
  | cons name names ih =>
      obtain ⟨asset, found⟩ := Option.isSome_iff_exists.mp (held name List.mem_cons_self)
      rw [Emitter.emitNamed, found] at play
      obtain ⟨first, wrote, others, before, after, rfl⟩ := Prog.play_bind.mp play
      rcases writesOne_of_emitOne before with
        ⟨directory, fault, prepared, rfl⟩ | ⟨directories, reply, prepared, rfl, rfl⟩
      · obtain ⟨rfl, rfl⟩ := Prog.play_pure.mp after
        rw [List.append_nil]
        exact .unprepared prepared
      · cases reply with
        | error fault =>
            obtain ⟨rfl, rfl⟩ := Prog.play_pure.mp after
            rw [List.append_nil]
            exact .unwritten found prepared
        | ok value =>
            obtain ⟨told, answer, last, tells, ended, rfl⟩ := Prog.play_bind.mp after
            obtain ⟨ending, fires, rfl⟩ := fires_of_observe tells
            rw [List.append_assoc, List.singleton_append]
            cases ending with
            | error error =>
                obtain ⟨rfl, rfl⟩ := Prog.play_pure.mp ended
                rw [List.append_nil]
                exact .untold found prepared fires
            | ok ending =>
                refine .written found prepared fires (ih ?_ ended)
                intro other member
                exact assets_markEmitted_isSome (held other (List.mem_cons_of_mem _ member))

/-- Writing the assets of a compilation makes the output directory and goes through all of
them. -/
theorem writesAll_of_emitAll {result : Except RunError Unit × Compilation}
    (play : ((emitter compiler output).emitAll base compilation).Play deeds result) :
    WritesAll compiler output base compilation deeds (result.1.map fun _ => result.2) := by
  obtain ⟨first, prepared, rest, before, after, rfl⟩ := Prog.play_bind.mp play
  obtain ⟨reply, made, rfl⟩ := prepares_of_prepare before
  cases reply with
  | error fault =>
      obtain ⟨rfl, rfl⟩ := Prog.play_pure.mp after
      exact .inl ⟨fault, by simpa using made, rfl⟩
  | ok value =>
      refine .inr ⟨first, rest, made, rfl, writes_of_emitNamed ?_ after⟩
      intro name member
      exact Table.isSome_get?_of_mem_keys member

end Bundler.Compiler
